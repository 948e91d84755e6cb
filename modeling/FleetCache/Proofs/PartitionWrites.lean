import FleetCache.Cache.Memory
/-!
What the operations of the cache in memory do to a single entity. Every write and every drop touches each
id on its own, so a partition behaves like one small state machine for each id. The index by source never
misses a contributor, so dropping a source through the index is the same as looking at every entity.
-/
set_option autoImplicit false

namespace FleetCache

/-- What holds of every kept entity: some source contributes to it, and its owners contribute to it. -/
structure Stored.Sound (kept : Stored) : Prop where
  contributed : ∃ source, source ∈ kept.contributions
  owned : ∀ source, source ∈ kept.owners → source ∈ kept.contributions

namespace Stored

def contributionsOf (old : Option Stored) : Contributions :=
  (old.map Stored.contributions).getD ∅

def ownersOf (old : Option Stored) : AtomSet :=
  (old.map Stored.owners).getD ∅

theorem contributionsOf_none : contributionsOf none = ∅ := rfl

theorem contributionsOf_stored (old : Option Stored) (entity : Entity) (source : Atom) (authority : Authority) :
    contributionsOf (some (Partition.stored old entity source authority)) =
      (contributionsOf old).contribute source entity.relations := by
  cases old <;> rfl

end Stored

namespace Contributions

theorem mem_contribute (contributions : Contributions) (source other : Atom) (relations : Relations) :
    other ∈ contributions.contribute source relations ↔ (source == other) = true ∨ other ∈ contributions :=
  Table.mem_put _ _ _ _

theorem isEmpty_eq_false {contributions : Contributions} {source : Atom} (h : source ∈ contributions) :
    contributions.isEmpty = false := by
  rw [Std.ExtTreeMap.isEmpty_eq_false_iff]
  rintro rfl
  exact Std.ExtTreeMap.not_mem_empty h

theorem exists_mem_of_isEmpty {contributions : Contributions} (h : contributions.isEmpty = false) :
    ∃ source, source ∈ contributions := by
  rw [Std.ExtTreeMap.isEmpty_eq_false_iff, Std.ExtTreeMap.eq_empty_iff_forall_not_mem] at h
  simpa using h

end Contributions

namespace Partition

def withId (id : Atom) (entities : List Entity) : List Entity :=
  entities.filter (fun entity => entity.id == id)

theorem withId_cons (id : Atom) (entity : Entity) (rest : List Entity) :
    withId id (entity :: rest) = if entity.id == id then entity :: withId id rest else withId id rest :=
  List.filter_cons

def storedAll (source : Atom) (authority : Authority) (old : Option Stored) (entities : List Entity) :
    Option Stored :=
  entities.foldl (fun old entity => some (stored old entity source authority)) old

def replaced (source : Atom) (authority : Authority) (old : Option Stored) (entities : List Entity) :
    Option Stored :=
  storedAll source authority (old.bind (withoutSource source !entities.isEmpty)) entities

theorem stored_sound {old : Option Stored} (h : ∀ kept, old = some kept → kept.Sound) (entity : Entity)
    (source : Atom) (authority : Authority) : (stored old entity source authority).Sound := by
  refine ⟨⟨source, (Contributions.mem_contribute _ _ _ _).2 (.inl BEq.rfl)⟩, fun other hother => ?_⟩
  refine (Contributions.mem_contribute _ _ _ _).2 ?_
  have hbase : other ∈ (old.getD ⟨entity.attributes, ∅, ∅⟩).owners →
      other ∈ (old.getD ⟨entity.attributes, ∅, ∅⟩).contributions := by
    cases hold : old with
    | none => exact fun hmem => absurd hmem Std.ExtTreeSet.not_mem_empty
    | some kept => exact (h kept hold).owned other
  cases authority with
  | authoritative =>
    rcases (AtomSet.mem_insert _ _ _).1 hother with hsame | hold
    · exact .inl hsame
    · exact .inr (hbase hold)
  | informative => exact .inr (hbase hother)

theorem storedAll_sound {old : Option Stored} (h : ∀ kept, old = some kept → kept.Sound) (source : Atom)
    (authority : Authority) (entities : List Entity) :
    ∀ kept, storedAll source authority old entities = some kept → kept.Sound := by
  induction entities generalizing old with
  | nil => exact h
  | cons entity rest ih =>
    refine ih (fun kept hkept => ?_)
    rw [← Option.some.inj hkept]
    exact stored_sound h entity source authority

/-- Dropping a source keeps an entity that others contribute to, unless the source was its last owner and
does not return. -/
theorem withoutSource_eq_some {source : Atom} {returning : Bool} {old kept : Stored} :
    withoutSource source returning old = some kept ↔
      (old.contributions.erase source).isEmpty = false ∧
      (source ∈ old.owners → (old.owners.erase source).isEmpty = true → returning = true) ∧
      kept = ⟨old.attributes, old.contributions.erase source, old.owners.erase source⟩ := by
  have hguard : ((old.contributions.erase source).isEmpty ||
      (old.owners.contains source && (old.owners.erase source).isEmpty && !returning)) = false ↔
      (old.contributions.erase source).isEmpty = false ∧
      (source ∈ old.owners → (old.owners.erase source).isEmpty = true → returning = true) := by
    rw [Std.ExtTreeSet.mem_iff_contains]
    cases (old.contributions.erase source).isEmpty <;> cases old.owners.contains source <;>
      cases (old.owners.erase source).isEmpty <;> cases returning <;> simp
  rw [← and_assoc, ← hguard]
  simp only [withoutSource]
  split
  · rename_i h
    simp [h]
  · rename_i h
    simp only [Bool.not_eq_true] at h
    simp only [h, true_and, Option.some.injEq]
    exact eq_comm

theorem withoutSource_sound {source : Atom} {returning : Bool} {old kept : Stored} (hold : old.Sound)
    (h : withoutSource source returning old = some kept) : kept.Sound := by
  obtain ⟨hmany, -, rfl⟩ := withoutSource_eq_some.1 h
  refine ⟨Contributions.exists_mem_of_isEmpty hmany, fun other hother => ?_⟩
  obtain ⟨hne, hmem⟩ := (AtomSet.mem_erase _ _ _).1 hother
  exact (Table.mem_erase _ _ _).2 ⟨hne, hold.owned other hmem⟩

theorem withoutSource_of_not_mem {source : Atom} {old : Stored} (hold : old.Sound)
    (h : source ∉ old.contributions) (returning : Bool) :
    withoutSource source returning old = some old := by
  have howner : source ∉ old.owners := fun hmem => h (hold.owned source hmem)
  obtain ⟨other, hother⟩ := hold.contributed
  refine withoutSource_eq_some.2 ⟨?_, fun howned => absurd howned howner, ?_⟩
  · rw [Table.erase_of_not_mem h]
    exact Contributions.isEmpty_eq_false hother
  · rw [Table.erase_of_not_mem h, AtomSet.erase_of_not_mem howner]

theorem withoutSource_withoutSource (source : Atom) (returning : Bool) {old : Option Stored}
    (h : ∀ kept, old = some kept → kept.Sound) :
    (old.bind (withoutSource source returning)).bind (withoutSource source returning) =
      old.bind (withoutSource source returning) := by
  cases hdropped : old.bind (withoutSource source returning) with
  | none => rfl
  | some kept =>
    obtain ⟨before, hbefore, hkept⟩ := Option.bind_eq_some_iff.1 hdropped
    have hgone : source ∉ kept.contributions := by
      obtain ⟨-, -, rfl⟩ := withoutSource_eq_some.1 hkept
      exact fun hmem => by simpa using ((Table.mem_erase _ _ _).1 hmem).1
    exact withoutSource_of_not_mem (withoutSource_sound (h before hbefore) hkept) hgone returning

/-- What holds of every partition: all that it keeps is sound, and the index lists every id under each
source that contributes to it. It may list more. -/
structure Sound (part : Partition) : Prop where
  kept : ∀ (id : Atom) kept, part.table[id]? = some kept → kept.Sound
  indexed : ∀ (id : Atom) kept source, part.table[id]? = some kept → source ∈ kept.contributions →
    id ∈ part.bySource.getD source ∅

theorem empty_sound : empty.Sound :=
  ⟨fun id kept h => by simp [empty] at h, fun id kept source h => by simp [empty] at h⟩

theorem getElem?_write (part : Partition) (source : Atom) (authority : Authority) (entity : Entity)
    (id : Atom) :
    (part.write source authority entity).table[id]? =
      if entity.id == id then some (stored part.table[id]? entity source authority) else part.table[id]? := by
  rw [write, Table.getElem?_put]
  split
  · rename_i h
    rw [Table.getElem?_congr part.table h]
  · rfl

theorem write_sound {part : Partition} (h : part.Sound) (source : Atom) (authority : Authority)
    (entity : Entity) : (part.write source authority entity).Sound := by
  have hindex (other id : Atom) : id ∈ (part.write source authority entity).bySource.getD other ∅ ↔
      ((source == other) = true ∧ (entity.id == id) = true) ∨ id ∈ part.bySource.getD other ∅ := by
    rw [write, Std.ExtTreeMap.getD_eq_getD_getElem?, Table.getElem?_put]
    by_cases hs : (source == other) = true
    · rw [if_pos hs, Option.getD_some, AtomSet.mem_insert,
        Std.ExtTreeMap.getD_congr ((Atom.compare_eq_iff _ _).2 hs)]
      simp [hs]
    · rw [if_neg hs, ← Std.ExtTreeMap.getD_eq_getD_getElem?]
      simp [hs]
  refine ⟨fun id kept hkept => ?_, fun id kept other hkept hother => ?_⟩
  · rw [getElem?_write] at hkept
    split at hkept
    · rw [← Option.some.inj hkept]
      exact stored_sound (h.kept id) entity source authority
    · exact h.kept id kept hkept
  · rw [hindex]
    rw [getElem?_write] at hkept
    split at hkept
    · rename_i hid
      rw [← Option.some.inj hkept] at hother
      rcases (Contributions.mem_contribute _ _ _ _).1 hother with hsame | hold
      · exact .inl ⟨hsame, hid⟩
      · cases hbefore : part.table[id]? with
        | none =>
          rw [hbefore] at hold
          exact absurd hold Std.ExtTreeMap.not_mem_empty
        | some before =>
          rw [hbefore] at hold
          exact .inr (h.indexed id before other hbefore hold)
    · exact .inr (h.indexed id kept other hkept hother)

theorem getElem?_upsert (part : Partition) (source : Atom) (authority : Authority)
    (entities : List Entity) (id : Atom) :
    (part.upsert source authority entities).table[id]? =
      storedAll source authority part.table[id]? (withId id entities) := by
  induction entities generalizing part with
  | nil => rfl
  | cons entity rest ih =>
    change ((part.write source authority entity).upsert source authority rest).table[id]? = _
    rw [ih, getElem?_write, withId_cons]
    split <;> rfl

theorem upsert_sound {part : Partition} (h : part.Sound) (source : Atom) (authority : Authority)
    (entities : List Entity) : (part.upsert source authority entities).Sound := by
  induction entities generalizing part with
  | nil => exact h
  | cons entity rest ih => exact ih (write_sound h source authority entity)

theorem getElem?_dropOne (source : Atom) (returning : AtomSet) (table : Table Stored) (id other : Atom) :
    (dropOne source returning table id)[other]? =
      if id == other then table[other]?.bind (withoutSource source (returning.contains other))
      else table[other]? := by
  by_cases h : (id == other) = true
  · have hret : returning.contains id = returning.contains other :=
      Std.ExtTreeSet.contains_congr ((Atom.compare_eq_iff _ _).2 h)
    rw [if_pos h, dropOne, Table.getElem?_congr table h, hret]
    cases hold : table[other]? with
    | none => exact hold
    | some old =>
      cases hkept : withoutSource source (returning.contains other) old with
      | none => simp [Table.getElem?_erase, h, hkept]
      | some kept => simp [Table.getElem?_put, h, hkept]
  · rw [if_neg h, dropOne]
    split
    · rfl
    · split
      · rw [Table.getElem?_erase, if_neg h]
      · rw [Table.getElem?_put, if_neg h]

theorem getElem?_foldl_dropOne (source : Atom) (returning : AtomSet) (ids : List Atom) {table : Table Stored}
    {id : Atom} (h : ∀ kept, table[id]? = some kept → kept.Sound) :
    (ids.foldl (dropOne source returning) table)[id]? =
      if ids.contains id then table[id]?.bind (withoutSource source (returning.contains id))
      else table[id]? := by
  induction ids generalizing table with
  | nil => rfl
  | cons first rest ih =>
    have hfirst := getElem?_dropOne source returning table first id
    rw [List.foldl_cons, List.contains_cons]
    -- an id that comes again finds the source gone, and a second drop changes nothing
    by_cases hid : (first == id) = true
    · rw [if_pos hid] at hfirst
      rw [ih (fun kept hkept => ?_), hfirst, withoutSource_withoutSource source _ h, BEq.symm hid]
      · simp
      · rw [hfirst, Option.bind_eq_some_iff] at hkept
        obtain ⟨before, hbefore, hkept⟩ := hkept
        exact withoutSource_sound (h before hbefore) hkept
    · rw [if_neg hid] at hfirst
      have hid' : (id == first) = false := by
        rw [BEq.comm]
        simpa using hid
      rw [ih (fun kept hkept => h kept (hfirst ▸ hkept)), hfirst, hid', Bool.false_or]

theorem getElem?_dropSource {part : Partition} (h : part.Sound) (source : Atom) (returning : AtomSet)
    (id : Atom) :
    (part.dropSource source returning).table[id]? =
      part.table[id]?.bind (withoutSource source (returning.contains id)) := by
  rw [dropSource, getElem?_foldl_dropOne source returning _ (h.kept id), Std.ExtTreeSet.contains_toList]
  split
  · rfl
  -- where the index does not list an id the source contributes nothing to it
  · rename_i hlisted
    cases hkept : part.table[id]? with
    | none => rfl
    | some kept =>
      have hnone : source ∉ kept.contributions := fun hmem =>
        hlisted (Std.ExtTreeSet.contains_iff_mem.2 (h.indexed id kept source hkept hmem))
      exact (withoutSource_of_not_mem (h.kept id kept hkept) hnone _).symm

theorem dropSource_sound {part : Partition} (h : part.Sound) (source : Atom) (returning : AtomSet) :
    (part.dropSource source returning).Sound := by
  refine ⟨fun id kept hkept => ?_, fun id kept other hkept hother => ?_⟩ <;>
    rw [getElem?_dropSource h, Option.bind_eq_some_iff] at hkept <;>
    obtain ⟨before, hbefore, hkept⟩ := hkept
  · exact withoutSource_sound (h.kept id before hbefore) hkept
  · obtain ⟨-, -, rfl⟩ := withoutSource_eq_some.1 hkept
    obtain ⟨hne, hmem⟩ := (Table.mem_erase _ _ _).1 hother
    have hlisted := h.indexed id before other hbefore hmem
    rw [Std.ExtTreeMap.getD_eq_getD_getElem?] at hlisted ⊢
    rw [dropSource, Table.getElem?_erase, hne]
    exact hlisted

theorem contains_ofAtoms_ids (entities : List Entity) (id : Atom) :
    (AtomSet.ofAtoms (entities.map EntityOf.id)).contains id = !(withId id entities).isEmpty := by
  rw [Bool.eq_iff_iff, Std.ExtTreeSet.contains_iff_mem, AtomSet.mem_ofAtoms, Bool.not_eq_true',
    List.isEmpty_eq_false_iff_exists_mem]
  constructor
  · rintro ⟨_, hmem, hid⟩
    obtain ⟨entity, hentity, rfl⟩ := List.mem_map.1 hmem
    exact ⟨entity, List.mem_filter.2 ⟨hentity, hid⟩⟩
  · rintro ⟨entity, hentity⟩
    obtain ⟨hmem, hid⟩ := List.mem_filter.1 hentity
    exact ⟨entity.id, List.mem_map_of_mem hmem, hid⟩

theorem getElem?_replaceSource {part : Partition} (h : part.Sound) (source : Atom) (authority : Authority)
    (entities : List Entity) (id : Atom) :
    (part.replaceSource source authority entities).table[id]? =
      replaced source authority part.table[id]? (withId id entities) := by
  rw [replaceSource, getElem?_upsert, getElem?_dropSource h, contains_ofAtoms_ids, replaced]

theorem replaceSource_sound {part : Partition} (h : part.Sound) (source : Atom) (authority : Authority)
    (entities : List Entity) : (part.replaceSource source authority entities).Sound :=
  upsert_sound (dropSource_sound h source _) source authority entities

theorem getElem?_evictOne (part : Partition) (id other : Atom) :
    (part.evictOne id).table[other]? = if id == other then none else part.table[other]? := by
  rw [evictOne]
  split
  · rw [Table.getElem?_erase]
  · rename_i habsent
    split
    · rename_i hid
      rw [← Table.getElem?_congr part.table hid]
      exact Std.ExtTreeMap.getElem?_eq_none habsent
    · rfl

theorem evictOne_sound {part : Partition} (h : part.Sound) (id : Atom) : (part.evictOne id).Sound := by
  refine ⟨fun other kept hkept => ?_, fun other kept source hkept hsource => ?_⟩
  · rw [getElem?_evictOne] at hkept
    split at hkept
    · cases hkept
    · exact h.kept other kept hkept
  · rw [getElem?_evictOne] at hkept
    split at hkept
    · cases hkept
    · rename_i hid
      have hlisted := h.indexed other kept source hkept hsource
      rw [evictOne]
      split
      · rw [Std.ExtTreeMap.getD_eq_getD_getElem?] at hlisted ⊢
        rw [Table.getElem?_map]
        cases hids : part.bySource[source]? with
        | none =>
          rw [hids] at hlisted
          exact absurd hlisted Std.ExtTreeSet.not_mem_empty
        | some ids =>
          rw [hids] at hlisted
          exact (AtomSet.mem_erase ids id other).2 ⟨by simpa using hid, hlisted⟩
      · exact hlisted

theorem getElem?_evict (part : Partition) (ids : List Atom) (id : Atom) :
    (part.evict ids).table[id]? = if ids.contains id then none else part.table[id]? := by
  induction ids generalizing part with
  | nil => rfl
  | cons first rest ih =>
    change ((part.evictOne first).evict rest).table[id]? = _
    rw [ih, getElem?_evictOne, List.contains_cons, BEq.comm]
    cases (id == first) <;> simp

theorem evict_sound {part : Partition} (h : part.Sound) (ids : List Atom) : (part.evict ids).Sound := by
  induction ids generalizing part with
  | nil => exact h
  | cons first rest ih => exact ih (evictOne_sound h first)

end Partition

end FleetCache
