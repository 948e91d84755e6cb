import FleetCache.Proofs.RefreshConvergence
/-!
The index by source. It lists every id that a source contributes to, but may list more: when an owner drops
an entity, the entity goes while its entries under other sources stay. What counts is that nothing is ever
missed, so dropping a source through the index is the same as looking at every stored entity; and that an
eviction leaves no entry behind, so an evicted id starts afresh.
-/
set_option autoImplicit false

namespace FleetCache

open FleetCache.Partition (withId)

def Table.KeepsForms {α : Type} (table other : Table α) : Prop :=
  ∀ key form, other.getKey? key = some form → table.getKey? key = some form

namespace Table.KeepsForms

variable {α : Type} {table other : Table α}

protected theorem refl (table : Table α) : table.KeepsForms table :=
  fun _ _ h => h

protected theorem trans {last : Table α} (h : table.KeepsForms other) (h' : other.KeepsForms last) :
    table.KeepsForms last :=
  fun key form hform => h key form (h' key form hform)

protected theorem erase (h : table.KeepsForms other) (name : Atom) : table.KeepsForms (other.erase name) := by
  intro key form hform
  rw [Table.getKey?_erase] at hform
  split at hform
  · cases hform
  · exact h key form hform

theorem put_of_mem (h : table.KeepsForms other) {name : Atom} (hmem : name ∈ other) (a : α) :
    table.KeepsForms (other.put name a) := by
  intro key form hform
  rw [Table.getKey?_put] at hform
  split at hform
  · rename_i hkey
    have hname : other.getKey? name = some form := by
      rw [Std.ExtTreeMap.getKey?_eq_some_getKeyD hmem, hform]
    rw [← Std.ExtTreeMap.getKey?_congr ((Atom.compare_eq_iff _ _).2 hkey)]
    exact h name form hname
  · exact h key form hform

theorem eq_of_getElem? {last : Table α} (h : table.KeepsForms other) (h' : table.KeepsForms last)
    (hsame : ∀ key : Atom, other[key]? = last[key]?) : other = last := by
  refine Table.eq_of_getKey?_of_getElem? (fun key => ?_) hsame
  have hmem : key ∈ other ↔ key ∈ last := by
    rw [Table.mem_iff, Table.mem_iff, hsame]
  by_cases hkey : key ∈ other
  · have hform := h key _ (Std.ExtTreeMap.getKey?_eq_some_getKey hkey)
    have hform' := h' key _ (Std.ExtTreeMap.getKey?_eq_some_getKey (hmem.1 hkey))
    rw [Std.ExtTreeMap.getKey?_eq_some_getKey hkey, Std.ExtTreeMap.getKey?_eq_some_getKey (hmem.1 hkey),
      ← hform, ← hform']
  · rw [Std.ExtTreeMap.getKey?_eq_none hkey, Std.ExtTreeMap.getKey?_eq_none (fun hlast => hkey (hmem.2 hlast))]

end Table.KeepsForms

namespace Partition

def listed (part : Partition) (source : Atom) : AtomSet :=
  part.bySource.getD source ∅

def dropByScan (part : Partition) (source : Atom) (returning : AtomSet) : Partition :=
  let contributedTo := part.table.keys.filter (fun id =>
    (Stored.contributionsOf part.table[id]?).contains source)
  ⟨contributedTo.foldl (dropOne source returning) part.table, part.bySource.erase source⟩

def replaceByScan (part : Partition) (source : Atom) (authority : Authority) (entities : List Entity) :
    Partition :=
  (part.dropByScan source (AtomSet.ofAtoms (entities.map EntityOf.id))).upsert source authority entities

theorem keepsForms_dropOne (source : Atom) (returning : AtomSet) (table : Table Stored) (id : Atom) :
    table.KeepsForms (dropOne source returning table id) := by
  rw [dropOne]
  split
  · exact .refl table
  · rename_i old hold
    split
    · exact (Table.KeepsForms.refl table).erase id
    · exact (Table.KeepsForms.refl table).put_of_mem ((Table.mem_iff table id).2 ⟨old, hold⟩) _

theorem keepsForms_foldl_dropOne (source : Atom) (returning : AtomSet) (ids : List Atom)
    (table : Table Stored) : table.KeepsForms (ids.foldl (dropOne source returning) table) := by
  induction ids generalizing table with
  | nil => exact .refl table
  | cons id rest ih => exact (keepsForms_dropOne source returning table id).trans (ih _)

theorem getElem?_dropByScan {part : Partition} (h : part.Sound) (source : Atom) (returning : AtomSet)
    (id : Atom) :
    (part.dropByScan source returning).table[id]? =
      part.table[id]?.bind (withoutSource source (returning.contains id)) := by
  rw [dropByScan, getElem?_foldl_dropOne source returning _ (h.kept id)]
  split
  · rfl
  -- what the scan passes over is not stored, or the source contributes nothing to it
  · rename_i hpassed
    cases hkept : part.table[id]? with
    | none => rfl
    | some kept =>
      refine (withoutSource_of_not_mem (h.kept id kept hkept) (fun hmem => hpassed ?_) _).symm
      have hkey : part.table.keys.contains id = true := by
        rw [Std.ExtTreeMap.contains_keys, Std.ExtTreeMap.contains_iff_mem]
        exact (Table.mem_iff part.table id).2 ⟨kept, hkept⟩
      obtain ⟨key, hlisted, hid⟩ := List.contains_iff_exists_mem_beq.1 hkey
      refine List.contains_iff_exists_mem_beq.2 ⟨key, List.mem_filter.2 ⟨hlisted, ?_⟩, hid⟩
      rw [Table.getElem?_congr part.table (BEq.symm hid), hkept]
      exact Std.ExtTreeMap.contains_iff_mem.2 hmem

theorem dropSource_eq_dropByScan {part : Partition} (h : part.Sound) (source : Atom) (returning : AtomSet) :
    part.dropSource source returning = part.dropByScan source returning := by
  have htable : (part.dropSource source returning).table = (part.dropByScan source returning).table := by
    refine Table.KeepsForms.eq_of_getElem? (keepsForms_foldl_dropOne source returning _ part.table)
      (keepsForms_foldl_dropOne source returning _ part.table) (fun id => ?_)
    rw [getElem?_dropSource h, getElem?_dropByScan h]
  exact congrArg (fun table => Partition.mk table (part.bySource.erase source)) htable

theorem replaceSource_eq_replaceByScan {part : Partition} (h : part.Sound) (source : Atom)
    (authority : Authority) (entities : List Entity) :
    part.replaceSource source authority entities = part.replaceByScan source authority entities := by
  rw [replaceSource, replaceByScan, dropSource_eq_dropByScan h]

theorem getElem?_replaceSource_of_last {part : Partition} (h : part.Sound) {source id : Atom}
    (hlast : ∀ other ∈ Stored.contributionsOf part.table[id]?, (source == other) = true)
    (authority : Authority) {entities : List Entity} (hsilent : withId id entities = []) :
    (part.replaceSource source authority entities).table[id]? = none := by
  have hafter := getElem?_replaceSource h source authority entities id
  cases hkept : (part.replaceSource source authority entities).table[id]? with
  | none => rfl
  | some kept =>
    rw [hkept, hsilent] at hafter
    -- whoever contributes to what is left is another source
    obtain ⟨other, hother⟩ := ((replaceSource_sound h source authority entities).kept id kept hkept).contributed
    have hleft : other ∈ Stored.contributionsOf (part.table[id]?.bind (withoutSource source false)) :=
      congrArg Stored.contributionsOf hafter ▸ hother
    obtain ⟨hne, hbefore⟩ := Stored.mem_contributionsOf_withoutSource hleft
    rw [hlast other hbefore] at hne
    cases hne

theorem mem_listed_write (part : Partition) (source : Atom) (authority : Authority) (entity : Entity)
    (other id : Atom) : id ∈ (part.write source authority entity).listed other ↔
      ((source == other) = true ∧ (entity.id == id) = true) ∨ id ∈ part.listed other := by
  rw [listed, write, Std.ExtTreeMap.getD_eq_getD_getElem?, Table.getElem?_put]
  cases hs : source == other with
  | true =>
    rw [if_pos rfl, Option.getD_some, AtomSet.mem_insert,
      Std.ExtTreeMap.getD_congr ((Atom.compare_eq_iff _ _).2 hs)]
    simp [listed]
  | false => simp [listed, Std.ExtTreeMap.getD_eq_getD_getElem?]

theorem mem_listed_upsert (part : Partition) (source : Atom) (authority : Authority) (entities : List Entity)
    (other id : Atom) : id ∈ (part.upsert source authority entities).listed other ↔
      ((source == other) = true ∧ withId id entities ≠ []) ∨ id ∈ part.listed other := by
  induction entities generalizing part with
  | nil => simp [upsert, withId]
  | cons entity rest ih =>
    change id ∈ ((part.write source authority entity).upsert source authority rest).listed other ↔ _
    rw [ih, mem_listed_write, withId_cons]
    cases hid : entity.id == id with
    | true =>
      simp only [and_true, if_true, ne_eq, reduceCtorEq, not_false_eq_true]
      tauto
    | false => simp

theorem mem_listed_dropSource (part : Partition) (source : Atom) (returning : AtomSet) (other id : Atom) :
    id ∈ (part.dropSource source returning).listed other ↔
      (source == other) = false ∧ id ∈ part.listed other := by
  rw [listed, dropSource, Std.ExtTreeMap.getD_eq_getD_getElem?, Table.getElem?_erase]
  cases hs : source == other with
  | true => simp
  | false => simp [listed, Std.ExtTreeMap.getD_eq_getD_getElem?]

theorem mem_listed_evictOne (part : Partition) (id other source : Atom) :
    other ∈ (part.evictOne id).listed source ↔
      (id ∈ part.table → (id == other) = false) ∧ other ∈ part.listed source := by
  rw [evictOne, ← Std.ExtTreeMap.contains_iff_mem]
  split
  · rename_i hstored
    rw [listed, Std.ExtTreeMap.getD_eq_getD_getElem?, Table.getElem?_map, listed,
      Std.ExtTreeMap.getD_eq_getD_getElem?]
    cases part.bySource[source]? with
    | none => simp
    | some ids => exact (AtomSet.mem_erase ids id other).trans (by simp [hstored])
  · rename_i habsent
    simp [habsent]

theorem mem_listed_of_evict {part : Partition} {ids : List Atom} {id source : Atom}
    (h : id ∈ (part.evict ids).listed source) : id ∈ part.listed source := by
  induction ids generalizing part with
  | nil => exact h
  | cons first rest ih => exact ((mem_listed_evictOne part first id source).1 (ih h)).2

theorem not_mem_listed_evict {part : Partition} {ids : List Atom} {id : Atom} (hstored : id ∈ part.table)
    (hevicted : ids.contains id = true) (source : Atom) : id ∉ (part.evict ids).listed source := by
  induction ids generalizing part with
  | nil => cases hevicted
  | cons first rest ih =>
    change id ∉ ((part.evictOne first).evict rest).listed source
    cases hid : first == id with
    | true =>
      intro hlisted
      have hne := ((mem_listed_evictOne part first id source).1 (mem_listed_of_evict hlisted)).1
        ((Table.mem_congr part.table hid).2 hstored)
      rw [hid] at hne
      cases hne
    | false =>
      refine ih ?_ ?_
      · rw [Table.mem_iff] at hstored ⊢
        rw [getElem?_evictOne, hid]
        exact hstored
      · rw [List.contains_cons, BEq.comm, hid] at hevicted
        exact hevicted

/-- A source has something to do with an id: it contributes to what is stored there, owns it, or is listed
for it in the index. -/
def Remembers (part : Partition) (source id : Atom) : Prop :=
  source ∈ Stored.contributionsOf part.table[id]? ∨ source ∈ Stored.ownersOf part.table[id]? ∨
    id ∈ part.listed source

theorem Sound.listed_of_remembers {part : Partition} (h : part.Sound) {source id : Atom}
    (hsource : part.Remembers source id) : id ∈ part.listed source := by
  cases hkept : part.table[id]? with
  | none =>
    rw [Remembers, hkept] at hsource
    rcases hsource with hnone | hnone | hlisted
    · exact absurd hnone Std.ExtTreeMap.not_mem_empty
    · exact absurd hnone Std.ExtTreeSet.not_mem_empty
    · exact hlisted
  | some kept =>
    rw [Remembers, hkept] at hsource
    rcases hsource with hcontributes | howns | hlisted
    · exact h.indexed id kept source hkept hcontributes
    · exact h.indexed id kept source hkept ((h.kept id kept hkept).owned source howns)
    · exact hlisted

end Partition

namespace Operation

def WritesFor (source id : Atom) : Operation → Prop
  | upsert _ entities writer _ => (writer == source) = true ∧ withId id entities ≠ []
  | replaceSource _ writer entities _ => (writer == source) = true ∧ withId id entities ≠ []
  | evict _ _ => False

theorem mem_listed_onPart (op : Operation) {part : Partition} {source id : Atom}
    (h : id ∈ (op.onPart part).listed source) : op.WritesFor source id ∨ id ∈ part.listed source := by
  cases op with
  | upsert ns entities writer authority => exact (Partition.mem_listed_upsert _ _ _ _ _ _).1 h
  | replaceSource ns writer entities authority =>
    exact ((Partition.mem_listed_upsert _ _ _ _ _ _).1 h).imp_right
      (fun hdropped => ((Partition.mem_listed_dropSource _ _ _ _ _).1 hdropped).2)
  | evict ns ids => exact .inr (Partition.mem_listed_of_evict h)

end Operation

namespace Memory

theorem not_mem_listed_applyAll {store : Memory} {ns source id : Atom} (h : id ∉ (store.part ns).listed source)
    {later : List Operation} (hlater : ∀ op ∈ later, (op.ns == ns) = true → ¬ op.WritesFor source id) :
    id ∉ ((store.applyAll later).part ns).listed source := by
  induction later generalizing store with
  | nil => exact h
  | cons op rest ih =>
    obtain ⟨hop, hrest⟩ := List.forall_mem_cons.1 hlater
    refine ih (fun hlisted => ?_) hrest
    rw [Operation.part_apply] at hlisted
    split at hlisted
    · rename_i hns
      exact (op.mem_listed_onPart hlisted).elim (hop hns) h
    · exact h hlisted

theorem writesFor_of_remembers {store : Memory} (h : store.Sound) {ns source id : Atom}
    (habsent : id ∉ (store.part ns).listed source) {op : Operation}
    (hafter : ((op.apply store).part ns).Remembers source id) : op.WritesFor source id := by
  have hlisted := (op.apply_sound h ns).listed_of_remembers hafter
  rw [Operation.part_apply] at hlisted
  split at hlisted
  · exact (op.mem_listed_onPart hlisted).resolve_right habsent
  · exact absurd hlisted habsent

end Memory

/-- In every cache that operations lead to, each stored entity has a contributor, its owners contribute to it,
and the index lists it under every contributor. So a replacement that consults only the index does what one
that looks at every stored entity does, an entity goes with its last contributor, and an id that was evicted
has nothing to do with any source until it is written again, and then only with the one that writes it. -/
theorem index_misses_no_contributor (history : List Operation) (ns : Atom) :
    let store := Memory.after history
    (∀ id kept, store.kept ns id = some kept →
      (∃ source, source ∈ kept.contributions) ∧ (∀ source ∈ kept.owners, source ∈ kept.contributions) ∧
        ∀ source ∈ kept.contributions, id ∈ (store.part ns).listed source) ∧
    (∀ source authority entities, store.replaceSource ns source entities authority =
      store.setPart ns ((store.part ns).replaceByScan source authority entities)) ∧
    (∀ source authority entities id,
      (∀ other ∈ Stored.contributionsOf (store.kept ns id), (source == other) = true) →
      withId id entities = [] → (store.replaceSource ns source entities authority).get ns id = none) ∧
    ∀ ids id later, (store.get ns id).isSome = true → ids.contains id = true →
      (∀ op ∈ later, (op.ns == ns) = true → ∀ source, ¬ op.WritesFor source id) →
      let before := ((Operation.evict ns ids).apply store).applyAll later
      before.get ns id = none ∧ (∀ source, ¬ (before.part ns).Remembers source id) ∧
        ∀ (op : Operation) source, ((op.apply before).part ns).Remembers source id → op.WritesFor source id := by
  intro store
  have hsound : (store.part ns).Sound := Memory.after_sound history ns
  refine ⟨fun id kept hkept => ⟨(hsound.kept id kept hkept).contributed, (hsound.kept id kept hkept).owned,
    fun source => hsound.indexed id kept source hkept⟩, fun source authority entities => ?_,
    fun source authority entities id hlast hsilent => ?_, fun ids id later hstored hevicted hlater => ?_⟩
  · rw [Memory.replaceSource, Partition.replaceSource_eq_replaceByScan hsound]
  · rw [Memory.get_eq, Memory.kept, Memory.replaceSource, Memory.part_setPart, if_pos BEq.rfl,
      Partition.getElem?_replaceSource_of_last hsound hlast authority hsilent]
    rfl
  · intro before
    have hbefore : before.Sound :=
      Memory.applyAll_sound (Operation.apply_sound _ (Memory.after_sound history)) later
    have hunlisted (source : Atom) : id ∉ (before.part ns).listed source := by
      refine Memory.not_mem_listed_applyAll ?_ (fun op hop hns => hlater op hop hns source)
      rw [Operation.part_apply, Operation.ns, if_pos BEq.rfl]
      refine Partition.not_mem_listed_evict ?_ hevicted source
      rwa [Memory.get_eq, Option.isSome_map, Memory.kept, ← Std.ExtTreeMap.mem_iff_isSome_getElem?] at hstored
    refine ⟨?_, fun source hsource => hunlisted source ((hbefore ns).listed_of_remembers hsource),
      fun op source => Memory.writesFor_of_remembers hbefore (hunlisted source)⟩
    cases hkept : before.kept ns id with
    | none => rw [Memory.get_eq, hkept, Option.map_none]
    | some kept =>
      obtain ⟨source, hsource⟩ := (hbefore.kept hkept).contributed
      exact absurd ((hbefore ns).indexed id kept source hkept hsource) (hunlisted source)

/-- An image that two sources describe is evicted, dropped once more by its owner, and then written by a
third source. -/
theorem index_misses_no_contributor_evicted :
    let image : Entity := ⟨"image", "ami-1", [("name", "web")], ∅⟩
    let store := Memory.after [.upsert "image" [image] "hints" .informative,
      .replaceSource "image" "owner" [image] .authoritative]
    let later : List Operation := [.replaceSource "image" "owner" [] .authoritative]
    let before := ((Operation.evict "image" ["ami-1"]).apply store).applyAll later
    (store.get "image" "ami-1").isSome = true ∧
      (∀ op ∈ later, (op.ns == "image") = true → ∀ source, ¬ op.WritesFor source "ami-1") ∧
      ∀ source, (((Operation.upsert "image" [image] "finder" .informative).apply before).part
        "image").Remembers source "ami-1" → ("finder" == source) = true := by
  intro image store later before
  have hstored : (store.get "image" "ami-1").isSome = true := by decide +kernel
  have hlater : ∀ op ∈ later, (op.ns == "image") = true → ∀ source, ¬ op.WritesFor source "ami-1" :=
    List.forall_mem_singleton.2 (fun _ _ hwrites => hwrites.2 rfl)
  refine ⟨hstored, hlater, fun source hsource => ?_⟩
  obtain ⟨-, -, -, hevicted⟩ := index_misses_no_contributor
    [.upsert "image" [image] "hints" .informative, .replaceSource "image" "owner" [image] .authoritative] "image"
  exact ((hevicted ["ami-1"] "ami-1" later hstored (by decide) hlater).2.2 _ source hsource).1

/-- The index may list more than there is: a dropped owner takes its entity along, not the entries of others. -/
example :
    let image : Entity := ⟨"image", "ami-1", [("name", "web")], ∅⟩
    let store := Memory.after [.upsert "image" [image] "hints" .informative,
      .replaceSource "image" "owner" [image] .authoritative, .replaceSource "image" "owner" [] .authoritative]
    (store.get "image" "ami-1").isNone = true ∧ ((store.part "image").listed "hints").contains "ami-1" = true := by
  decide +kernel

end FleetCache
