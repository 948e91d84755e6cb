import Mathlib.Data.List.Induction
import Mathlib.Data.List.Pairwise
import FleetCache.Proofs.AttributeMerges
import FleetCache.Proofs.Histories
/-!
Refresh cycles done again. A cycle is a list of full replacements by different sources. The first round may
leave an entity without what an early source reported, when a later one drops it and writes it anew; a second
round puts it back, and from then on further rounds change nothing.
-/
set_option autoImplicit false

namespace FleetCache

open FleetCache.Partition (withId)

theorem Table.put_put {α : Type} (table : Table α) (name : Atom) (a b : α) :
    (table.put name a).put name b = table.put name b := by
  refine Table.eq_of_getKey?_of_getElem? (fun key => ?_) (fun key => ?_)
  · have hform : (table.put name a).getKeyD name name = table.getKeyD name name := by
      rw [Std.ExtTreeMap.getKeyD_eq_getD_getKey?, Table.getKey?_put, if_pos BEq.rfl, Option.getD_some]
    rw [Table.getKey?_put, Table.getKey?_put, Table.getKey?_put, hform]
    split <;> rfl
  · rw [Table.getElem?_put, Table.getElem?_put, Table.getElem?_put]
    split <;> rfl

theorem AtomSet.insert_of_mem {set : AtomSet} {a : Atom} (h : a ∈ set) : set.insert a = set := by
  refine Std.ExtTreeSet.ext_get? (fun b => ?_)
  rw [AtomSet.get?_insert, if_neg (fun hnew => hnew.2 h)]

structure Replacement where
  source : Atom
  entities : List Entity
  authority : Authority

namespace Stored

def attributesOf (old : Option Stored) : Option Attributes :=
  old.map Stored.attributes

theorem ext_of_contributions_owners_attributes {old other : Option Stored}
    (hattributes : attributesOf old = attributesOf other)
    (hcontributions : contributionsOf old = contributionsOf other) (howners : ownersOf old = ownersOf other) :
    old = other := by
  cases old with
  | none =>
    cases other with
    | none => rfl
    | some kept => cases hattributes
  | some kept =>
    cases other with
    | none => cases hattributes
    | some kept' =>
      obtain ⟨attributes, contributions, owners⟩ := kept
      obtain ⟨attributes', contributions', owners'⟩ := kept'
      obtain rfl : attributes = attributes' := Option.some.inj hattributes
      obtain rfl : contributions = contributions' := hcontributions
      obtain rfl : owners = owners' := howners
      rfl

theorem mem_contributionsOf_withoutSource {old : Option Stored} {source other : Atom} {returning : Bool}
    (h : other ∈ contributionsOf (old.bind (Partition.withoutSource source returning))) :
    (source == other) = false ∧ other ∈ contributionsOf old := by
  cases hleft : old.bind (Partition.withoutSource source returning) with
  | none =>
    rw [hleft] at h
    exact absurd h Std.ExtTreeMap.not_mem_empty
  | some left =>
    obtain ⟨kept, rfl, hkept⟩ := Option.bind_eq_some_iff.1 hleft
    obtain ⟨-, -, rfl⟩ := Partition.withoutSource_eq_some.1 hkept
    rw [hleft] at h
    exact (Table.mem_erase _ _ _).1 h

/-- A source that returns leaves nothing behind only when it was the only contributor. -/
theorem withoutSource_returning (source : Atom) (kept : Stored) :
    Partition.withoutSource source true kept =
      if (kept.contributions.erase source).isEmpty then none
      else some ⟨kept.attributes, kept.contributions.erase source, kept.owners.erase source⟩ := by
  simp only [Partition.withoutSource, Bool.not_true, Bool.and_false, Bool.or_false]

theorem contributionsOf_returning (old : Option Stored) (source : Atom) :
    contributionsOf (old.bind (Partition.withoutSource source true)) = (contributionsOf old).erase source := by
  cases old with
  | none => exact (Table.erase_of_not_mem Std.ExtTreeMap.not_mem_empty).symm
  | some kept =>
    rw [Option.bind_some, withoutSource_returning]
    split
    · rename_i hempty
      exact (Std.ExtTreeMap.isEmpty_iff.1 hempty).symm
    · rfl

theorem ownersOf_returning {old : Option Stored} (h : ∀ kept, old = some kept → kept.Sound) (source : Atom) :
    ownersOf (old.bind (Partition.withoutSource source true)) = (ownersOf old).erase source := by
  cases old with
  | none => exact (AtomSet.erase_of_not_mem Std.ExtTreeSet.not_mem_empty).symm
  | some kept =>
    rw [Option.bind_some, withoutSource_returning]
    split
    · rename_i hempty
      refine (Std.ExtTreeSet.eq_empty_iff_forall_not_mem.2 (fun other hother => ?_)).symm
      obtain ⟨hne, hmem⟩ := (AtomSet.mem_erase _ _ _).1 hother
      have : other ∈ kept.contributions.erase source :=
        (Table.mem_erase _ _ _).2 ⟨hne, (h kept rfl).owned other hmem⟩
      rw [Std.ExtTreeMap.isEmpty_iff.1 hempty] at this
      exact Std.ExtTreeMap.not_mem_empty this
    · rfl

theorem contributionsOf_storedAll (old : Option Stored) (source : Atom) (authority : Authority)
    (entities : List Entity) :
    contributionsOf (Partition.storedAll source authority old entities) =
      entities.foldl (fun acc entity => acc.contribute source entity.relations) (contributionsOf old) := by
  induction entities generalizing old with
  | nil => rfl
  | cons entity rest ih =>
    change contributionsOf (Partition.storedAll source authority
      (some (Partition.stored old entity source authority)) rest) = _
    rw [ih, contributionsOf_stored, List.foldl_cons]

theorem mem_contributionsOf_storedAll (old : Option Stored) (source other : Atom) (authority : Authority)
    (entities : List Entity) :
    other ∈ contributionsOf (Partition.storedAll source authority old entities) ↔
      ((source == other) = true ∧ entities ≠ []) ∨ other ∈ contributionsOf old := by
  induction entities generalizing old with
  | nil => simp [Partition.storedAll]
  | cons entity rest ih =>
    change other ∈ contributionsOf (Partition.storedAll source authority
      (some (Partition.stored old entity source authority)) rest) ↔ _
    rw [ih, contributionsOf_stored, Contributions.mem_contribute]
    by_cases hs : (source == other) = true <;> simp [hs]

theorem ownersOf_stored (old : Option Stored) (entity : Entity) (source : Atom) (authority : Authority) :
    ownersOf (some (Partition.stored old entity source authority)) =
      match authority with
      | .authoritative => (ownersOf old).insert source
      | .informative => ownersOf old := by
  cases old <;> cases authority <;> rfl

theorem ownersOf_storedAll_of_mem {old : Option Stored} {source : Atom} (h : source ∈ ownersOf old)
    (authority : Authority) (entities : List Entity) :
    ownersOf (Partition.storedAll source authority old entities) = ownersOf old := by
  induction entities generalizing old with
  | nil => rfl
  | cons entity rest ih =>
    have hfirst : ownersOf (some (Partition.stored old entity source authority)) = ownersOf old := by
      rw [ownersOf_stored]
      cases authority with
      | authoritative => exact AtomSet.insert_of_mem h
      | informative => rfl
    exact (ih (hfirst ▸ h)).trans hfirst

theorem ownersOf_storedAll_informative (old : Option Stored) (source : Atom) (entities : List Entity) :
    ownersOf (Partition.storedAll source .informative old entities) = ownersOf old := by
  induction entities generalizing old with
  | nil => rfl
  | cons entity rest ih => exact (ih _).trans (ownersOf_stored old entity source .informative)

theorem ownersOf_storedAll (old : Option Stored) (source : Atom) (authority : Authority)
    {entities : List Entity} (h : entities ≠ []) :
    ownersOf (Partition.storedAll source authority old entities) =
      match authority with
      | .authoritative => (ownersOf old).insert source
      | .informative => ownersOf old := by
  cases authority with
  | informative => exact ownersOf_storedAll_informative old source entities
  | authoritative =>
    cases entities with
    | nil => exact absurd rfl h
    | cons entity rest =>
      have hfirst := ownersOf_stored old entity source .authoritative
      have hmem : source ∈ ownersOf (some (Partition.stored old entity source .authoritative)) := by
        rw [hfirst]
        exact (AtomSet.mem_insert _ _ _).2 (.inl BEq.rfl)
      exact (ownersOf_storedAll_of_mem hmem .authoritative rest).trans hfirst

theorem attributesOf_stored (old : Option Stored) (entity : Entity) (source : Atom) (authority : Authority) :
    attributesOf (some (Partition.stored old entity source authority)) =
      some (authority.settle ((attributesOf old).getD entity.attributes) entity.attributes) := by
  cases old <;> cases authority <;> rfl

theorem attributesOf_storedAll_some (kept : Stored) (source : Atom) (authority : Authority)
    (entities : List Entity) :
    attributesOf (Partition.storedAll source authority (some kept) entities) = some (Authority.settleAll
      kept.attributes (entities.map (fun entity => (authority, entity.attributes)))) := by
  induction entities generalizing kept with
  | nil => rfl
  | cons entity rest ih =>
    have hfirst := attributesOf_stored (some kept) entity source authority
    refine (ih _).trans ?_
    rw [Option.some.inj hfirst]
    rfl

/-- The attributes after a list of writes to an entity; one that was not there starts with those of the
first write. -/
theorem attributesOf_storedAll (old : Option Stored) (source : Atom) (authority : Authority)
    {entities : List Entity} (h : entities ≠ []) :
    attributesOf (Partition.storedAll source authority old entities) = some (Authority.settleAll
      ((attributesOf old).getD ((entities.head?.map EntityOf.attributes).getD []))
      (entities.map (fun entity => (authority, entity.attributes)))) := by
  cases entities with
  | nil => exact absurd rfl h
  | cons entity rest =>
    have hfirst := attributesOf_stored old entity source authority
    refine (attributesOf_storedAll_some _ source authority rest).trans ?_
    rw [Option.some.inj hfirst]
    rfl

end Stored

namespace Contributions

def edgesOfAll (entities : List Entity) : Relations → Relations :=
  fun edges => entities.foldl (fun acc entity => acc.union entity.relations) edges

theorem contribute_put (contributions : Contributions) (source : Atom) (edges more : Relations) :
    contribute (contributions.put source edges) source more = contributions.put source (edges.union more) := by
  rw [contribute, Std.ExtTreeMap.getD_eq_getD_getElem?, Table.getElem?_put, if_pos BEq.rfl, Option.getD_some,
    Table.put_put]

theorem foldl_contribute_put (contributions : Contributions) (source : Atom) (edges : Relations)
    (entities : List Entity) :
    entities.foldl (fun acc entity => contribute acc source entity.relations) (contributions.put source edges) =
      contributions.put source (edgesOfAll entities edges) := by
  induction entities generalizing edges with
  | nil => rfl
  | cons entity rest ih =>
    rw [List.foldl_cons, contribute_put, ih]
    rfl

end Contributions

namespace Replacement

variable (id : Atom)

def reported (r : Replacement) : List Entity :=
  withId id r.entities

def onKept (old : Option Stored) (r : Replacement) : Option Stored :=
  Partition.replaced r.source r.authority old (r.reported id)

def round (cycle : List Replacement) (old : Option Stored) : Option Stored :=
  cycle.foldl (onKept id) old

theorem onKept_sound {old : Option Stored} (h : ∀ kept, old = some kept → kept.Sound) (r : Replacement) :
    ∀ kept, r.onKept id old = some kept → kept.Sound := by
  refine Partition.storedAll_sound (fun kept hkept => ?_) r.source r.authority (r.reported id)
  obtain ⟨before, hbefore, hleft⟩ := Option.bind_eq_some_iff.1 hkept
  exact Partition.withoutSource_sound (h before hbefore) hleft

theorem round_sound {old : Option Stored} (h : ∀ kept, old = some kept → kept.Sound)
    (cycle : List Replacement) : ∀ kept, round id cycle old = some kept → kept.Sound := by
  induction cycle generalizing old with
  | nil => exact h
  | cons r rest ih => exact ih (onKept_sound id h r)

theorem onKept_of_reported {r : Replacement} (hr : r.reported id ≠ []) (old : Option Stored) :
    r.onKept id old = Partition.storedAll r.source r.authority
      (old.bind (Partition.withoutSource r.source true)) (r.reported id) := by
  rw [onKept, Partition.replaced, List.isEmpty_eq_false_iff.2 hr]
  rfl

theorem onKept_of_not_reported {r : Replacement} (hr : r.reported id = []) (old : Option Stored) :
    r.onKept id old = old.bind (Partition.withoutSource r.source false) := by
  rw [onKept, hr]
  rfl

theorem contributionsOf_onKept {r : Replacement} (hr : r.reported id ≠ []) (old : Option Stored) :
    Stored.contributionsOf (r.onKept id old) =
      Table.put ((Stored.contributionsOf old).erase r.source) r.source
        (Contributions.edgesOfAll (r.reported id) ∅) := by
  rw [onKept_of_reported id hr, Stored.contributionsOf_storedAll, Stored.contributionsOf_returning]
  cases hreported : r.reported id with
  | nil => exact absurd hreported hr
  | cons entity rest =>
    have hfirst : Contributions.contribute ((Stored.contributionsOf old).erase r.source) r.source
        entity.relations = Table.put ((Stored.contributionsOf old).erase r.source) r.source
          (Relations.union ∅ entity.relations) := by
      rw [Contributions.contribute, Std.ExtTreeMap.getD_erase_self]
    rw [List.foldl_cons, hfirst, Contributions.foldl_contribute_put]
    rfl

theorem ownersOf_onKept {r : Replacement} (hr : r.reported id ≠ []) {old : Option Stored}
    (h : ∀ kept, old = some kept → kept.Sound) :
    Stored.ownersOf (r.onKept id old) =
      match r.authority with
      | .authoritative => ((Stored.ownersOf old).erase r.source).insert r.source
      | .informative => (Stored.ownersOf old).erase r.source := by
  rw [onKept_of_reported id hr, Stored.ownersOf_storedAll _ _ _ hr, Stored.ownersOf_returning h]

theorem foldl_overwrite {ρ β : Type} (p : ρ → Bool) (new : ρ → β) (rows : List ρ) (b : β) :
    rows.foldl (fun b row => if p row then new row else b)
        (rows.foldl (fun b row => if p row then new row else b) b) =
      rows.foldl (fun b row => if p row then new row else b) b := by
  -- on the last row, which decides unless it is passed over
  induction rows using List.reverseRecOn generalizing b with
  | nil => rfl
  | append_singleton rows row ih =>
    simp only [List.foldl_append, List.foldl_cons, List.foldl_nil]
    cases hrow : p row with
    | true => simp
    | false =>
      simp only [Bool.false_eq_true, if_false]
      exact ih b

variable {cycle : List Replacement}

theorem getElem?_contributionsOf_round (h : ∀ r ∈ cycle, r.reported id ≠ []) (old : Option Stored) (key : Atom) :
    (Stored.contributionsOf (round id cycle old))[key]? =
      cycle.foldl (fun edges r => if r.source == key then
        some (Contributions.edgesOfAll (r.reported id) ∅) else edges) (Stored.contributionsOf old)[key]? := by
  induction cycle generalizing old with
  | nil => rfl
  | cons r rest ih =>
    have hfirst : (Stored.contributionsOf (r.onKept id old))[key]? = if r.source == key then
        some (Contributions.edgesOfAll (r.reported id) ∅) else (Stored.contributionsOf old)[key]? := by
      rw [contributionsOf_onKept id (h r List.mem_cons_self), Table.getElem?_put, Table.getElem?_erase]
      split <;> rfl
    rw [List.foldl_cons, ← hfirst]
    exact ih (fun q hq => h q (List.mem_cons_of_mem _ hq)) _

theorem getKey?_contributionsOf_round (h : ∀ r ∈ cycle, r.reported id ≠ []) (old : Option Stored) (key : Atom) :
    (Stored.contributionsOf (round id cycle old)).getKey? key =
      cycle.foldl (fun form r => if r.source == key then some r.source else form)
        ((Stored.contributionsOf old).getKey? key) := by
  induction cycle generalizing old with
  | nil => rfl
  | cons r rest ih =>
    have hfirst : (Stored.contributionsOf (r.onKept id old)).getKey? key =
        if r.source == key then some r.source else (Stored.contributionsOf old).getKey? key := by
      rw [contributionsOf_onKept id (h r List.mem_cons_self), Table.getKey?_put, Table.getKey?_erase,
        Std.ExtTreeMap.getKeyD_erase_self]
      split <;> rfl
    rw [List.foldl_cons, ← hfirst]
    exact ih (fun q hq => h q (List.mem_cons_of_mem _ hq)) _

theorem get?_ownersOf_round (h : ∀ r ∈ cycle, r.reported id ≠ []) {old : Option Stored}
    (hold : ∀ kept, old = some kept → kept.Sound) (key : Atom) :
    (Stored.ownersOf (round id cycle old)).get? key =
      cycle.foldl (fun form r => if r.source == key then
        (match r.authority with | .authoritative => some r.source | .informative => none) else form)
        ((Stored.ownersOf old).get? key) := by
  induction cycle generalizing old with
  | nil => rfl
  | cons r rest ih =>
    have hfirst : (Stored.ownersOf (r.onKept id old)).get? key = if r.source == key then
        (match r.authority with | .authoritative => some r.source | .informative => none)
        else (Stored.ownersOf old).get? key := by
      rw [ownersOf_onKept id (h r List.mem_cons_self) hold]
      have hgone : r.source ∉ (Stored.ownersOf old).erase r.source := by simp
      cases r.authority with
      | authoritative =>
        rw [AtomSet.get?_insert, AtomSet.get?_erase]
        by_cases hs : (r.source == key) = true <;> simp [hs]
      | informative => exact AtomSet.get?_erase _ _ _
    rw [List.foldl_cons, ← hfirst]
    exact ih (fun q hq => h q (List.mem_cons_of_mem _ hq)) (onKept_sound id hold r)

theorem contributionsOf_round_round (h : ∀ r ∈ cycle, r.reported id ≠ []) (old : Option Stored) :
    Stored.contributionsOf (round id cycle (round id cycle old)) = Stored.contributionsOf (round id cycle old) := by
  refine Table.eq_of_getKey?_of_getElem? (fun key => ?_) (fun key => ?_)
  · rw [getKey?_contributionsOf_round id h, getKey?_contributionsOf_round id h, foldl_overwrite]
  · rw [getElem?_contributionsOf_round id h, getElem?_contributionsOf_round id h, foldl_overwrite]

theorem ownersOf_round_round (h : ∀ r ∈ cycle, r.reported id ≠ []) {old : Option Stored}
    (hold : ∀ kept, old = some kept → kept.Sound) :
    Stored.ownersOf (round id cycle (round id cycle old)) = Stored.ownersOf (round id cycle old) := by
  refine Std.ExtTreeSet.ext_get? (fun key => ?_)
  rw [get?_ownersOf_round id h (round_sound id hold cycle), get?_ownersOf_round id h hold, foldl_overwrite]

theorem mem_contributionsOf_onKept {r : Replacement} {old : Option Stored} {other : Atom}
    (h : other ∈ Stored.contributionsOf (r.onKept id old)) :
    ((r.source == other) = true ∧ r.reported id ≠ []) ∨
      ((r.source == other) = false ∧ other ∈ Stored.contributionsOf old) :=
  ((Stored.mem_contributionsOf_storedAll _ _ _ _ _).1 h).imp_right Stored.mem_contributionsOf_withoutSource

theorem mem_contributionsOf_round_of_silent {source : Atom}
    (hsilent : ∀ r ∈ cycle, (r.source == source) = true → r.reported id = []) {old : Option Stored}
    (h : source ∈ Stored.contributionsOf (round id cycle old)) :
    source ∈ Stored.contributionsOf old ∧ ∀ r ∈ cycle, (r.source == source) = false := by
  induction cycle generalizing old with
  | nil => exact ⟨h, fun r hr => absurd hr List.not_mem_nil⟩
  | cons r rest ih =>
    obtain ⟨hfirst, hrest⟩ := ih (fun q hq => hsilent q (List.mem_cons_of_mem _ hq)) h
    rcases mem_contributionsOf_onKept id hfirst with ⟨hsource, hreported⟩ | ⟨hne, hold⟩
    · exact absurd (hsilent r List.mem_cons_self hsource) hreported
    · exact ⟨hold, List.forall_mem_cons.2 ⟨hne, hrest⟩⟩

theorem onKept_of_silent {r : Replacement} (hr : r.reported id = []) {old : Option Stored}
    (hold : ∀ kept, old = some kept → kept.Sound) (hgone : r.source ∉ Stored.contributionsOf old) :
    r.onKept id old = old := by
  rw [onKept_of_not_reported id hr]
  cases old with
  | none => rfl
  | some kept => exact Partition.withoutSource_of_not_mem (hold kept rfl) hgone false

/-- The replacements that report on an entity. -/
def writers (cycle : List Replacement) : List Replacement :=
  cycle.filter (fun r => !(r.reported id).isEmpty)

theorem reported_ne_nil_of_mem_writers {r : Replacement} (h : r ∈ writers id cycle) : r.reported id ≠ [] := by
  simpa using (List.mem_filter.1 h).2

theorem round_eq_writers (hdistinct : cycle.Pairwise (fun r q => (r.source == q.source) = false))
    {old : Option Stored} (hold : ∀ kept, old = some kept → kept.Sound)
    (hclean : ∀ r ∈ cycle, r.reported id = [] → r.source ∉ Stored.contributionsOf old) :
    round id cycle old = round id (writers id cycle) old := by
  induction cycle generalizing old with
  | nil => rfl
  | cons r rest ih =>
    obtain ⟨hhead, hdistinct⟩ := List.pairwise_cons.1 hdistinct
    obtain ⟨hfirst, hrest⟩ := List.forall_mem_cons.1 hclean
    change round id rest (r.onKept id old) = _
    rw [writers, List.filter_cons]
    by_cases hr : r.reported id = []
    · rw [onKept_of_silent id hr hold (hfirst hr), ih hdistinct hold hrest]
      simp [hr, writers]
    · rw [ih hdistinct (onKept_sound id hold r) (fun q hq hsilent hmem => ?_)]
      · simp [hr, writers, round]
      · rcases mem_contributionsOf_onKept id hmem with ⟨hsame, -⟩ | ⟨-, hbefore⟩
        · rw [hhead q hq] at hsame
          cases hsame
        · exact hrest q hq hsilent hbefore

def writes (r : Replacement) : List (Authority × Attributes) :=
  (r.reported id).map (fun entity => (r.authority, entity.attributes))

/-- The attributes that a replacement finds when it writes an entity: those of the first report on it when
nobody else contributes to the entity. -/
def start (r : Replacement) (old : Option Stored) : Attributes :=
  (Stored.attributesOf (old.bind (Partition.withoutSource r.source true))).getD
    (((r.reported id).head?.map EntityOf.attributes).getD [])

theorem attributesOf_onKept {r : Replacement} (hr : r.reported id ≠ []) (old : Option Stored) :
    Stored.attributesOf (r.onKept id old) = some (Authority.settleAll (r.start id old) (r.writes id)) := by
  rw [onKept_of_reported id hr, Stored.attributesOf_storedAll _ _ _ hr]
  rfl

theorem start_of_other {r : Replacement} {old : Option Stored} {other : Atom}
    (hother : other ∈ Stored.contributionsOf old) (hne : (r.source == other) = false) :
    some (r.start id old) = Stored.attributesOf old := by
  cases old with
  | none => exact absurd hother Std.ExtTreeMap.not_mem_empty
  | some kept =>
    have hleft : other ∈ kept.contributions.erase r.source := (Table.mem_erase _ _ _).2 ⟨hne, hother⟩
    rw [start, Option.bind_some, Stored.withoutSource_returning, Contributions.isEmpty_eq_false hleft]
    rfl

theorem start_alone {r : Replacement} {old : Option Stored}
    (h : ∀ other ∈ Stored.contributionsOf old, (r.source == other) = true) :
    r.start id old = ((r.reported id).head?.map EntityOf.attributes).getD [] := by
  cases old with
  | none => rfl
  | some kept =>
    have hempty : (kept.contributions.erase r.source).isEmpty = true := by
      refine Std.ExtTreeMap.isEmpty_iff.2 (Std.ExtTreeMap.eq_empty_iff_forall_not_mem.2 (fun other hother => ?_))
      obtain ⟨hne, hmem⟩ := (Table.mem_erase _ _ _).1 hother
      have hsame := h other hmem
      rw [hne] at hsame
      cases hsame
    rw [start, Option.bind_some, Stored.withoutSource_returning, if_pos hempty]
    rfl

theorem mem_contributionsOf_onKept_iff {r : Replacement} (hr : r.reported id ≠ []) (old : Option Stored)
    (other : Atom) : other ∈ Stored.contributionsOf (r.onKept id old) ↔
      (r.source == other) = true ∨ other ∈ Stored.contributionsOf old := by
  rw [contributionsOf_onKept id hr, Table.mem_put, Table.mem_erase]
  by_cases hs : (r.source == other) = true <;> simp [hs]

theorem mem_contributionsOf_round (h : ∀ r ∈ cycle, r.reported id ≠ []) {old : Option Stored} {other : Atom}
    (hother : other ∈ Stored.contributionsOf old) : other ∈ Stored.contributionsOf (round id cycle old) := by
  induction cycle generalizing old with
  | nil => exact hother
  | cons r rest ih =>
    refine ih (fun q hq => h q (List.mem_cons_of_mem _ hq)) ?_
    exact (mem_contributionsOf_onKept_iff id (h r List.mem_cons_self) old other).2 (.inr hother)

theorem attributesOf_round_of_other (h : ∀ r ∈ cycle, r.reported id ≠ []) {old : Option Stored} {other : Atom}
    (hother : other ∈ Stored.contributionsOf old) (hne : ∀ r ∈ cycle, (r.source == other) = false) :
    Stored.attributesOf (round id cycle old) = (Stored.attributesOf old).map
      (fun attributes => Authority.settleAll attributes (cycle.flatMap (writes id))) := by
  induction cycle generalizing old with
  | nil => simp [round, Authority.settleAll]
  | cons r rest ih =>
    obtain ⟨hr, hrest⟩ := List.forall_mem_cons.1 h
    obtain ⟨hner, hnerest⟩ := List.forall_mem_cons.1 hne
    change Stored.attributesOf (round id rest (r.onKept id old)) = _
    rw [ih hrest ((mem_contributionsOf_onKept_iff id hr old other).2 (.inr hother)) hnerest,
      attributesOf_onKept id hr, ← start_of_other id hother hner]
    simp [Authority.settleAll]

theorem attributesOf_round_cons {r : Replacement} {rest : List Replacement}
    (h : ∀ q ∈ r :: rest, q.reported id ≠ []) (hne : ∀ q ∈ rest, (r.source == q.source) = false)
    (old : Option Stored) : Stored.attributesOf (round id (r :: rest) old) =
      some (Authority.settleAll (r.start id old) ((r :: rest).flatMap (writes id))) := by
  -- from its second replacement on, a round finds the first source still there
  obtain ⟨hr, hrest⟩ := List.forall_mem_cons.1 h
  change Stored.attributesOf (round id rest (r.onKept id old)) = _
  rw [attributesOf_round_of_other id hrest ((mem_contributionsOf_onKept_iff id hr old r.source).2 (.inl BEq.rfl))
    (fun q hq => BEq.comm.trans (hne q hq)), attributesOf_onKept id hr]
  simp [Authority.settleAll]

theorem attributesOf_round_round (h : ∀ r ∈ cycle, r.reported id ≠ [])
    (hdistinct : cycle.Pairwise (fun r q => (r.source == q.source) = false)) (old : Option Stored) :
    Stored.attributesOf (round id cycle (round id cycle old)) = Stored.attributesOf (round id cycle old) := by
  cases cycle with
  | nil => rfl
  | cons r rest =>
    obtain ⟨hne, -⟩ := List.pairwise_cons.1 hdistinct
    have hfirst := attributesOf_round_cons id h hne old
    rw [attributesOf_round_cons id h hne, hfirst, Option.some.injEq]
    -- the first replacement starts from the attributes of the round before, unless its source is the only one left
    by_cases hothers : ∃ other ∈ Stored.contributionsOf (round id (r :: rest) old), (r.source == other) = false
    · obtain ⟨other, hother, hner⟩ := hothers
      have hstart := (start_of_other id hother hner).trans hfirst
      rw [Option.some.inj hstart, Authority.settleAll_settleAll]
    · have halone (other : Atom) (hother : other ∈ Stored.contributionsOf (round id (r :: rest) old)) :
          (r.source == other) = true := by
        cases hs : r.source == other with
        | true => rfl
        | false => exact absurd ⟨other, hother, hs⟩ hothers
      rw [start_alone id halone,
        start_alone id (fun other hother => halone other (mem_contributionsOf_round id h hother))]

theorem round_round_of_reported {old : Option Stored} (hold : ∀ kept, old = some kept → kept.Sound)
    (h : ∀ r ∈ cycle, r.reported id ≠ [])
    (hdistinct : cycle.Pairwise (fun r q => (r.source == q.source) = false)) :
    round id cycle (round id cycle old) = round id cycle old :=
  Stored.ext_of_contributions_owners_attributes (attributesOf_round_round id h hdistinct old)
    (contributionsOf_round_round id h old) (ownersOf_round_round id h hold)

theorem round_converges {old : Option Stored} (hold : ∀ kept, old = some kept → kept.Sound)
    (hdistinct : cycle.Pairwise (fun r q => (r.source == q.source) = false)) :
    round id cycle (round id cycle (round id cycle old)) = round id cycle (round id cycle old) := by
  have : Std.Symm (fun r q : Replacement => (r.source == q.source) = false) :=
    ⟨fun _ _ hne => BEq.comm.trans hne⟩
  -- the first round clears out the sources that report nothing; the later ones are then rounds of the others
  have hclean (old : Option Stored) (r : Replacement) (hr : r ∈ cycle) (hsilent : r.reported id = []) :
      r.source ∉ Stored.contributionsOf (round id cycle old) := by
    intro hmem
    have hsilent (q : Replacement) (hq : q ∈ cycle) (hsame : (q.source == r.source) = true) :
        q.reported id = [] := by
      by_cases hqr : q = r
      · rwa [hqr]
      · rw [hdistinct.forall hq hr hqr] at hsame
        cases hsame
    have hne := (mem_contributionsOf_round_of_silent id hsilent hmem).2 r hr
    simp at hne
  have hsound := round_sound id hold cycle
  have hsecond := round_eq_writers id hdistinct hsound (hclean old)
  rw [round_eq_writers id hdistinct (round_sound id hsound cycle) (hclean _), hsecond]
  exact round_round_of_reported id hsound (fun r hr => reported_ne_nil_of_mem_writers id hr)
    (hdistinct.filter _)

end Replacement

def replay (ns : Atom) (cycle : List Replacement) (store : Memory) : Memory :=
  cycle.foldl (fun store r => store.replaceSource ns r.source r.entities r.authority) store

theorem replay_cons (ns : Atom) (r : Replacement) (rest : List Replacement) (store : Memory) :
    replay ns (r :: rest) store =
      replay ns rest ((Operation.replaceSource ns r.source r.entities r.authority).apply store) := rfl

theorem replay_sound {store : Memory} (h : store.Sound) (ns : Atom) (cycle : List Replacement) :
    (replay ns cycle store).Sound := by
  induction cycle generalizing store with
  | nil => exact h
  | cons r rest ih =>
    rw [replay_cons]
    exact ih (Operation.apply_sound _ h)

theorem kept_replay {store : Memory} (h : store.Sound) (ns other id : Atom) (cycle : List Replacement) :
    (replay ns cycle store).kept other id =
      if ns == other then Replacement.round id cycle (store.kept other id) else store.kept other id := by
  induction cycle generalizing store with
  | nil => exact (ite_self _).symm
  | cons r rest ih =>
    rw [replay_cons, ih (Operation.apply_sound _ h), Operation.kept_apply _ h, Operation.ns]
    split <;> rfl

theorem kept_replay_converges {store : Memory} (h : store.Sound) (ns : Atom) {cycle : List Replacement}
    (hdistinct : cycle.Pairwise (fun r q => (r.source == q.source) = false)) (other id : Atom) :
    (replay ns cycle (replay ns cycle (replay ns cycle store))).kept other id =
      (replay ns cycle (replay ns cycle store)).kept other id := by
  have hfirst := replay_sound h ns cycle
  rw [kept_replay (replay_sound hfirst ns cycle), kept_replay hfirst, kept_replay h]
  split
  · exact Replacement.round_converges id (fun kept hkept => h.kept hkept) hdistinct
  · rfl

/-- A cycle of full replacements by different sources has settled after two rounds: a third one leaves the
ids of every namespace and every entity, its attributes and its edges, as they are. -/
theorem third_round_changes_nothing (history : List Operation) (ns : Atom) {cycle : List Replacement}
    (hdistinct : cycle.Pairwise (fun r q => (r.source == q.source) = false)) (other : Atom) :
    let settled := replay ns cycle (replay ns cycle (Memory.after history))
    (∀ id, (∃ a ∈ (replay ns cycle settled).identifiers other, (a == id) = true) ↔
      ∃ a ∈ settled.identifiers other, (a == id) = true) ∧
    ∀ id, (replay ns cycle settled).get other id = settled.get other id := by
  intro settled
  have hget (id : Atom) : (replay ns cycle settled).get other id = settled.get other id := by
    rw [Memory.get_eq, kept_replay_converges (Memory.after_sound history) ns hdistinct]
    rfl
  refine ⟨fun id => ?_, hget⟩
  rw [Memory.mem_identifiers, Memory.mem_identifiers, hget]

/-- A cycle whose first round loses what its first source reports. -/
theorem third_round_changes_nothing_mixed :
    let image (targets : List Atom) : Entity :=
      ⟨"image", "ami-1", [("name", "web")], Relations.ofGroups [("cluster", targets)]⟩
    let history : List Operation := [.replaceSource "image" "owner" [image ["a"]] .authoritative]
    let cycle : List Replacement :=
      [⟨"hints", [image ["b"]], .informative⟩, ⟨"owner", [], .authoritative⟩, ⟨"more", [image []], .informative⟩]
    let settled := replay "image" cycle (replay "image" cycle (Memory.after history))
    cycle.Pairwise (fun r q => (r.source == q.source) = false) ∧
      (replay "image" cycle settled).get "image" "ami-1" = settled.get "image" "ami-1" := by
  intro image history cycle settled
  have hdistinct : cycle.Pairwise (fun r q => (r.source == q.source) = false) := by
    simp only [cycle, List.pairwise_cons]
    decide
  exact ⟨hdistinct, (third_round_changes_nothing history "image" hdistinct "image").2 "ami-1"⟩

end FleetCache
