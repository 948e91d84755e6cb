import FleetCache.Proofs.RefreshConvergence
/-!
One entity between an owner, which reports it with authority, and a linker, which only adds to it. Whether it is
stored depends on nothing but whether each of the two has it in its latest report: except that the owner, when it
takes its report back, takes the entity from the linker as well.
-/
set_option autoImplicit false

namespace FleetCache.Stored

/-- How what is kept of an entity stands to an owner and a linker: whether the owner lists it, and whether the linker
has a link to it. Nobody else contributes, and a link alone comes without attributes. -/
structure Standing (owner linker : Atom) (listed linked : Bool) (old : Option Stored) : Prop where
  contributed : ∀ source, source ∈ contributionsOf old ↔
    ((owner == source) = true ∧ listed = true) ∨ ((linker == source) = true ∧ linked = true)
  owned : ∀ source, source ∈ ownersOf old ↔ (owner == source) = true ∧ listed = true
  blank : listed = false → attributesOf old = if linked then some [] else none

variable {owner linker : Atom} {listed linked : Bool} {old : Option Stored}

theorem standing_none (owner linker : Atom) : Standing owner linker false false none where
  contributed source := by
    rw [contributionsOf_none]
    exact iff_of_false Std.ExtTreeMap.not_mem_empty (by simp)
  owned source := iff_of_false Std.ExtTreeSet.not_mem_empty (by simp)
  blank _ := rfl

theorem Standing.withdrawn (h : Standing owner linker true linked old) :
    old.bind (Partition.withoutSource owner false) = none := by
  cases old with
  | none => rfl
  | some kept =>
    have howned : owner ∈ kept.owners := (h.owned owner).2 ⟨BEq.rfl, rfl⟩
    have halone : (kept.owners.erase owner).isEmpty = true := by
      rw [Std.ExtTreeSet.isEmpty_iff, Std.ExtTreeSet.eq_empty_iff_forall_not_mem]
      intro source hsource
      obtain ⟨hne, hmem⟩ := (AtomSet.mem_erase _ _ _).1 hsource
      obtain ⟨hsame, -⟩ := (h.owned source).1 hmem
      rw [hsame] at hne
      cases hne
    cases hleft : Partition.withoutSource owner false kept with
    | none => exact hleft
    | some left =>
      obtain ⟨-, hreturns, -⟩ := Partition.withoutSource_eq_some.1 hleft
      cases hreturns howned halone

theorem bind_withoutSource_of_not_mem {source : Atom} (hsound : ∀ kept, old = some kept → kept.Sound)
    (h : source ∉ contributionsOf old) (returning : Bool) :
    old.bind (Partition.withoutSource source returning) = old := by
  cases old with
  | none => rfl
  | some kept => exact Partition.withoutSource_of_not_mem (hsound kept rfl) h returning

theorem bind_withoutSource_of_not_owner {source : Atom} (h : source ∉ ownersOf old) (returning : Bool) :
    old.bind (Partition.withoutSource source returning) = old.bind (Partition.withoutSource source true) := by
  cases old with
  | none => rfl
  | some kept =>
    have hnot : kept.owners.contains source = false := Bool.eq_false_iff.2 h
    simp only [Option.bind_some, Partition.withoutSource, hnot, Bool.false_and]

/-- A report of the owner. One without the entity takes the entity away if the owner had it, and otherwise changes
nothing. -/
theorem Standing.replaced_owner (h : Standing owner linker listed linked old)
    (hsound : ∀ kept, old = some kept → kept.Sound) (hne : (linker == owner) = false) (entities : List Entity) :
    Standing owner linker (!entities.isEmpty) (linked && (!listed || !entities.isEmpty))
      (Partition.replaced owner .authoritative old entities) := by
  cases entities with
  | nil =>
    change Standing owner linker false (linked && (!listed || false)) (old.bind (Partition.withoutSource owner false))
    cases listed with
    | true =>
      rw [h.withdrawn]
      simpa using standing_none owner linker
    | false =>
      have hnot : owner ∉ contributionsOf old := by
        rw [h.contributed, hne]
        simp
      rw [bind_withoutSource_of_not_mem hsound hnot]
      simpa using h
  | cons entity rest =>
    change Standing owner linker true (linked && (!listed || true))
      (Partition.storedAll owner .authoritative (old.bind (Partition.withoutSource owner true)) (entity :: rest))
    refine ⟨fun source => ?_, fun source => ?_, fun hlisted => by cases hlisted⟩
    · rw [mem_contributionsOf_storedAll, contributionsOf_returning, Table.mem_erase, h.contributed]
      by_cases hsame : (owner == source) = true
      · simp [hsame]
      · simp [hsame]
    · rw [ownersOf_storedAll _ _ _ (List.cons_ne_nil entity rest), ownersOf_returning hsound, AtomSet.mem_insert,
        AtomSet.mem_erase, h.owned]
      by_cases hsame : (owner == source) = true
      · simp [hsame]
      · simp [hsame]

theorem Standing.unlinked (h : Standing owner linker false linked old)
    (hsound : ∀ kept, old = some kept → kept.Sound) :
    old.bind (Partition.withoutSource linker true) = none := by
  cases hleft : old.bind (Partition.withoutSource linker true) with
  | none => rfl
  | some left =>
    obtain ⟨kept, hkept, hwithout⟩ := Option.bind_eq_some_iff.1 hleft
    obtain ⟨source, hsource⟩ := (Partition.withoutSource_sound (hsound kept hkept) hwithout).contributed
    have hmem : source ∈ contributionsOf (old.bind (Partition.withoutSource linker true)) := by
      rw [hleft]
      exact hsource
    obtain ⟨hne, hbefore⟩ := mem_contributionsOf_withoutSource hmem
    rw [h.contributed, hne] at hbefore
    simp at hbefore

theorem attributesOf_storedAll_blank {kept : Stored} (h : kept.attributes = []) (source : Atom)
    {entities : List Entity} (hblank : ∀ entity ∈ entities, entity.attributes = []) :
    attributesOf (Partition.storedAll source .informative (some kept) entities) = some [] := by
  induction entities generalizing kept with
  | nil => exact congrArg some h
  | cons entity rest ih =>
    obtain ⟨hentity, hrest⟩ := List.forall_mem_cons.1 hblank
    have hfirst := attributesOf_stored (some kept) entity source .informative
    have hkept : attributesOf (some kept) = some [] := congrArg some h
    rw [hkept, hentity] at hfirst
    exact ih (Option.some.inj hfirst) hrest

theorem Standing.replaced_linker (h : Standing owner linker listed linked old)
    (hsound : ∀ kept, old = some kept → kept.Sound) (hne : (linker == owner) = false) {entities : List Entity}
    (hblank : ∀ entity ∈ entities, entity.attributes = []) :
    Standing owner linker listed (!entities.isEmpty) (Partition.replaced linker .informative old entities) := by
  have hnotOwner : linker ∉ ownersOf old := by
    rw [h.owned, BEq.comm, hne]
    simp
  have hapart (source : Atom) (hsame : (linker == source) = true) : (owner == source) = false := by
    rw [← hne, BEq.comm]
    exact BEq.congr_left (BEq.symm hsame)
  have hreplaced : Partition.replaced linker .informative old entities =
      Partition.storedAll linker .informative (old.bind (Partition.withoutSource linker true)) entities := by
    rw [Partition.replaced, bind_withoutSource_of_not_owner hnotOwner]
  rw [hreplaced]
  refine ⟨fun source => ?_, fun source => ?_, fun hlisted => ?_⟩
  · rw [mem_contributionsOf_storedAll, contributionsOf_returning, Table.mem_erase, h.contributed]
    by_cases hsame : (linker == source) = true
    · simp [hsame, hapart source hsame]
    · simp [hsame]
  · rw [ownersOf_storedAll_informative, ownersOf_returning hsound, AtomSet.mem_erase, h.owned]
    by_cases hsame : (linker == source) = true
    · simp [hsame, hapart source hsame]
    · simp [hsame]
  · subst hlisted
    rw [h.unlinked hsound]
    cases entities with
    | nil => rfl
    | cons entity rest =>
      obtain ⟨hentity, hrest⟩ := List.forall_mem_cons.1 hblank
      have hfirst : (Partition.stored none entity linker .informative).attributes = [] := by
        rw [Partition.stored, hentity]
        rfl
      exact attributesOf_storedAll_blank hfirst linker hrest

theorem Standing.replaced_other (h : Standing owner linker listed linked old)
    (hsound : ∀ kept, old = some kept → kept.Sound) {source : Atom} (howner : (owner == source) = false)
    (hlinker : (linker == source) = false) (authority : Authority) :
    Partition.replaced source authority old [] = old := by
  have hnot : source ∉ contributionsOf old := by
    rw [h.contributed, howner, hlinker]
    simp
  exact bind_withoutSource_of_not_mem hsound hnot _

end FleetCache.Stored
