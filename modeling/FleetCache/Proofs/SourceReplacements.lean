import FleetCache.Proofs.CurrentReports
import FleetCache.Proofs.RefreshConvergence

set_option autoImplicit false

namespace FleetCache

open FleetCache.Partition (withId)

namespace Contributions

theorem mem_related_edgesOfAll (entities : List Entity) (edges : Relations) (ns id : Atom) :
    id ∈ (edgesOfAll entities edges).related ns ↔
      id ∈ edges.related ns ∨ ∃ entity ∈ entities, id ∈ entity.related ns := by
  induction entities generalizing edges with
  | nil => simp [edgesOfAll]
  | cons entity rest ih =>
    change id ∈ (edgesOfAll rest (edges.union entity.relations)).related ns ↔ _
    rw [ih, Relations.mem_related_union]
    simp only [List.mem_cons, exists_eq_or_imp, or_assoc]
    rfl

theorem isEmpty_erase_eq_false (contributions : Contributions) (source : Atom) :
    (contributions.erase source).isEmpty = false ↔ ∃ other ∈ contributions, (source == other) = false := by
  constructor
  · intro hmany
    obtain ⟨other, hother⟩ := exists_mem_of_isEmpty hmany
    obtain ⟨hne, hmem⟩ := (Table.mem_erase _ _ _).1 hother
    exact ⟨other, hmem, hne⟩
  · rintro ⟨other, hmem, hne⟩
    exact isEmpty_eq_false ((Table.mem_erase _ _ _).2 ⟨hne, hmem⟩)

end Contributions

theorem AtomSet.isEmpty_erase (set : AtomSet) (a : Atom) :
    (set.erase a).isEmpty = true ↔ ∀ b ∈ set, (a == b) = true := by
  rw [Std.ExtTreeSet.isEmpty_iff, Std.ExtTreeSet.eq_empty_iff_forall_not_mem]
  refine forall_congr' fun b => ?_
  rw [AtomSet.mem_erase, not_and', Bool.not_eq_false]

namespace Stored

/-- A source is the only one that wrote what is kept of an entity with authority. -/
def SoleOwner (source : Atom) (old : Option Stored) : Prop :=
  source ∈ ownersOf old ∧ ∀ other ∈ ownersOf old, (source == other) = true

/-- What is kept of an entity is safe from a source that takes its report back: the source contributes
nothing to it, or others contribute to it too and the source does not own it alone. -/
def SafeFrom (source : Atom) (old : Option Stored) : Prop :=
  source ∉ contributionsOf old ∨
    (∃ other ∈ contributionsOf old, (source == other) = false) ∧ ¬ SoleOwner source old

theorem withoutSource_isSome {kept : Stored} (h : kept.Sound) (source : Atom) :
    (Partition.withoutSource source false kept).isSome = true ↔ SafeFrom source (some kept) := by
  have hleft : (Partition.withoutSource source false kept).isSome = true ↔
      (∃ other ∈ kept.contributions, (source == other) = false) ∧ ¬ SoleOwner source (some kept) := by
    rw [Option.isSome_iff_exists]
    simp only [Partition.withoutSource_eq_some, Contributions.isEmpty_erase_eq_false, AtomSet.isEmpty_erase,
      exists_and_left, exists_eq, and_true, Bool.false_eq_true]
    exact and_congr_right fun _ => (not_and).symm
  rw [hleft]
  refine ⟨.inr, fun hsafe => hsafe.elim (fun hnone => ?_) id⟩
  -- who contributes nothing owns nothing, and somebody else contributes
  obtain ⟨other, hother⟩ := h.contributed
  refine ⟨⟨other, hother, Bool.eq_false_iff.2 (fun hsame => hnone ?_)⟩, fun hsole => hnone (h.owned source hsole.1)⟩
  exact (Table.mem_congr kept.contributions hsame).2 hother

end Stored

namespace Replacement

variable (id : Atom) {r : Replacement} {old : Option Stored}

theorem reported_ne_nil : r.reported id ≠ [] ↔ ∃ entity ∈ r.entities, (entity.id == id) = true :=
  withId_ne_nil id r.entities

theorem isSome_onKept (h : ∀ kept, old = some kept → kept.Sound) :
    (r.onKept id old).isSome = true ↔
      r.reported id ≠ [] ∨ old.isSome = true ∧ Stored.SafeFrom r.source old := by
  by_cases hr : r.reported id = []
  · rw [onKept_of_not_reported id hr]
    cases old with
    | none => simp [hr]
    | some kept =>
      rw [Option.bind_some, Stored.withoutSource_isSome (h kept rfl)]
      simp [hr]
  · refine iff_of_true ?_ (.inl hr)
    have hcontributes := (mem_contributionsOf_onKept_iff id hr old r.source).2 (.inl BEq.rfl)
    cases hkept : r.onKept id old with
    | none =>
      rw [hkept] at hcontributes
      exact absurd hcontributes Std.ExtTreeMap.not_mem_empty
    | some kept => rfl

theorem source_mem_contributionsOf_onKept :
    r.source ∈ Stored.contributionsOf (r.onKept id old) ↔ r.reported id ≠ [] := by
  constructor
  · intro h
    rcases mem_contributionsOf_onKept id h with ⟨-, hreported⟩ | ⟨hne, -⟩
    · exact hreported
    · simp at hne
  · exact fun hr => (mem_contributionsOf_onKept_iff id hr old r.source).2 (.inl BEq.rfl)

theorem mem_related_onKept (ns target : Atom) :
    target ∈ ((Stored.contributionsOf (r.onKept id old)).edgesOf r.source).related ns ↔
      ∃ entity ∈ r.reported id, target ∈ entity.related ns := by
  by_cases hr : r.reported id = []
  · have hnone : r.source ∉ Stored.contributionsOf (r.onKept id old) :=
      fun hmem => (source_mem_contributionsOf_onKept id).1 hmem hr
    rw [Contributions.edgesOf_of_not_mem hnone, hr]
    simp [Relations.not_mem_related_empty]
  · rw [Contributions.edgesOf_eq, contributionsOf_onKept id hr, Table.getElem?_put, if_pos BEq.rfl,
      Option.getD_some, Contributions.mem_related_edgesOfAll]
    simp [Relations.not_mem_related_empty]

theorem source_mem_ownersOf_onKept (h : ∀ kept, old = some kept → kept.Sound) :
    r.source ∈ Stored.ownersOf (r.onKept id old) ↔ r.authority = .authoritative ∧ r.reported id ≠ [] := by
  by_cases hr : r.reported id = []
  · refine iff_of_false (fun howner => ?_) (fun hboth => hboth.2 hr)
    cases hkept : r.onKept id old with
    | none =>
      rw [hkept] at howner
      exact Std.ExtTreeSet.not_mem_empty howner
    | some kept =>
      have hcontributes : r.source ∈ Stored.contributionsOf (r.onKept id old) := by
        rw [hkept] at howner ⊢
        exact (onKept_sound id h r kept hkept).owned r.source howner
      exact (source_mem_contributionsOf_onKept id).1 hcontributes hr
  · rw [ownersOf_onKept id hr h]
    cases hauthority : r.authority with
    | authoritative => simp [hr]
    | informative => simp

theorem onKept_onKept (h : ∀ kept, old = some kept → kept.Sound) :
    r.onKept id (r.onKept id old) = r.onKept id old := by
  by_cases hr : r.reported id = []
  · rw [onKept_of_not_reported id hr, onKept_of_not_reported id hr]
    exact Partition.withoutSource_withoutSource r.source false h
  · have hround : round id [r] (round id [r] old) = round id [r] old :=
      round_round_of_reported id h (List.forall_mem_singleton.2 hr) (List.pairwise_singleton _ r)
    exact hround

end Replacement

/-- After a full replacement exactly those ids are stored that the report has, and those stored before that are
safe from its source: it contributed nothing to them, or others did and it was not the only owner. The source
then contributes exactly the edges of its report and owns what it reported with authority; and the same
replacement again changes no entity. -/
theorem replacement_settles (history : List Operation) (ns source : Atom) (entities : List Entity)
    (authority : Authority) :
    let before := Memory.after history
    let after := before.replaceSource ns source entities authority
    let again := after.replaceSource ns source entities authority
    (∀ id, (after.get ns id).isSome = true ↔ (∃ entity ∈ entities, (entity.id == id) = true) ∨
      (before.get ns id).isSome = true ∧ Stored.SafeFrom source (before.kept ns id)) ∧
    (∀ id, source ∈ Stored.contributionsOf (after.kept ns id) ↔ ∃ entity ∈ entities, (entity.id == id) = true) ∧
    (∀ id other target, target ∈ ((Stored.contributionsOf (after.kept ns id)).edgesOf source).related other ↔
      ∃ entity ∈ entities, (entity.id == id) = true ∧ target ∈ entity.related other) ∧
    (∀ id, source ∈ Stored.ownersOf (after.kept ns id) ↔
      authority = .authoritative ∧ ∃ entity ∈ entities, (entity.id == id) = true) ∧
    ∀ other, (∀ id, (∃ a ∈ again.identifiers other, (a == id) = true) ↔
        ∃ a ∈ after.identifiers other, (a == id) = true) ∧
      ∀ id, again.get other id = after.get other id := by
  intro before after again
  let r : Replacement := ⟨source, entities, authority⟩
  have hbefore : before.Sound := Memory.after_sound history
  have hsound (id : Atom) : ∀ kept, before.kept ns id = some kept → kept.Sound := fun kept => hbefore.kept
  have hkept (id : Atom) : after.kept ns id = r.onKept id (before.kept ns id) := by
    have hafter := (Operation.replaceSource ns source entities authority).kept_apply hbefore ns id
    rwa [Operation.ns, if_pos BEq.rfl] at hafter
  refine ⟨fun id => ?_, fun id => ?_, fun id other target => ?_, fun id => ?_, fun other => ?_⟩
  · rw [Memory.get_eq, Memory.get_eq, Option.isSome_map, Option.isSome_map, hkept,
      Replacement.isSome_onKept id (hsound id), Replacement.reported_ne_nil]
  · rw [hkept, ← Replacement.reported_ne_nil (r := r)]
    exact Replacement.source_mem_contributionsOf_onKept id
  · rw [hkept]
    refine (Replacement.mem_related_onKept (r := r) id other target).trans ?_
    simp only [Replacement.reported, withId, List.mem_filter, and_assoc, r]
  · rw [hkept, ← Replacement.reported_ne_nil (r := r)]
    exact Replacement.source_mem_ownersOf_onKept id (hsound id)
  · have hagain (id : Atom) : again.kept other id = after.kept other id := by
      have hmore := kept_replay hbefore ns other id [r, r]
      have honce := kept_replay hbefore ns other id [r]
      refine hmore.trans (Eq.trans ?_ honce.symm)
      split
      · exact Replacement.onKept_onKept id (fun kept => hbefore.kept)
      · rfl
    have hget (id : Atom) : again.get other id = after.get other id := by
      rw [Memory.get_eq, hagain]
      rfl
    refine ⟨fun id => ?_, hget⟩
    rw [Memory.mem_identifiers, Memory.mem_identifiers, hget]

end FleetCache
