import Mathlib.Data.List.Induction
import FleetCache.Proofs.AttributeHistories
import FleetCache.Proofs.EdgeSets
/-!
Whose values an entity has. The source of the last authoritative write leaves its values behind until another
authoritative write comes, whether it still owns the entity or not. So the owners that remain after it has
dropped the entity may own attributes that none of them has written.
-/
set_option autoImplicit false

namespace FleetCache

open FleetCache.Partition (withId)

/-- Attributes in which everything of others still stands. -/
def Attributes.Keeps (attributes written : Attributes) : Prop :=
  ∀ key value, written.lookup key = some value → attributes.lookup key = some value

theorem Attributes.Keeps.refl (attributes : Attributes) : attributes.Keeps attributes :=
  fun _ _ h => h

theorem Attributes.Keeps.fillAll {attributes written : Attributes} (h : attributes.Keeps written)
    (more : Attributes) : (attributes.fillAll more).Keeps written := by
  intro key value hvalue
  rw [lookup_fillAll, h key value hvalue]
  rfl

namespace Authority

def ownWrites (authority : Authority) (source : Atom) (entities : List Entity) : List (Atom × Attributes) :=
  match authority with
  | authoritative => entities.map (fun entity => (source, entity.attributes))
  | informative => []

end Authority

def Operation.ownedWrites (ns id : Atom) : Operation → List (Atom × Attributes)
  | upsert ns' entities source authority | replaceSource ns' source entities authority =>
    if ns' == ns then authority.ownWrites source (withId id entities) else []
  | evict _ _ => []

def ownedWrites (ns id : Atom) (history : List Operation) : List (Atom × Attributes) :=
  history.flatMap (Operation.ownedWrites ns id)

theorem ownedWrites_concat (ns id : Atom) (history : List Operation) (op : Operation) :
    ownedWrites ns id (history ++ [op]) = ownedWrites ns id history ++ op.ownedWrites ns id := by
  simp [ownedWrites]

def lastOf (source : Atom) (writes : List (Atom × Attributes)) : Option Attributes :=
  (writes.filter (fun write => write.1 == source)).getLast?.map (·.2)

theorem lastOf_concat (source : Atom) (writes : List (Atom × Attributes)) (write : Atom × Attributes) :
    lastOf source (writes ++ [write]) = if write.1 == source then some write.2 else lastOf source writes := by
  unfold lastOf
  rw [List.filter_append]
  by_cases h : (write.1 == source) = true <;> simp [h]

theorem lastOf_congr {source other : Atom} (h : (source == other) = true) (writes : List (Atom × Attributes)) :
    lastOf source writes = lastOf other writes := by
  unfold lastOf
  congr 3
  funext write
  exact BEq.congr_right h

theorem lastOf_of_getLast? {writes : List (Atom × Attributes)} {writer : Atom} {written : Attributes}
    (h : writes.getLast? = some (writer, written)) : lastOf writer writes = some written := by
  obtain ⟨front, rfl⟩ := List.getLast?_eq_some_iff.1 h
  rw [lastOf_concat, if_pos BEq.rfl]

/-- A source vouches for attributes while all that it wrote last with authority stands in them. -/
def Vouches (source : Atom) (writes : List (Atom × Attributes)) (attributes : Attributes) : Prop :=
  ∃ own, lastOf source writes = some own ∧ attributes.Keeps own

namespace Stored

/-- How what is kept of an entity stands to the authoritative writes to it: every owner has written it, and while
it has owners the attributes keep all of the last write. -/
structure Answers (old : Option Stored) (writes : List (Atom × Attributes)) : Prop where
  written : ∀ owner ∈ ownersOf old, ∃ own, lastOf owner writes = some own
  lasting : ∀ owner ∈ ownersOf old, ∃ writer written attributes, writes.getLast? = some (writer, written) ∧
    attributesOf old = some attributes ∧ attributes.Keeps written

variable {old : Option Stored} {writes : List (Atom × Attributes)}

theorem answers_none (writes : List (Atom × Attributes)) : Answers none writes where
  written _ howner := absurd howner Std.ExtTreeSet.not_mem_empty
  lasting _ howner := absurd howner Std.ExtTreeSet.not_mem_empty

theorem Answers.stored_authoritative (h : Answers old writes) (entity : Entity) (source : Atom) :
    Answers (some (Partition.stored old entity source .authoritative))
      (writes ++ [(source, entity.attributes)]) where
  written owner howner := by
    rw [ownersOf_stored, AtomSet.mem_insert] at howner
    rw [lastOf_concat]
    split
    · exact ⟨_, rfl⟩
    · rename_i hother
      exact h.written owner (howner.resolve_left hother)
  lasting owner howner :=
    ⟨source, entity.attributes, entity.attributes, List.getLast?_concat, attributesOf_stored old entity source _,
      Attributes.Keeps.refl _⟩

theorem Answers.stored_informative (h : Answers old writes) (entity : Entity) (source : Atom) :
    Answers (some (Partition.stored old entity source .informative)) writes where
  written owner howner := by
    rw [ownersOf_stored] at howner
    exact h.written owner howner
  lasting owner howner := by
    rw [ownersOf_stored] at howner
    obtain ⟨writer, written, attributes, hlast, hattributes, hkeeps⟩ := h.lasting owner howner
    refine ⟨writer, written, attributes.fillAll entity.attributes, hlast, ?_, hkeeps.fillAll _⟩
    rw [attributesOf_stored, hattributes]
    rfl

theorem Answers.storedAll (h : Answers old writes) (source : Atom) (authority : Authority)
    (entities : List Entity) :
    Answers (Partition.storedAll source authority old entities) (writes ++ authority.ownWrites source entities) := by
  induction entities generalizing old writes with
  | nil =>
    have hnone : authority.ownWrites source [] = [] := by cases authority <;> rfl
    rw [hnone, List.append_nil]
    exact h
  | cons entity rest ih =>
    cases authority with
    | authoritative =>
      have hrest := ih (h.stored_authoritative entity source)
      rw [List.append_assoc] at hrest
      exact hrest
    | informative => exact ih (h.stored_informative entity source)

theorem Answers.withoutSource (h : Answers old writes) (source : Atom) (returning : Bool) :
    Answers (old.bind (Partition.withoutSource source returning)) writes := by
  cases hleft : old.bind (Partition.withoutSource source returning) with
  | none => exact answers_none writes
  | some left =>
    obtain ⟨kept, rfl, hkept⟩ := Option.bind_eq_some_iff.1 hleft
    obtain ⟨-, -, rfl⟩ := Partition.withoutSource_eq_some.1 hkept
    have hbefore (owner : Atom) (howner : owner ∈ kept.owners.erase source) : owner ∈ kept.owners :=
      ((AtomSet.mem_erase _ _ _).1 howner).2
    exact ⟨fun owner howner => h.written owner (hbefore owner howner),
      fun owner howner => h.lasting owner (hbefore owner howner)⟩

theorem Answers.onKept {op : Operation} {ns : Atom} (hns : (op.ns == ns) = true) {id : Atom}
    (h : Answers old writes) : Answers (op.onKept id old) (writes ++ op.ownedWrites ns id) := by
  cases op with
  | upsert ns' entities source authority =>
    change (ns' == ns) = true at hns
    rw [Operation.ownedWrites, if_pos hns]
    exact h.storedAll source authority (withId id entities)
  | replaceSource ns' source entities authority =>
    change (ns' == ns) = true at hns
    rw [Operation.ownedWrites, if_pos hns]
    exact (h.withoutSource source _).storedAll source authority (withId id entities)
  | evict ns' ids =>
    rw [Operation.ownedWrites, List.append_nil]
    change Answers (if ids.contains id then none else old) writes
    split
    · exact answers_none writes
    · exact h

end Stored

theorem Operation.ownedWrites_of_ne {op : Operation} {ns : Atom} (h : (op.ns == ns) = false) (id : Atom) :
    op.ownedWrites ns id = [] := by
  cases op with
  | evict => rfl
  | upsert ns' entities source authority | replaceSource ns' source entities authority =>
    change (ns' == ns) = false at h
    rw [ownedWrites, h]
    rfl

theorem answers_after (history : List Operation) (ns id : Atom) :
    Stored.Answers ((Memory.after history).kept ns id) (ownedWrites ns id history) := by
  -- on the last operation, as the writes are listed up to it
  induction history using List.reverseRecOn with
  | nil =>
    rw [Memory.after, Memory.applyAll, List.foldl_nil, Memory.kept_empty]
    exact Stored.answers_none _
  | append_singleton history op ih =>
    rw [Memory.after_concat, ownedWrites_concat, op.kept_apply (Memory.after_sound history)]
    split
    · rename_i hns
      exact ih.onKept hns
    · rename_i hns
      rw [Operation.ownedWrites_of_ne (by simpa using hns), List.append_nil]
      exact ih

/-- While an entity has owners, all that was last written to it with authority stands in its attributes. The source
that wrote it vouches for them as long as it is an owner itself. When it is none any more, an owner vouches for them
only where its own last write says nothing else than the one of the source that is gone. -/
theorem last_writer_values_stand {history : List Operation} {ns id : Atom} {kept : Stored}
    (hkept : (Memory.after history).kept ns id = some kept) (howned : ∃ owner, owner ∈ kept.owners) :
    ∃ writer written, (ownedWrites ns id history).getLast? = some (writer, written) ∧
      kept.attributes.Keeps written ∧
      (writer ∈ kept.owners → Vouches writer (ownedWrites ns id history) kept.attributes) ∧
      ∀ owner ∈ kept.owners, ∃ own, lastOf owner (ownedWrites ns id history) = some own ∧
        (Vouches owner (ownedWrites ns id history) kept.attributes →
          ∀ key value other, own.lookup key = some value → written.lookup key = some other → value = other) := by
  have hanswers := answers_after history ns id
  rw [hkept] at hanswers
  obtain ⟨owner, howner⟩ := howned
  obtain ⟨writer, written, attributes, hlast, hattributes, hkeeps⟩ := hanswers.lasting owner howner
  obtain rfl : kept.attributes = attributes := Option.some.inj hattributes
  refine ⟨writer, written, hlast, hkeeps, fun _ => ⟨written, lastOf_of_getLast? hlast, hkeeps⟩, ?_⟩
  intro owner howner
  obtain ⟨own, hown⟩ := hanswers.written owner howner
  refine ⟨own, hown, fun hvouches key value other hvalue hother => ?_⟩
  obtain ⟨own', hown', hstands⟩ := hvouches
  obtain rfl : own = own' := Option.some.inj (hown.symm.trans hown')
  exact Option.some.inj ((hstands key value hvalue).symm.trans (hkeeps key other hother))

def webImage (id : String) : Entity :=
  ⟨"namedImage", "aws:namedImage:prod:web", [("imageId", .str id)], ∅⟩

def movedImage : List Operation :=
  [.replaceSource "namedImage" "prod/eu/ImageCachingAgent" [webImage "ami-eu"] .authoritative,
    .replaceSource "namedImage" "prod/us/ImageCachingAgent" [webImage "ami-us"] .authoritative,
    .replaceSource "namedImage" "prod/us/ImageCachingAgent" [] .authoritative]

def movedImageKept : Option Stored :=
  (Memory.after movedImage).kept "namedImage" "aws:namedImage:prod:web"

theorem movedImage_owners {kept : Stored} (h : movedImageKept = some kept) {owner : Atom}
    (howner : owner ∈ kept.owners) : (Atom.str "prod/eu/ImageCachingAgent" == owner) = true := by
  have hall : (movedImageKept.all fun kept =>
      kept.owners.toList.all (fun owner => .str "prod/eu/ImageCachingAgent" == owner)) = true := by decide +kernel
  rw [h] at hall
  obtain ⟨a, ha, hsame⟩ := (AtomSet.exists_mem_toList _ _).2 howner
  exact BEq.trans (List.all_eq_true.1 hall a ha) hsame

theorem movedImage_owned :
    ∃ kept, movedImageKept = some kept ∧ ∃ owner, owner ∈ kept.owners := by
  have howned : (movedImageKept.any fun kept => kept.owners.contains "prod/eu/ImageCachingAgent") = true := by
    decide +kernel
  obtain ⟨kept, hkept, hmem⟩ := (Option.any_eq_true _ _).1 howned
  exact ⟨kept, hkept, _, Std.ExtTreeSet.contains_iff_mem.1 hmem⟩

/-- The image of the region that is gone stands under the owner that is left. -/
theorem last_writer_values_stand_moved :
    ∃ kept, movedImageKept = some kept ∧ (∃ owner, owner ∈ kept.owners) ∧
      kept.attributes.lookup (.str "imageId") = some (.str "ami-us") := by
  obtain ⟨kept, hkept, howned⟩ := movedImage_owned
  obtain ⟨writer, written, hlast, hkeeps, -⟩ := last_writer_values_stand hkept howned
  have hmoved : (ownedWrites "namedImage" "aws:namedImage:prod:web" movedImage).getLast? =
      some (.str "prod/us/ImageCachingAgent", (webImage "ami-us").attributes) := rfl
  obtain ⟨-, rfl⟩ := Prod.mk.inj (Option.some.inj (hmoved.symm.trans hlast))
  exact ⟨kept, hkept, howned, hkeeps "imageId" (.str "ami-us") rfl⟩

/-- Not every owned entity has an owner that vouches for its attributes: the name that the second region has dropped
still leads to the image of that region. -/
theorem owner_without_own_values : ¬ ∀ (history : List Operation) (ns id : Atom) (kept : Stored),
    (Memory.after history).kept ns id = some kept → (∃ owner, owner ∈ kept.owners) →
      ∃ owner ∈ kept.owners, Vouches owner (ownedWrites ns id history) kept.attributes := by
  intro hall
  obtain ⟨kept, hkept, howned⟩ := movedImage_owned
  obtain ⟨owner, howner, own, hown, hkeeps⟩ := hall movedImage _ _ kept hkept howned
  have heu : lastOf owner (ownedWrites "namedImage" "aws:namedImage:prod:web" movedImage) =
      some (webImage "ami-eu").attributes := by
    rw [← lastOf_congr (movedImage_owners hkept howner)]
    rfl
  obtain rfl := Option.some.inj (heu.symm.trans hown)
  have hvalue : (movedImageKept.any fun kept =>
      (kept.attributes.lookup (.str "imageId")).bind Value.string? == some "ami-us") = true := by decide +kernel
  rw [hkept, Option.any_some, hkeeps "imageId" (.str "ami-eu") rfl] at hvalue
  revert hvalue
  decide

end FleetCache
