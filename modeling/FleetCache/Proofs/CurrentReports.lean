import Mathlib.Data.List.Induction
import FleetCache.Proofs.EdgeSets
import FleetCache.Proofs.Histories

set_option autoImplicit false

namespace FleetCache

open FleetCache.Partition (withId)

namespace Operation

def Authoritative : Operation → Prop
  | upsert _ _ _ authority => authority = .authoritative
  | replaceSource _ _ _ authority => authority = .authoritative
  | evict _ _ => False

/-- What a source reports in a namespace after an operation: its full replacement starts the report anew,
and what it adds extends it. -/
def extendReport (ns source : Atom) (report : List Entity) : Operation → List Entity
  | upsert ns' entities source' _ => if ns' == ns && source' == source then report ++ entities else report
  | replaceSource ns' source' entities _ => if ns' == ns && source' == source then entities else report
  | evict _ _ => report

end Operation

/-- What a source reports in a namespace after a history. -/
def currentReport (ns source : Atom) (history : List Operation) : List Entity :=
  history.foldl (Operation.extendReport ns source) []

theorem currentReport_concat (ns source : Atom) (history : List Operation) (op : Operation) :
    currentReport ns source (history ++ [op]) = op.extendReport ns source (currentReport ns source history) := by
  rw [currentReport, List.foldl_append]
  rfl

namespace Stored

/-- What is kept of an entity follows the reports on it: the sources with a report are its contributors and
its owners, and contribute the edges that they report. -/
structure Follows (old : Option Stored) (report : Atom → List Entity) : Prop where
  contributed : ∀ source, source ∈ contributionsOf old ↔ report source ≠ []
  owned : ∀ source, source ∈ contributionsOf old → source ∈ ownersOf old
  related : ∀ source ns id, id ∈ ((contributionsOf old).edgesOf source).related ns ↔
    ∃ entity ∈ report source, id ∈ entity.related ns

theorem follows_none {report : Atom → List Entity} (h : ∀ source, report source = []) :
    Follows none report where
  contributed source := by
    rw [contributionsOf_none, h]
    simp
  owned source hsource := absurd hsource Std.ExtTreeMap.not_mem_empty
  related source ns id := by
    rw [contributionsOf_none, Contributions.edgesOf_of_not_mem Std.ExtTreeMap.not_mem_empty, h]
    simp [Relations.not_mem_related_empty]

theorem Follows.eq_nil {report : Atom → List Entity} (h : Follows none report) (source : Atom) :
    report source = [] :=
  Decidable.byContradiction fun hne => Std.ExtTreeMap.not_mem_empty ((h.contributed source).2 hne)

theorem ownersOf_stored_authoritative (old : Option Stored) (entity : Entity) (source : Atom) :
    ownersOf (some (Partition.stored old entity source .authoritative)) = (ownersOf old).insert source := by
  cases old <;> rfl

theorem Follows.stored {old : Option Stored} {report : Atom → List Entity} (h : Follows old report)
    (entity : Entity) (source : Atom) :
    Follows (some (Partition.stored old entity source .authoritative))
      (fun other => if source == other then report other ++ [entity] else report other) where
  contributed other := by
    rw [contributionsOf_stored, Contributions.mem_contribute, h.contributed]
    by_cases hs : (source == other) = true <;> simp [hs]
  owned other hother := by
    rw [contributionsOf_stored, Contributions.mem_contribute] at hother
    rw [ownersOf_stored_authoritative, AtomSet.mem_insert]
    exact hother.imp_right (h.owned other)
  related other ns id := by
    rw [contributionsOf_stored, Contributions.edgesOf_contribute]
    by_cases hs : (source == other) = true
    · rw [if_pos hs, if_pos hs, Relations.mem_related_union, h.related]
      simp only [List.mem_append, List.mem_singleton, or_and_right, exists_or, exists_eq_left]
      rfl
    · rw [if_neg hs, if_neg hs, h.related]

theorem Follows.storedAll {old : Option Stored} {report : Atom → List Entity} (h : Follows old report)
    (source : Atom) (entities : List Entity) :
    Follows (Partition.storedAll source .authoritative old entities)
      (fun other => if source == other then report other ++ entities else report other) := by
  induction entities generalizing old report with
  | nil =>
    change Follows old _
    simpa using h
  | cons entity rest ih =>
    have hrest := ih (h.stored entity source)
    have hreport : (fun other => if source == other then
        (if source == other then report other ++ [entity] else report other) ++ rest
        else if source == other then report other ++ [entity] else report other) =
        fun other => if source == other then report other ++ entity :: rest else report other := by
      funext other
      by_cases hs : (source == other) = true <;> simp [hs]
    rw [hreport] at hrest
    exact hrest

/-- Without a source that is not the only contributor something is kept, since every contributor is an
owner. -/
theorem Follows.withoutSource_isSome {kept : Stored} {report : Atom → List Entity}
    (h : Follows (some kept) report) {source other : Atom} (hother : other ∈ kept.contributions.erase source)
    (returning : Bool) :
    Partition.withoutSource source returning kept =
      some ⟨kept.attributes, kept.contributions.erase source, kept.owners.erase source⟩ := by
  refine Partition.withoutSource_eq_some.2 ⟨Contributions.isEmpty_eq_false hother, fun _ hempty => ?_, rfl⟩
  obtain ⟨hne, hmem⟩ := (Table.mem_erase _ _ _).1 hother
  have howner : other ∈ kept.owners.erase source := (AtomSet.mem_erase _ _ _).2 ⟨hne, h.owned other hmem⟩
  rw [Std.ExtTreeSet.isEmpty_iff.1 hempty] at howner
  exact absurd howner Std.ExtTreeSet.not_mem_empty

theorem Follows.erase {kept : Stored} {report : Atom → List Entity} (h : Follows (some kept) report) (source : Atom) :
    Follows (some ⟨kept.attributes, kept.contributions.erase source, kept.owners.erase source⟩)
      (fun other => if source == other then [] else report other) := by
  refine ⟨fun other => ?_, fun other hother => ?_, fun other ns id => ?_⟩
  · change other ∈ kept.contributions.erase source ↔ _
    rw [Table.mem_erase]
    have := h.contributed other
    change other ∈ kept.contributions ↔ _ at this
    by_cases hs : (source == other) = true <;> simp [hs, this]
  · obtain ⟨hne, hmem⟩ := (Table.mem_erase _ _ _).1 hother
    exact (AtomSet.mem_erase _ _ _).2 ⟨hne, h.owned other hmem⟩
  · change id ∈ (Contributions.edgesOf (kept.contributions.erase source) other).related ns ↔ _
    rw [Contributions.edgesOf_erase]
    by_cases hs : (source == other) = true
    · simp [hs, Relations.not_mem_related_empty]
    · rw [if_neg hs, if_neg hs]
      exact h.related other ns id

theorem Follows.withoutSource {old : Option Stored} {report : Atom → List Entity} (h : Follows old report)
    (source : Atom) (returning : Bool) :
    Follows (old.bind (Partition.withoutSource source returning))
      (fun other => if source == other then [] else report other) := by
  cases old with
  | none =>
    refine follows_none (fun other => ?_)
    rw [h.eq_nil, ite_self]
  | some kept =>
    rw [Option.bind_some]
    by_cases hothers : ∃ other, other ∈ kept.contributions.erase source
    · obtain ⟨other, hother⟩ := hothers
      rw [h.withoutSource_isSome hother]
      exact h.erase source
    -- without another contributor the entity goes, and no report on it is left
    · have hnone : Partition.withoutSource source returning kept = none := by
        refine Option.eq_none_iff_forall_not_mem.2 (fun left hleft => hothers ?_)
        exact Contributions.exists_mem_of_isEmpty (Partition.withoutSource_eq_some.1 hleft).1
      rw [hnone]
      refine follows_none (fun other => ?_)
      split
      · rfl
      · rename_i hs
        refine Decidable.byContradiction fun hne => hothers ⟨other, ?_⟩
        exact (Table.mem_erase _ _ _).2 ⟨by simpa using hs, (h.contributed other).2 hne⟩

theorem Follows.replaced {old : Option Stored} {report : Atom → List Entity} (h : Follows old report)
    (source : Atom) (entities : List Entity) :
    Follows (Partition.replaced source .authoritative old entities)
      (fun other => if source == other then entities else report other) := by
  have hall := (h.withoutSource source !entities.isEmpty).storedAll source entities
  have hreport : (fun other => if source == other then (if source == other then [] else report other) ++ entities
      else if source == other then [] else report other) =
      fun other => if source == other then entities else report other := by
    funext other
    by_cases hs : (source == other) = true <;> simp [hs]
  rw [hreport] at hall
  exact hall

theorem Follows.onKept {old : Option Stored} {op : Operation} (hop : op.Authoritative) {ns id : Atom}
    (hns : (op.ns == ns) = true) {report : Atom → List Entity}
    (h : Follows old (fun source => withId id (report source))) :
    Follows (op.onKept id old) (fun source => withId id (op.extendReport ns source (report source))) := by
  cases op with
  | evict ns ids => exact hop.elim
  | upsert ns' entities source authority =>
    obtain rfl : authority = .authoritative := hop
    have hnext := h.storedAll source (withId id entities)
    have hreport : (fun other => if source == other then withId id (report other) ++ withId id entities
        else withId id (report other)) =
        fun other => withId id (Operation.extendReport ns other (report other)
          (.upsert ns' entities source .authoritative)) := by
      funext other
      change (ns' == ns) = true at hns
      by_cases hs : (source == other) = true <;> simp [Operation.extendReport, hns, hs, withId]
    rw [hreport] at hnext
    exact hnext
  | replaceSource ns' source entities authority =>
    obtain rfl : authority = .authoritative := hop
    have hnext := h.replaced source (withId id entities)
    have hreport : (fun other => if source == other then withId id entities else withId id (report other)) =
        fun other => withId id (Operation.extendReport ns other (report other)
          (.replaceSource ns' source entities .authoritative)) := by
      funext other
      change (ns' == ns) = true at hns
      by_cases hs : (source == other) = true <;> simp [Operation.extendReport, hns, hs]
    rw [hreport] at hnext
    exact hnext

end Stored

theorem Operation.extendReport_of_ne {op : Operation} {ns : Atom} (h : (op.ns == ns) = false) (source : Atom)
    (report : List Entity) : op.extendReport ns source report = report := by
  cases op with
  | upsert ns' entities source' authority =>
    change (ns' == ns) = false at h
    simp [extendReport, h]
  | replaceSource ns' source' entities authority =>
    change (ns' == ns) = false at h
    simp [extendReport, h]
  | evict ns' ids => rfl

theorem follows_currentReport {history : List Operation} {ns : Atom}
    (h : ∀ op ∈ history, (op.ns == ns) = true → op.Authoritative) (id : Atom) :
    Stored.Follows ((Memory.after history).kept ns id)
      (fun source => withId id (currentReport ns source history)) := by
  -- on the last operation, as a report is extended at its end
  induction history using List.reverseRecOn with
  | nil => exact Memory.kept_empty ns id ▸ Stored.follows_none (fun source => rfl)
  | append_singleton history op ih =>
    have hhistory := ih (fun op hop => h op (List.mem_append_left _ hop))
    simp only [currentReport_concat]
    rw [Memory.after_concat, op.kept_apply (Memory.after_sound history)]
    split
    · rename_i hns
      exact hhistory.onKept (h op (by simp) hns) hns
    · rename_i hns
      simpa [Operation.extendReport_of_ne (by simpa using hns)] using hhistory

theorem withId_ne_nil (id : Atom) (entities : List Entity) :
    withId id entities ≠ [] ↔ ∃ entity ∈ entities, (entity.id == id) = true := by
  rw [ne_eq, ← List.isEmpty_iff, Bool.not_eq_true, List.isEmpty_eq_false_iff_exists_mem]
  simp only [withId, List.mem_filter]

/-- In a namespace that is only written with authority, an id is stored when some source currently reports
it, and its edges are those that the current reports on it give together. -/
theorem stored_iff_currently_reported {history : List Operation} {ns : Atom}
    (h : ∀ op ∈ history, (op.ns == ns) = true → op.Authoritative) (id : Atom) :
    (((Memory.after history).get ns id).isSome = true ↔
      ∃ source, ∃ entity ∈ currentReport ns source history, (entity.id == id) = true) ∧
    ∀ found, (Memory.after history).get ns id = some found → ∀ target other,
      other ∈ found.related target ↔ ∃ source, ∃ entity ∈ currentReport ns source history,
        (entity.id == id) = true ∧ other ∈ entity.related target := by
  have hfollows := follows_currentReport h id
  rw [Memory.get_eq, Option.isSome_map]
  cases hkept : (Memory.after history).kept ns id with
  | none =>
    rw [hkept] at hfollows
    refine ⟨⟨fun habsent => by simp at habsent, fun ⟨source, hsource⟩ => ?_⟩, fun found hfound => by simp at hfound⟩
    exact absurd (hfollows.eq_nil source) ((withId_ne_nil _ _).2 hsource)
  | some kept =>
    rw [hkept] at hfollows
    constructor
    · obtain ⟨source, hsource⟩ := ((Memory.after_sound history).kept hkept).contributed
      have hreport := (hfollows.contributed source).1 hsource
      exact iff_of_true rfl ⟨source, (withId_ne_nil _ _).1 hreport⟩
    · intro found hfound target other
      obtain rfl : kept.toEntity ns id = found := by simpa using hfound
      change other ∈ kept.contributions.merged.related target ↔ _
      rw [Contributions.mem_related_merged]
      refine exists_congr fun source => (hfollows.related source target other).trans ?_
      simp only [withId, List.mem_filter, and_assoc]

/-- An image that a first source has stopped reporting stays through a second one. -/
theorem stored_of_second_report :
    let image : Entity := ⟨"image", "ami-1", [], Relations.ofGroups [("cluster", ["web"])]⟩
    let history : List Operation :=
      [.replaceSource "image" "east" [image, image] .authoritative, .upsert "image" [image] "west" .authoritative,
        .upsert "cluster" [image] "east" .informative, .replaceSource "image" "east" [] .authoritative]
    (∀ op ∈ history, (op.ns == "image") = true → op.Authoritative) ∧
      ((Memory.after history).get "image" "ami-1").isSome = true := by
  intro image history
  have hwrites : ∀ op ∈ history, (op.ns == "image") = true → op.Authoritative := by
    simp [history, Operation.Authoritative, Operation.ns]
    decide
  have hreport : currentReport "image" "west" history = [image] := rfl
  exact ⟨hwrites, (stored_iff_currently_reported hwrites "ami-1").1.2
    ⟨"west", image, hreport ▸ List.mem_singleton_self image, rfl⟩⟩

end FleetCache
