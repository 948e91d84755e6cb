import Mathlib.Data.List.Induction
import FleetCache.Proofs.AttributeHistories
import FleetCache.Proofs.EdgeSets

set_option autoImplicit false

namespace FleetCache

open FleetCache.Partition (withId)

def Operation.written (ns id : Atom) : Operation → List Entity
  | upsert ns' entities _ _ | replaceSource ns' _ entities _ => if ns' == ns then withId id entities else []
  | evict _ _ => []

namespace Stored

structure MadeOf (old : Option Stored) (written : List Entity) : Prop where
  values : ∀ attributes, attributesOf old = some attributes → ∀ key value, attributes.lookup key = some value →
    ∃ entity ∈ written, entity.attributes.lookup key = some value
  edges : ∀ source target other, other ∈ ((contributionsOf old).edgesOf source).related target →
    ∃ entity ∈ written, other ∈ entity.related target

variable {old : Option Stored} {written more : List Entity}

theorem madeOf_none (written : List Entity) : MadeOf none written where
  values _ hnone := nomatch hnone
  edges source target other hother := by
    rw [contributionsOf_none, Contributions.edgesOf_of_not_mem Std.ExtTreeMap.not_mem_empty] at hother
    exact absurd hother (Relations.not_mem_related_empty target other)

theorem MadeOf.append (h : MadeOf old written) (more : List Entity) : MadeOf old (written ++ more) where
  values attributes hattributes key value hvalue := by
    obtain ⟨entity, hentity, hfound⟩ := h.values attributes hattributes key value hvalue
    exact ⟨entity, List.mem_append_left _ hentity, hfound⟩
  edges source target other hother := by
    obtain ⟨entity, hentity, hfound⟩ := h.edges source target other hother
    exact ⟨entity, List.mem_append_left _ hentity, hfound⟩

theorem MadeOf.stored (h : MadeOf old written) (entity : Entity) (source : Atom) (authority : Authority) :
    MadeOf (some (Partition.stored old entity source authority)) (written ++ [entity]) where
  values attributes hattributes key value hvalue := by
    rw [attributesOf_stored, Option.some.injEq] at hattributes
    have hnew (hfound : entity.attributes.lookup key = some value) :
        ∃ other ∈ written ++ [entity], other.attributes.lookup key = some value :=
      ⟨entity, List.mem_append_right _ List.mem_cons_self, hfound⟩
    -- an authoritative write replaces the attributes, an informative one fills in what they lack
    cases authority with
    | authoritative =>
      obtain rfl : entity.attributes = attributes := hattributes
      exact hnew hvalue
    | informative =>
      change Attributes.fillAll _ entity.attributes = attributes at hattributes
      rw [← hattributes, Attributes.lookup_fillAll, Option.or_eq_some_iff] at hvalue
      rcases hvalue with hbase | ⟨-, hadded⟩
      · cases hold : attributesOf old with
        | none =>
          rw [hold] at hbase
          exact hnew hbase
        | some before =>
          rw [hold] at hbase
          exact (h.append [entity]).values before hold key value hbase
      · exact hnew hadded
  edges source' target other hother := by
    rw [contributionsOf_stored, Contributions.edgesOf_contribute] at hother
    split at hother
    · rcases (Relations.mem_related_union _ _ _ _).1 hother with hold | hnew
      · exact (h.append [entity]).edges source' target other hold
      · exact ⟨entity, List.mem_append_right _ List.mem_cons_self, hnew⟩
    · exact (h.append [entity]).edges source' target other hother

theorem MadeOf.storedAll (h : MadeOf old written) (source : Atom) (authority : Authority) (entities : List Entity) :
    MadeOf (Partition.storedAll source authority old entities) (written ++ entities) := by
  induction entities generalizing old written with
  | nil =>
    rw [List.append_nil]
    exact h
  | cons entity rest ih =>
    have hrest := ih (h.stored entity source authority)
    rwa [List.append_assoc] at hrest

theorem MadeOf.withoutSource (h : MadeOf old written) (source : Atom) (returning : Bool) :
    MadeOf (old.bind (Partition.withoutSource source returning)) written := by
  cases hleft : old.bind (Partition.withoutSource source returning) with
  | none => exact madeOf_none written
  | some left =>
    obtain ⟨kept, rfl, hkept⟩ := Option.bind_eq_some_iff.1 hleft
    obtain ⟨-, -, rfl⟩ := Partition.withoutSource_eq_some.1 hkept
    refine ⟨h.values, fun source' target other hother => ?_⟩
    change other ∈ (Contributions.edgesOf (kept.contributions.erase source) source').related target at hother
    rw [Contributions.edgesOf_erase] at hother
    split at hother
    · exact absurd hother (Relations.not_mem_related_empty target other)
    · exact h.edges source' target other hother

theorem MadeOf.onKept (h : MadeOf old written) {op : Operation} {ns : Atom} (hns : (op.ns == ns) = true) (id : Atom) :
    MadeOf (op.onKept id old) (written ++ op.written ns id) := by
  cases op with
  | upsert ns' entities source authority =>
    change (ns' == ns) = true at hns
    rw [Operation.written, if_pos hns]
    exact h.storedAll source authority (withId id entities)
  | replaceSource ns' source entities authority =>
    change (ns' == ns) = true at hns
    rw [Operation.written, if_pos hns]
    exact (h.withoutSource source _).storedAll source authority (withId id entities)
  | evict ns' ids =>
    change MadeOf (if ids.contains id then none else old) _
    split
    · exact madeOf_none _
    · exact h.append _

end Stored

theorem madeOf_after (history : List Operation) (ns id : Atom) :
    Stored.MadeOf ((Memory.after history).kept ns id) (history.flatMap (Operation.written ns id)) := by
  -- on the last operation, as the writes are listed up to it
  induction history using List.reverseRecOn with
  | nil =>
    rw [Memory.after, Memory.applyAll, List.foldl_nil, Memory.kept_empty]
    exact Stored.madeOf_none _
  | append_singleton history op ih =>
    rw [Memory.after_concat, op.kept_apply (Memory.after_sound history), List.flatMap_append, List.flatMap_singleton]
    split
    · rename_i hns
      exact ih.onKept hns id
    · exact ih.append _

theorem Memory.exists_written_of_lookup {history : List Operation} {ns id : Atom} {found : Entity}
    (hfound : (Memory.after history).get ns id = some found) {key : Atom} {value : Value}
    (h : found.attributes.lookup key = some value) :
    ∃ op ∈ history, ∃ entity ∈ op.written ns id, entity.attributes.lookup key = some value := by
  rw [Memory.get_eq, Option.map_eq_some_iff] at hfound
  obtain ⟨kept, hkept, rfl⟩ := hfound
  have hmade := madeOf_after history ns id
  rw [hkept] at hmade
  obtain ⟨entity, hentity, hvalue⟩ := hmade.values kept.attributes rfl key value h
  obtain ⟨op, hop, hwritten⟩ := List.mem_flatMap.1 hentity
  exact ⟨op, hop, entity, hwritten, hvalue⟩

theorem Memory.exists_written_of_related {history : List Operation} {ns id : Atom} {found : Entity}
    (hfound : (Memory.after history).get ns id = some found) {target other : Atom} (h : other ∈ found.related target) :
    ∃ op ∈ history, ∃ entity ∈ op.written ns id, other ∈ entity.related target := by
  rw [Memory.get_eq, Option.map_eq_some_iff] at hfound
  obtain ⟨kept, hkept, rfl⟩ := hfound
  have hmade := madeOf_after history ns id
  rw [hkept] at hmade
  obtain ⟨source, hsource⟩ := (Contributions.mem_related_merged kept.contributions target other).1 h
  obtain ⟨entity, hentity, hrelated⟩ := hmade.edges source target other hsource
  obtain ⟨op, hop, hwritten⟩ := List.mem_flatMap.1 hentity
  exact ⟨op, hop, entity, hwritten, hrelated⟩

end FleetCache
