import FleetCache.Cache.Memory

set_option autoImplicit false

namespace FleetCache

theorem AtomSet.exists_mem_toList (set : AtomSet) (id : Atom) :
    (∃ a ∈ set.toList, (a == id) = true) ↔ id ∈ set := by
  rw [← Std.ExtTreeSet.contains_iff_mem, ← Std.ExtTreeSet.contains_toList, List.contains_iff_exists_mem_beq]
  exact ⟨fun ⟨a, hmem, h⟩ => ⟨a, hmem, BEq.symm h⟩, fun ⟨a, hmem, h⟩ => ⟨a, hmem, BEq.symm h⟩⟩

theorem Table.exists_mem_toList {α : Type} (table : Table α) (name : Atom) (a : α) :
    (∃ key, (key == name) = true ∧ (key, a) ∈ table.toList) ↔ table[name]? = some a := by
  rw [Std.ExtTreeMap.getElem?_eq_some_iff_exists_compare_eq_eq_and_mem_toList]
  refine exists_congr fun key => and_congr_left fun _ => ?_
  rw [Atom.compare_eq_iff, BEq.comm]

namespace Relations

theorem related_eq (relations : Relations) (ns : Atom) : relations.related ns = relations[ns]?.getD ∅ :=
  Std.ExtTreeMap.getD_eq_getD_getElem?

theorem not_mem_related_empty (ns id : Atom) : id ∉ (∅ : Relations).related ns := by
  rw [related_eq, Std.ExtTreeMap.getElem?_empty]
  exact Std.ExtTreeSet.not_mem_empty

theorem mem_related (relations : Relations) (ns id : Atom) :
    id ∈ relations.related ns ↔ ∃ ids, relations[ns]? = some ids ∧ id ∈ ids := by
  rw [related_eq]
  cases h : relations[ns]? with
  | none => simp
  | some ids => simp

theorem mem_related_groups (relations : Relations) (ns id : Atom) :
    (∃ group ∈ relations.groups, (group.1 == ns) = true ∧ ∃ a ∈ group.2, (a == id) = true) ↔
      id ∈ relations.related ns := by
  rw [mem_related]
  constructor
  · rintro ⟨group, hgroup, hns, hid⟩
    obtain ⟨⟨key, ids⟩, hmem, rfl⟩ := List.mem_map.1 hgroup
    exact ⟨ids, (Table.exists_mem_toList relations ns ids).1 ⟨key, hns, hmem⟩,
      (AtomSet.exists_mem_toList ids id).1 hid⟩
  · rintro ⟨ids, hids, hid⟩
    obtain ⟨key, hns, hmem⟩ := (Table.exists_mem_toList relations ns ids).2 hids
    exact ⟨(key, ids.toList), List.mem_map.2 ⟨(key, ids), hmem, rfl⟩, hns,
      (AtomSet.exists_mem_toList ids id).2 hid⟩

theorem mem_related_union (relations other : Relations) (ns id : Atom) :
    id ∈ (relations.union other).related ns ↔ id ∈ relations.related ns ∨ id ∈ other.related ns := by
  rw [union, mem_related_relateAll, mem_related_groups]

theorem mem_related_foldl_union (parts : List (Atom × Relations)) (relations : Relations) (ns id : Atom) :
    id ∈ (parts.foldl (fun acc part => acc.union part.2) relations).related ns ↔
      id ∈ relations.related ns ∨ ∃ part ∈ parts, id ∈ part.2.related ns := by
  induction parts generalizing relations with
  | nil => simp
  | cons part rest ih =>
    rw [List.foldl_cons, ih, mem_related_union]
    simp only [List.mem_cons, exists_eq_or_imp, or_assoc]

end Relations

namespace Contributions

def edgesOf (contributions : Contributions) (source : Atom) : Relations :=
  contributions.getD source ∅

theorem edgesOf_eq (contributions : Contributions) (source : Atom) :
    contributions.edgesOf source = contributions[source]?.getD ∅ :=
  Std.ExtTreeMap.getD_eq_getD_getElem?

theorem edgesOf_of_not_mem {contributions : Contributions} {source : Atom} (h : source ∉ contributions) :
    contributions.edgesOf source = ∅ :=
  Std.ExtTreeMap.getD_eq_fallback h

theorem edgesOf_erase (contributions : Contributions) (source other : Atom) :
    edgesOf (contributions.erase source) other =
      if source == other then ∅ else contributions.edgesOf other := by
  rw [edgesOf_eq, edgesOf_eq, Table.getElem?_erase]
  split <;> rfl

theorem edgesOf_contribute (contributions : Contributions) (source other : Atom) (relations : Relations) :
    (contributions.contribute source relations).edgesOf other =
      if source == other then (contributions.edgesOf other).union relations
      else contributions.edgesOf other := by
  rw [edgesOf_eq, contribute, Table.getElem?_put]
  split
  · rename_i h
    rw [edgesOf, Std.ExtTreeMap.getD_congr ((Atom.compare_eq_iff _ _).2 h)]
    rfl
  · exact (edgesOf_eq contributions other).symm

theorem mem_related_merged (contributions : Contributions) (ns id : Atom) :
    id ∈ contributions.merged.related ns ↔ ∃ source, id ∈ (contributions.edgesOf source).related ns := by
  rw [merged, Std.ExtTreeMap.foldl_eq_foldl_toList, Relations.mem_related_foldl_union]
  constructor
  · rintro (hnone | ⟨⟨key, relations⟩, hmem, hid⟩)
    · exact absurd hnone (Relations.not_mem_related_empty ns id)
    · refine ⟨key, ?_⟩
      rw [edgesOf_eq, (Table.exists_mem_toList contributions key relations).1 ⟨key, BEq.rfl, hmem⟩]
      exact hid
  · rintro ⟨source, hid⟩
    cases hsource : contributions[source]? with
    | none =>
      rw [edgesOf_eq, hsource] at hid
      exact absurd hid (Relations.not_mem_related_empty ns id)
    | some relations =>
      rw [edgesOf_eq, hsource] at hid
      obtain ⟨key, -, hmem⟩ := (Table.exists_mem_toList contributions source relations).2 hsource
      exact .inr ⟨(key, relations), hmem, hid⟩

end Contributions

end FleetCache
