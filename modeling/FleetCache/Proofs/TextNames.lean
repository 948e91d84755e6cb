import Mathlib.Logic.Basic
import FleetCache.Proofs.EdgeSets
import FleetCache.Proofs.Sorting

set_option autoImplicit false

namespace FleetCache

def AtomSet.Textual (set : AtomSet) : Prop :=
  ∀ a ∈ set, a.isText = true

def Table.Textual {α : Type} (table : Table α) : Prop :=
  ∀ name ∈ table, name.isText = true

namespace AtomSet

theorem get?_of_textual {set : AtomSet} (h : set.Textual) {a : Atom} (ha : a ∈ set) : set.get? a = some a := by
  rw [Std.ExtTreeSet.get?_eq_some_get ha]
  have hsame : (set.get a ha == a) = true := (Atom.compare_eq_iff _ _).1 (Std.ExtTreeSet.compare_get_self ha)
  exact congrArg some (Atom.eq_of_beq_of_isText (h _ ((mem_congr set hsame).2 ha)) hsame)

theorem ext_of_textual {set other : AtomSet} (h : set.Textual) (hother : other.Textual)
    (hmem : ∀ a, a ∈ set ↔ a ∈ other) : set = other := by
  refine Std.ExtTreeSet.ext_get? (fun a => ?_)
  by_cases ha : a ∈ set
  · rw [get?_of_textual h ha, get?_of_textual hother ((hmem a).1 ha)]
  · rw [Std.ExtTreeSet.get?_eq_none ha, Std.ExtTreeSet.get?_eq_none (fun hin => ha ((hmem a).2 hin))]

end AtomSet

namespace Table

variable {α : Type}

theorem getKey?_of_textual {table : Table α} (h : table.Textual) {name : Atom} (hname : name ∈ table) :
    table.getKey? name = some name := by
  rw [Std.ExtTreeMap.getKey?_eq_some_getKey hname]
  have hsame : (table.getKey name hname == name) = true :=
    (Atom.compare_eq_iff _ _).1 (Std.ExtTreeMap.compare_getKey_self hname)
  exact congrArg some (Atom.eq_of_beq_of_isText (h _ ((mem_congr table hsame).2 hname)) hsame)

theorem ext_of_textual {table other : Table α} (h : table.Textual) (hother : other.Textual)
    (hget : ∀ name : Atom, table[name]? = other[name]?) : table = other := by
  have hmem (name : Atom) : name ∈ table ↔ name ∈ other := by
    rw [mem_iff, mem_iff, hget]
  refine eq_of_getKey?_of_getElem? (fun name => ?_) hget
  by_cases hname : name ∈ table
  · rw [getKey?_of_textual h hname, getKey?_of_textual hother ((hmem name).1 hname)]
  · rw [Std.ExtTreeMap.getKey?_eq_none hname, Std.ExtTreeMap.getKey?_eq_none (fun hin => hname ((hmem name).2 hin))]

theorem textual_put {table : Table α} (h : table.Textual) {name : Atom} (hname : name.isText = true) (a : α) :
    (table.put name a).Textual := by
  intro key hkey
  rcases (mem_put _ _ _ _).1 hkey with hsame | hkey
  · rwa [← Atom.eq_of_beq_of_isText hname hsame]
  · exact h key hkey

theorem textual_erase {table : Table α} (h : table.Textual) (name : Atom) : Textual (table.erase name) :=
  fun key hkey => h key ((mem_erase _ _ _).1 hkey).2

theorem isText_of_mem_toList {table : Table α} (h : table.Textual) {member : Atom × α} (hmem : member ∈ table.toList) :
    member.1.isText = true := by
  refine h member.1 ((mem_iff _ _).2 ⟨member.2, ?_⟩)
  exact (exists_mem_toList table member.1 member.2).1 ⟨member.1, BEq.rfl, hmem⟩

end Table

namespace Relations

structure Textual (relations : Relations) : Prop where
  names : ∀ ns ∈ relations, ns.isText = true
  ids : ∀ ns id, id ∈ relations.related ns → id.isText = true

theorem getElem?_eq_related {relations : Relations} {ns : Atom} (h : ns ∈ relations) :
    relations[ns]? = some (relations.related ns) := by
  obtain ⟨ids, hids⟩ := (Table.mem_iff _ _).1 h
  rw [related_eq, hids]
  rfl

theorem ext_of_textual {relations other : Relations} (h : relations.Textual) (hother : other.Textual)
    (hnames : ∀ ns, ns ∈ relations ↔ ns ∈ other)
    (hids : ∀ ns id, id ∈ relations.related ns ↔ id ∈ other.related ns) : relations = other := by
  refine Table.ext_of_textual h.names hother.names (fun ns => ?_)
  by_cases hns : ns ∈ relations
  · rw [getElem?_eq_related hns, getElem?_eq_related ((hnames ns).1 hns),
      AtomSet.ext_of_textual (h.ids ns) (hother.ids ns) (hids ns)]
  · rw [Std.ExtTreeMap.getElem?_eq_none hns, Std.ExtTreeMap.getElem?_eq_none (fun hin => hns ((hnames ns).2 hin))]

theorem mem_relateAll (relations : Relations) (groups : List (Atom × List Atom)) (ns : Atom) :
    ns ∈ relations.relateAll groups ↔ ns ∈ relations ∨ ∃ group ∈ groups, (group.1 == ns) = true := by
  induction groups generalizing relations with
  | nil => simp [relateAll]
  | cons group rest ih =>
    have hstep : relateAll relations (group :: rest) = relateAll (relations.relate group.1 group.2) rest := rfl
    rw [hstep, ih, relate, Table.mem_put]
    simp only [List.mem_cons, exists_eq_or_imp]
    constructor
    · rintro ((h | h) | h)
      · exact .inr (.inl h)
      · exact .inl h
      · exact .inr (.inr h)
    · rintro (h | h | h)
      · exact .inl (.inr h)
      · exact .inl (.inl h)
      · exact .inr h

def TextualGroups (groups : List (Atom × List Atom)) : Prop :=
  ∀ group ∈ groups, group.1.isText = true ∧ ∀ a ∈ group.2, a.isText = true

theorem textual_relateAll {relations : Relations} (h : relations.Textual) {groups : List (Atom × List Atom)}
    (hgroups : TextualGroups groups) : (relations.relateAll groups).Textual := by
  refine ⟨fun ns hns => ?_, fun ns id hid => ?_⟩
  · rcases (mem_relateAll _ _ _).1 hns with hold | ⟨group, hgroup, hsame⟩
    · exact h.names ns hold
    · rw [← Atom.eq_of_beq_of_isText (hgroups group hgroup).1 hsame]
      exact (hgroups group hgroup).1
  · rcases (mem_related_relateAll _ _ _ _).1 hid with hold | ⟨group, hgroup, -, a, ha, hsame⟩
    · exact h.ids ns id hold
    · rw [← Atom.eq_of_beq_of_isText ((hgroups group hgroup).2 a ha) hsame]
      exact (hgroups group hgroup).2 a ha

theorem textual_empty : Textual ∅ :=
  ⟨fun _ h => absurd h Std.ExtTreeMap.not_mem_empty, fun ns id h => absurd h (not_mem_related_empty ns id)⟩

theorem textual_groups {relations : Relations} (h : relations.Textual) : TextualGroups relations.groups := by
  intro group hgroup
  obtain ⟨⟨ns, ids⟩, hmem, rfl⟩ := List.mem_map.1 hgroup
  have hget := (Table.exists_mem_toList relations ns ids).1 ⟨ns, BEq.rfl, hmem⟩
  refine ⟨h.names ns ((Table.mem_iff _ _).2 ⟨ids, hget⟩), fun a ha => h.ids ns a ?_⟩
  rw [related_eq, hget]
  exact (AtomSet.exists_mem_toList ids a).1 ⟨a, ha, BEq.rfl⟩

theorem textual_union {relations other : Relations} (h : relations.Textual) (hother : other.Textual) :
    (relations.union other).Textual :=
  textual_relateAll h (textual_groups hother)

structure Lists (groups : List (Atom × List Atom)) (relations : Relations) : Prop where
  names : ∀ ns, (∃ group ∈ groups, (group.1 == ns) = true) ↔ ns ∈ relations
  ids : ∀ ns id, (∃ group ∈ groups, (group.1 == ns) = true ∧ ∃ a ∈ group.2, (a == id) = true) ↔
    id ∈ relations.related ns

theorem lists_groups (relations : Relations) : Lists relations.groups relations := by
  refine ⟨fun ns => ?_, mem_related_groups relations⟩
  rw [Table.mem_iff]
  constructor
  · rintro ⟨group, hgroup, hns⟩
    obtain ⟨⟨key, ids⟩, hmem, rfl⟩ := List.mem_map.1 hgroup
    exact ⟨ids, (Table.exists_mem_toList relations ns ids).1 ⟨key, hns, hmem⟩⟩
  · rintro ⟨ids, hids⟩
    obtain ⟨key, hns, hmem⟩ := (Table.exists_mem_toList relations ns ids).2 hids
    exact ⟨(key, ids.toList), List.mem_map.2 ⟨(key, ids), hmem, rfl⟩, hns⟩

theorem Lists.perm {groups other : List (Atom × List Atom)} {relations : Relations} (h : Lists groups relations)
    (hperm : groups.Perm other) : Lists other relations := by
  refine ⟨fun ns => ?_, fun ns id => ?_⟩
  · simp only [← h.names, hperm.mem_iff]
  · simp only [← h.ids, hperm.mem_iff]

theorem Lists.map {groups : List (Atom × List Atom)} {relations : Relations} (h : Lists groups relations)
    {f : List Atom → List Atom} (hf : ∀ ids id, (∃ a ∈ f ids, (a == id) = true) ↔ ∃ a ∈ ids, (a == id) = true) :
    Lists (groups.map (fun group => (group.1, f group.2))) relations := by
  refine ⟨fun ns => ?_, fun ns id => ?_⟩
  · simp only [← h.names, List.mem_map, exists_exists_and_eq_and]
  · simp only [← h.ids, List.mem_map, exists_exists_and_eq_and, hf]

theorem ofGroups_of_lists {groups : List (Atom × List Atom)} {relations : Relations} (h : Lists groups relations)
    (hgroups : TextualGroups groups) (hrelations : relations.Textual) : ofGroups groups = relations := by
  refine ext_of_textual (textual_relateAll textual_empty hgroups) hrelations (fun ns => ?_) (fun ns id => ?_)
  · rw [ofGroups, mem_relateAll, ← h.names]
    exact or_iff_right Std.ExtTreeMap.not_mem_empty
  · rw [ofGroups, mem_related_relateAll, ← h.ids]
    exact or_iff_right (not_mem_related_empty ns id)

end Relations

end FleetCache
