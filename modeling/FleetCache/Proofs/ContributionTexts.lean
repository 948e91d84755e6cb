import FleetCache.Cache.Graph
import FleetCache.Proofs.JsonOrder
import FleetCache.Proofs.TextNames

set_option autoImplicit false

namespace FleetCache

open FleetCache.Json

theorem exists_mem_eraseDups (items : List Atom) (id : Atom) :
    (∃ a ∈ items.eraseDups, (a == id) = true) ↔ ∃ a ∈ items, (a == id) = true := by
  induction items using eraseDups_induction with
  | nil => simp
  | cons head rest ih =>
    rw [List.eraseDups_cons]
    simp only [List.mem_cons, exists_eq_or_imp, ih, List.mem_filter]
    constructor
    · rintro (h | ⟨a, ⟨ha, -⟩, h⟩)
      · exact .inl h
      · exact .inr ⟨a, ha, h⟩
    · rintro (h | ⟨a, ha, h⟩)
      · exact .inl h
      · cases hhead : a == head with
        | true => exact .inl (BEq.trans (BEq.symm hhead) h)
        | false => exact .inr ⟨a, ⟨ha, by simp [hhead]⟩, h⟩

theorem pairwise_eraseDups (items : List Atom) : items.eraseDups.Pairwise (fun a b => (a == b) = false) := by
  induction items using eraseDups_induction with
  | nil => exact List.Pairwise.nil
  | cons head rest ih =>
    rw [List.eraseDups_cons]
    refine List.pairwise_cons.2 ⟨fun b hb => ?_, ih⟩
    obtain ⟨a, ha, hsame⟩ := (exists_mem_eraseDups _ b).1 ⟨b, hb, BEq.rfl⟩
    have hother := (List.mem_filter.1 ha).2
    rw [BEq.congr_left hsame, Bool.not_eq_true', BEq.comm] at hother
    exact hother

namespace Relations

def listed (groups : List (Atom × List Atom)) : Attributes :=
  groups.map (fun group => (group.1, .list (group.2.map .atom)))

def orderedGroups (relations : Relations) : List (Atom × List Atom) :=
  (inOrder relations.groups).map (fun group => (group.1, sortedTexts group.2))

theorem toValue_eq {relations : Relations} (h : relations.Textual) :
    relations.toValue = .ok (.object (listed (orderedGroups relations))) := by
  have hgroups := textual_groups h
  have hids (group : Atom × List Atom) (hgroup : group ∈ inOrder relations.groups) :
      (do return (group.1, Value.list (← sortAtoms group.2)) : Except Fault (Atom × Value)) =
        .ok (group.1, .list ((sortedTexts group.2).map .atom)) := by
    rw [sortAtoms_eq (hgroups group ((inOrder_perm _).mem_iff.1 hgroup)).2]
    rfl
  rw [toValue, sortMembers_eq (fun group hgroup => (hgroups group hgroup).1)]
  change ((inOrder relations.groups).mapM (fun group => (do
    return (group.1, Value.list (← sortAtoms group.2)) : Except Fault (Atom × Value))) >>= _) = _
  rw [mapM_eq_map hids, listed, orderedGroups, List.map_map]
  rfl

theorem textual_orderedGroups {relations : Relations} (h : relations.Textual) :
    TextualGroups (orderedGroups relations) := by
  intro group hgroup
  obtain ⟨group', hgroup', rfl⟩ := List.mem_map.1 hgroup
  have htext := textual_groups h group' ((inOrder_perm _).mem_iff.1 hgroup')
  exact ⟨htext.1, fun a ha => htext.2 a ((sortedTexts_perm _).mem_iff.1 ha)⟩

theorem lists_orderedGroups (relations : Relations) : Lists (orderedGroups relations) relations := by
  refine ((lists_groups relations).perm (inOrder_perm _).symm).map (fun ids id => ?_)
  simp only [(sortedTexts_perm ids).mem_iff]

theorem distinctNames_toList {α : Type} (table : Table α) : DistinctNames table.toList := by
  refine Std.ExtTreeMap.distinct_keys_toList.imp (fun hne => ?_)
  rw [Atom.compare_eq_iff, Bool.not_eq_true] at hne
  exact hne

theorem distinctNames_orderedGroups (relations : Relations) : DistinctNames (orderedGroups relations) := by
  have hgroups : DistinctNames relations.groups := List.pairwise_map.2 (distinctNames_toList relations)
  have hordered : DistinctNames (inOrder relations.groups) := hgroups.perm (inOrder_perm _).symm
  exact List.pairwise_map.2 hordered

theorem plain_listed {groups : List (Atom × List Atom)} (hdistinct : DistinctNames groups)
    (h : TextualGroups groups) : Plain (.object (listed groups)) := by
  have hnames : DistinctNames (listed groups) := List.pairwise_map.2 hdistinct
  refine (plain_object _).2 ⟨hnames, fun m hm => ?_⟩
  obtain ⟨group, hgroup, rfl⟩ := List.mem_map.1 hm
  refine ⟨(h group hgroup).1, (plain_list _).2 (fun v hv => ?_)⟩
  obtain ⟨a, ha, rfl⟩ := List.mem_map.1 hv
  obtain ⟨s, rfl⟩ := (Atom.isText_iff a).1 ((h group hgroup).2 a ha)
  trivial

theorem canonicalMembers_listed {groups : List (Atom × List Atom)} :
    canonicalMembers (listed groups) = listed (inOrder groups) := by
  have hfixed : ∀ m ∈ listed groups, canonical m.2 = m.2 := by
    intro m hm
    obtain ⟨group, -, rfl⟩ := List.mem_map.1 hm
    refine canonical_of_ordered ?_
    rw [ordered, orderedItems_eq, mapM_eq_map (g := id), List.map_id]
    · rfl
    · intro v hv
      obtain ⟨a, -, rfl⟩ := List.mem_map.1 hv
      rfl
  rw [canonicalMembers_of_canonical hfixed]
  exact inOrder_map (fun ids => Value.list (ids.map .atom)) groups

def shown (relations : Relations) : Value :=
  .object (listed (inOrder (orderedGroups relations)))

theorem canonical_toValue {relations : Relations} (h : relations.Textual) :
    canonical (.object (listed (orderedGroups relations))) = shown relations := by
  have hplain := (plain_object _).1 (plain_listed (distinctNames_orderedGroups relations) (textual_orderedGroups h))
  rw [canonical_object hplain.2, canonicalMembers_listed, shown]

theorem groupsOf_listed (groups : List (Atom × List Atom)) :
    groupsOf (.object (listed groups)) = .ok (groups.map (fun group => (group.1, group.2.eraseDups))) := by
  have hset (ids : List Atom) : (Value.list (ids.map .atom)).toSet = .ok ids.eraseDups := by
    have hatoms : (ids.map Value.atom).mapM Value.toAtom = .ok ids := by
      rw [List.mapM_map]
      exact (mapM_eq_map (g := id) (fun a _ => rfl)).trans (congrArg Except.ok (List.map_id ids))
    change (((ids.map Value.atom).mapM Value.toAtom).map distinctAtoms) = _
    rw [hatoms]
    rfl
  change (listed groups).mapM (fun member => (do
    return (member.1, ← member.2.toSet) : Except Fault (Atom × List Atom))) = _
  rw [listed, List.mapM_map]
  refine mapM_eq_map (fun group _ => ?_)
  change (do return (group.1, ← (Value.list (group.2.map .atom)).toSet) : Except Fault (Atom × List Atom)) = _
  rw [hset]
  rfl

theorem ofGroups_groupsOf_shown {relations : Relations} (h : relations.Textual) :
    (groupsOf relations.shown).map ofGroups = .ok relations := by
  rw [shown, groupsOf_listed]
  refine congrArg Except.ok (ofGroups_of_lists ?_ ?_ h)
  · exact ((lists_orderedGroups relations).perm (inOrder_perm _).symm).map exists_mem_eraseDups
  · intro group hgroup
    obtain ⟨group', hgroup', rfl⟩ := List.mem_map.1 hgroup
    have htext := textual_orderedGroups h group' ((inOrder_perm _).mem_iff.1 hgroup')
    refine ⟨htext.1, fun a ha => ?_⟩
    obtain ⟨b, hb, hsame⟩ := (exists_mem_eraseDups _ a).1 ⟨a, ha, BEq.rfl⟩
    exact Atom.eq_of_beq_of_isText (htext.2 b hb) hsame ▸ htext.2 b hb

end Relations

namespace Table

variable {α : Type}

def ofList (members : List (Atom × α)) : Table α :=
  members.foldl (fun acc member => acc.put member.1 member.2) ∅

theorem getElem?_foldl_put_of_not_mem {members : List (Atom × α)} {name : Atom}
    (h : ∀ member ∈ members, (member.1 == name) = false) (table : Table α) :
    (members.foldl (fun acc member => put acc member.1 member.2) table)[name]? = table[name]? := by
  induction members generalizing table with
  | nil => rfl
  | cons member rest ih =>
    obtain ⟨hmember, hrest⟩ := List.forall_mem_cons.1 h
    rw [List.foldl_cons, ih hrest, getElem?_put, hmember]
    rfl

theorem getElem?_foldl_put_of_mem {members : List (Atom × α)} (hdistinct : DistinctNames members)
    {member : Atom × α} (hmem : member ∈ members) {name : Atom} (hname : (member.1 == name) = true)
    (table : Table α) :
    (members.foldl (fun acc member => put acc member.1 member.2) table)[name]? = some member.2 := by
  induction members generalizing table with
  | nil => cases hmem
  | cons head rest ih =>
    obtain ⟨hhead, hrest⟩ := List.pairwise_cons.1 hdistinct
    rcases List.mem_cons.1 hmem with rfl | hmem
    · rw [List.foldl_cons, getElem?_foldl_put_of_not_mem, getElem?_put, if_pos hname]
      intro other hother
      rw [← BEq.congr_right hname, BEq.comm]
      exact hhead other hother
    · exact ih hrest hmem _

theorem ofList_of_perm {table : Table α} (h : table.Textual) {members : List (Atom × α)}
    (hperm : members.Perm table.toList) : ofList members = table := by
  have hdistinct : DistinctNames members := (Relations.distinctNames_toList table).perm hperm.symm
  have hget (name : Atom) : (ofList members)[name]? = table[name]? := by
    cases hname : table[name]? with
    | some a =>
      obtain ⟨key, hkey, hmem⟩ := (exists_mem_toList table name a).2 hname
      exact getElem?_foldl_put_of_mem hdistinct (hperm.mem_iff.2 hmem) hkey ∅
    | none =>
      rw [ofList, getElem?_foldl_put_of_not_mem, Std.ExtTreeMap.getElem?_empty]
      intro member hmem
      cases hsame : member.1 == name with
      | false => rfl
      | true =>
        have hsome := (exists_mem_toList table name member.2).1 ⟨member.1, hsame, hperm.mem_iff.1 hmem⟩
        rw [hname] at hsome
        cases hsome
  refine ext_of_textual (fun name hname => h name ?_) h hget
  rwa [mem_iff, ← hget, ← mem_iff]

end Table

namespace Contributions

structure Textual (contributions : Contributions) : Prop where
  sources : Table.Textual contributions
  edges : ∀ (source : Atom) relations, contributions[source]? = some relations → relations.Textual

theorem textual_of_mem_toList {contributions : Contributions} (h : contributions.Textual)
    {member : Atom × Relations} (hmem : member ∈ contributions.toList) : member.2.Textual :=
  h.edges member.1 member.2 ((Table.exists_mem_toList _ _ _).1 ⟨member.1, BEq.rfl, hmem⟩)

def members (contributions : Contributions) : Attributes :=
  contributions.toList.map (fun member => (member.1, .object (Relations.listed member.2.orderedGroups)))

theorem toValue_eq {contributions : Contributions} (h : contributions.Textual) :
    contributions.toValue = .ok (.object (members contributions)) := by
  have hmember (member : Atom × Relations) (hmem : member ∈ contributions.toList) :
      (do return (member.1, ← member.2.toValue) : Except Fault (Atom × Value)) =
        .ok (member.1, .object (Relations.listed member.2.orderedGroups)) := by
    rw [Relations.toValue_eq (textual_of_mem_toList h hmem)]
    rfl
  change (contributions.toList.mapM (fun member => (do
    return (member.1, ← member.2.toValue) : Except Fault (Atom × Value))) >>= _) = _
  rw [mapM_eq_map hmember]
  rfl

theorem plain_members {contributions : Contributions} (h : contributions.Textual) :
    Plain (.object (members contributions)) := by
  have hnames : DistinctNames (members contributions) :=
    List.pairwise_map.2 (Relations.distinctNames_toList contributions)
  refine (plain_object _).2 ⟨hnames, fun m hm => ?_⟩
  obtain ⟨member, hmem, rfl⟩ := List.mem_map.1 hm
  exact ⟨Table.isText_of_mem_toList h.sources hmem, Relations.plain_listed
    (Relations.distinctNames_orderedGroups member.2) (Relations.textual_orderedGroups (textual_of_mem_toList h hmem))⟩

theorem canonicalMembers_members {contributions : Contributions} (h : contributions.Textual) :
    canonicalMembers (members contributions) =
      (inOrder contributions.toList).map (fun member => (member.1, member.2.shown)) := by
  have hmap : (members contributions).map (fun m => (m.1, canonical m.2)) =
      contributions.toList.map (fun member => (member.1, member.2.shown)) := by
    rw [members, List.map_map]
    refine List.map_congr_left (fun member hmem => ?_)
    exact congrArg (Prod.mk member.1) (Relations.canonical_toValue (textual_of_mem_toList h hmem))
  rw [canonicalMembers, hmap, inOrder_map]

def text (contributions : Contributions) : String :=
  renderText (.object (canonicalMembers (members contributions)))

theorem dumpStrict_toValue {contributions : Contributions} (h : contributions.Textual) :
    contributions.toValue.bind dumpStrict = .ok (text contributions) := by
  have hplain := plain_members h
  rw [toValue_eq h]
  change dumpStrict (.object (members contributions)) = _
  rw [dumpStrict, dumpBy_of_plain _ hplain, canonical_object ((plain_object _).1 hplain).2, text]

def readMember (member : Atom × Value) : Except Fault (Atom × Relations) := do
  return (member.1, Relations.ofGroups (← Relations.groupsOf member.2))

theorem readMember_shown (source : Atom) {relations : Relations} (h : relations.Textual) :
    readMember (source, relations.shown) = .ok (source, relations) := by
  have hshown := Relations.ofGroups_groupsOf_shown h
  cases hgroups : Relations.groupsOf relations.shown with
  | error fault =>
    rw [hgroups] at hshown
    cases hshown
  | ok groups =>
    rw [hgroups] at hshown
    rw [readMember, hgroups]
    exact congrArg (Except.map (Prod.mk source)) hshown

theorem ofValue_shown {contributions : Contributions} (h : contributions.Textual) :
    ofValue (.object (canonicalMembers (members contributions))) = .ok contributions := by
  have hread : ∀ member ∈ inOrder contributions.toList,
      (readMember ∘ fun member => (member.1, member.2.shown)) member = .ok (id member) := fun member hmem =>
    readMember_shown member.1 (textual_of_mem_toList h ((inOrder_perm _).mem_iff.1 hmem))
  rw [canonicalMembers_members h]
  change (((inOrder contributions.toList).map (fun member => (member.1, member.2.shown))).mapM readMember >>=
    fun sources => pure (Table.ofList sources)) = _
  rw [List.mapM_map, mapM_eq_map hread, List.map_id]
  exact congrArg Except.ok (Table.ofList_of_perm h.sources (inOrder_perm _))

theorem read_text {contributions : Contributions} (h : contributions.Textual) :
    (parseText (text contributions)).bind ofValue = .ok contributions := by
  have hplain := plain_members h
  have hcanonical := canonical_object ((plain_object _).1 hplain).2
  have hparsed := parseText_canonical hplain
  rw [hcanonical] at hparsed
  rw [text, hparsed]
  exact ofValue_shown h

end Contributions

end FleetCache
