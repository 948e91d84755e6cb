import Mathlib.Data.List.Forall2
import FleetCache.Proofs.GraphRemovals

set_option autoImplicit false

namespace FleetCache

open FleetCache.Json

theorem forall₂_filterMap {α β γ : Type} {R : β → γ → Prop} {f : α → Option β} {g : α → Option γ}
    {items : List α} (h : ∀ a ∈ items, Option.Rel R (f a) (g a)) :
    List.Forall₂ R (items.filterMap f) (items.filterMap g) := by
  induction items with
  | nil => exact .nil
  | cons a rest ih =>
    obtain ⟨hrel, hrest⟩ := List.forall_mem_cons.1 h
    rw [List.filterMap_cons, List.filterMap_cons]
    generalize f a = found at hrel ⊢
    generalize g a = other at hrel ⊢
    cases hrel with
    | none => exact ih hrest
    | some hsame => exact .cons hsame (ih hrest)

structure EntityOf.Alike (entity other : Entity) : Prop where
  ns : entity.ns = other.ns
  id : entity.id = other.id
  attributes : ∃ shown, ordered (.object entity.attributes) = .ok shown ∧ ordered (.object other.attributes) = .ok shown
  relations : entity.relations = other.relations

theorem Node.toEntity_of_shows {node : Node} {kept : Stored} (h : node.Shows kept) (hkept : kept.Textual) (ns : Atom) :
    node.toEntity ns = .ok ⟨ns, node.id, canonicalMembers kept.attributes, kept.contributions.merged⟩ := by
  rw [toEntity, readAttributes_of_shows h hkept, readContributions_of_shows h hkept]
  rfl

def Stored.mirrored (kept : Stored) (ns id : Atom) : Entity :=
  ⟨ns, id, canonicalMembers kept.attributes, kept.contributions.merged⟩

theorem Stored.toEntity_alike {kept : Stored} (h : kept.Textual) (ns id : Atom) :
    (kept.toEntity ns id).Alike (kept.mirrored ns id) := by
  have hcanonical := canonical_object ((plain_object _).1 h.attributes).2
  refine ⟨rfl, rfl, ⟨canonical (.object kept.attributes), ordered_of_plain h.attributes, ?_⟩, rfl⟩
  change ordered (.object (canonicalMembers kept.attributes)) = _
  rw [← hcanonical, ordered_of_plain (plain_canonical h.attributes), canonical_canonical h.attributes]

def Graph.nodeAt (graph : Graph) (ns id : Atom) : Option Node :=
  graph.nodes.find? (fun node => node.is ns id)

namespace Mirrors

variable {store : Memory} {graph : Graph}

theorem rel_nodeAt_shows (h : Mirrors store.kept graph.nodes) (ns id : Atom) :
    Option.Rel (fun node kept => node.id = id ∧ node.Shows kept ∧ kept.Textual) (graph.nodeAt ns id)
      (store.kept ns id) := by
  cases hfound : graph.nodeAt ns id with
  | none =>
    cases hkept : store.kept ns id with
    | none => exact .none
    | some stored =>
      obtain ⟨node, hnode, his⟩ := h.present ns id stored hkept
      exact absurd his (List.find?_eq_none.1 hfound node hnode)
  | some node =>
    have hnode := List.mem_of_find?_eq_some hfound
    have his : node.is ns id = true := by simpa using List.find?_some hfound
    obtain ⟨rfl, rfl⟩ := Node.eq_of_is (h.named node hnode) his
    obtain ⟨stored, hkept, hshows, htextual⟩ := h.shown node hnode
    rw [hkept]
    exact .some ⟨rfl, hshows, htextual⟩

theorem rel_nodeAt (h : Mirrors store.kept graph.nodes) (ns id : Atom) :
    Option.Rel (fun node kept => node.toEntity ns = .ok (kept.mirrored ns id)) (graph.nodeAt ns id)
      (store.kept ns id) := by
  have hnode := h.rel_nodeAt_shows ns id
  generalize graph.nodeAt ns id = found at hnode ⊢
  generalize store.kept ns id = kept at hnode ⊢
  cases hnode with
  | none => exact .none
  | some hshown =>
    obtain ⟨rfl, hshows, htextual⟩ := hshown
    exact .some (Node.toEntity_of_shows hshows htextual ns)

theorem get_eq (h : Mirrors store.kept graph.nodes) (hopen : graph.Open) (ns id : Atom) :
    graph.get ns id = .ok ((store.kept ns id).map (fun kept => kept.mirrored ns id)) := by
  have hnode := h.rel_nodeAt ns id
  rw [Graph.get, Graph.session, hopen.reached, ← Graph.nodeAt]
  generalize graph.nodeAt ns id = found at hnode
  generalize store.kept ns id = kept at hnode
  cases hnode with
  | none => rfl
  | @some node kept hentity =>
    change (node.toEntity ns >>= fun entity => pure (some entity)) = _
    rw [hentity]
    rfl

theorem mapM_nodeAt (h : Mirrors store.kept graph.nodes) (ns : Atom) (ids : List Atom) :
    (ids.filterMap (graph.nodeAt ns)).mapM (fun node => node.toEntity ns) =
      .ok (ids.filterMap (fun id => (store.kept ns id).map (fun kept => kept.mirrored ns id))) := by
  induction ids with
  | nil => rfl
  | cons id rest ih =>
    have hnode := h.rel_nodeAt ns id
    rw [List.filterMap_cons, List.filterMap_cons]
    generalize graph.nodeAt ns id = found at hnode
    generalize store.kept ns id = kept at hnode
    cases hnode with
    | none => exact ih
    | some hentity =>
      dsimp only [Option.map_some]
      rw [List.mapM_cons, hentity, ih]
      rfl

theorem getAll_eq (h : Mirrors store.kept graph.nodes) (hopen : graph.Open) (ns : Atom) (ids : List Atom) :
    graph.getAll ns ids =
      .ok (ids.eraseDups.filterMap (fun id => (store.kept ns id).map (fun kept => kept.mirrored ns id))) := by
  cases ids with
  | nil => rfl
  | cons id rest =>
    have hfind (id : Atom) : (graph.nodesOf ns).find? (fun node => node.id == id) = graph.nodeAt ns id := by
      rw [Graph.nodesOf, List.find?_filter, Graph.nodeAt]
      congr 1
      funext node
      rw [Bool.decide_and, Bool.decide_eq_true, Bool.decide_eq_true, Node.is]
    rw [Graph.getAll, Graph.session, hopen.reached]
    simp only [hfind]
    exact h.mapM_nodeAt ns (id :: rest).eraseDups

theorem rel_mirrored (h : Mirrors store.kept graph.nodes) (ns id : Atom) :
    Option.Rel EntityOf.Alike (store.get ns id) ((store.kept ns id).map (fun kept => kept.mirrored ns id)) := by
  rw [Memory.get_eq]
  cases hkept : store.kept ns id with
  | none => exact .none
  | some stored =>
    obtain ⟨node, hnode, his⟩ := h.present ns id stored hkept
    obtain ⟨rfl, rfl⟩ := Node.eq_of_is (h.named node hnode) his
    obtain ⟨stored', hkept', -, htextual⟩ := h.shown node hnode
    obtain rfl := Option.some.inj (hkept.symm.trans hkept')
    exact .some (Stored.toEntity_alike htextual _ _)

theorem get (h : Mirrors store.kept graph.nodes) (hopen : graph.Open) (ns id : Atom) :
    ∃ found, graph.get ns id = .ok found ∧ Option.Rel EntityOf.Alike (store.get ns id) found :=
  ⟨_, h.get_eq hopen ns id, h.rel_mirrored ns id⟩

theorem getAll (h : Mirrors store.kept graph.nodes) (hopen : graph.Open) (ns : Atom) (ids : List Atom) :
    ∃ found, graph.getAll ns ids = .ok found ∧ List.Forall₂ EntityOf.Alike (store.getAll ns ids) found :=
  ⟨_, h.getAll_eq hopen ns ids, forall₂_filterMap (fun id _ => h.rel_mirrored ns id)⟩

theorem nodup_ids (h : Mirrors store.kept graph.nodes) (ns : Atom) : ((graph.nodesOf ns).map Node.id).Nodup := by
  refine List.pairwise_map.2 ((h.distinct.filter _).imp_of_mem (fun hnode hother hne hsame => ?_))
  have hns := BEq.trans (List.mem_filter.1 hnode).2 (BEq.symm (List.mem_filter.1 hother).2)
  rw [Node.is, hns, hsame, BEq.rfl] at hne
  cases hne

theorem nodup_identifiers (store : Memory) (ns : Atom) : (store.identifiers ns).Nodup := by
  refine Std.ExtTreeMap.distinct_keys.imp (fun hne hsame => hne ?_)
  rw [hsame]
  exact Std.ReflCmp.compare_self

theorem identifiers (h : Mirrors store.kept graph.nodes) (ns : Atom) :
    (store.identifiers ns).Perm ((graph.nodesOf ns).map Node.id) := by
  refine (List.perm_ext_iff_of_nodup (nodup_identifiers store ns) (h.nodup_ids ns)).2
    (fun id => ⟨fun hid => ?_, fun hid => ?_⟩)
  · have hkept := (store.mem_identifiers ns id).1 ⟨id, hid, BEq.rfl⟩
    rw [Memory.get_eq, Option.isSome_map] at hkept
    obtain ⟨stored, hstored⟩ := Option.isSome_iff_exists.1 hkept
    obtain ⟨node, hnode, his⟩ := h.present ns id stored hstored
    obtain ⟨rfl, rfl⟩ := Node.eq_of_is (h.named node hnode) his
    exact List.mem_map.2 ⟨node, List.mem_filter.2 ⟨hnode, BEq.rfl⟩, rfl⟩
  · obtain ⟨node, hmem, rfl⟩ := List.mem_map.1 hid
    obtain ⟨hnode, hns⟩ := List.mem_filter.1 hmem
    obtain ⟨stored, hkept, -⟩ := h.shown node hnode
    have hsome : (store.get ns node.id).isSome = true := by
      rw [Memory.get_eq, ← Memory.kept_congr store hns, hkept]
      rfl
    obtain ⟨a, ha, hsame⟩ := (store.mem_identifiers ns node.id).2 hsome
    rwa [Atom.eq_of_beq_of_isText (h.named node hnode).2 (BEq.symm hsame)]

theorem size (h : Mirrors store.kept graph.nodes) (ns : Atom) : store.size ns = (graph.nodesOf ns).length := by
  have hlength := (h.identifiers ns).length_eq
  rwa [Memory.identifiers, Std.ExtTreeMap.length_keys, List.length_map] at hlength

theorem mem_stats (h : Mirrors store.kept graph.nodes) (ns : Atom) (n : Nat) :
    (ns, n) ∈ store.stats ↔ (∃ node ∈ graph.nodes, node.ns = ns) ∧ n = (graph.nodesOf ns).length := by
  have hlisted : (ns, n) ∈ store.stats ↔ ∃ part, (ns, part) ∈ store.parts.toList ∧ part.table.size = n ∧ n ≠ 0 := by
    simp [Memory.stats]
    tauto
  rw [hlisted]
  constructor
  · rintro ⟨part, hpart, rfl, hsome⟩
    have hns := (Table.exists_mem_toList store.parts ns part).1 ⟨ns, BEq.rfl, hpart⟩
    have hsize : part.table.size = (graph.nodesOf ns).length := by
      rw [← h.size ns, Memory.size, Memory.part, Std.ExtTreeMap.getD_eq_getD_getElem?, hns]
      rfl
    refine ⟨?_, hsize⟩
    obtain ⟨node, hmem⟩ := List.exists_mem_of_length_pos (by omega : 0 < (graph.nodesOf ns).length)
    obtain ⟨hnode, hsame⟩ := List.mem_filter.1 hmem
    exact ⟨node, hnode, Atom.eq_of_beq_of_isText (h.named node hnode).1 hsame⟩
  · rintro ⟨⟨node, hnode, rfl⟩, rfl⟩
    have hpos : 0 < (graph.nodesOf node.ns).length :=
      List.length_pos_of_mem (List.mem_filter.2 ⟨hnode, BEq.rfl⟩)
    rw [← h.size] at hpos ⊢
    rw [Memory.size, Memory.part, Std.ExtTreeMap.getD_eq_getD_getElem?] at hpos ⊢
    cases hpart : store.parts[node.ns]? with
    | none =>
      rw [hpart] at hpos
      exact absurd hpos (by decide)
    | some part =>
      rw [hpart] at hpos
      obtain ⟨ns, hns, hmem⟩ := (Table.exists_mem_toList store.parts node.ns part).2 hpart
      obtain rfl := Atom.eq_of_beq_of_isText (h.named node hnode).1 (BEq.symm hns)
      exact ⟨part, hmem, rfl, Nat.ne_of_gt hpos⟩

theorem mem_names (h : Mirrors store.kept graph.nodes) (ns : Atom) :
    ns ∈ (graph.nodes.map Node.ns).eraseDups ↔ ∃ node ∈ graph.nodes, node.ns = ns := by
  have htext : ∀ ns ∈ graph.nodes.map Node.ns, ns.isText = true := by
    intro ns hns
    obtain ⟨node, hnode, rfl⟩ := List.mem_map.1 hns
    exact (h.named node hnode).1
  rw [← List.mem_map]
  constructor
  · intro hns
    obtain ⟨a, ha, hsame⟩ := (exists_mem_eraseDups _ ns).1 ⟨ns, hns, BEq.rfl⟩
    rwa [← Atom.eq_of_beq_of_isText (htext a ha) hsame]
  · intro hns
    obtain ⟨a, ha, hsame⟩ := (exists_mem_eraseDups _ ns).2 ⟨ns, hns, BEq.rfl⟩
    rwa [Atom.eq_of_beq_of_isText (htext ns hns) (BEq.symm hsame)]

theorem nodup_stats (store : Memory) : store.stats.Nodup := by
  refine List.Pairwise.filter _ (List.pairwise_map.2 (Std.ExtTreeMap.distinct_keys_toList.imp ?_))
  intro member other hne hsame
  refine hne ?_
  rw [(Prod.mk.inj hsame).1]
  exact Std.ReflCmp.compare_self

theorem stats (h : Mirrors store.kept graph.nodes) (hopen : graph.Open) :
    ∃ counts, graph.stats = .ok counts ∧ store.stats.Perm counts := by
  refine ⟨(graph.nodes.map Node.ns).eraseDups.map (fun ns => (ns, (graph.nodesOf ns).length)), ?_, ?_⟩
  · rw [Graph.stats, Graph.session, hopen.reached]
    rfl
  · refine (List.perm_ext_iff_of_nodup (nodup_stats store) ?_).2 (fun count => ?_)
    · refine List.pairwise_map.2 ((pairwise_eraseDups _).imp (fun hne hsame => ?_))
      rw [(Prod.mk.inj hsame).1, BEq.rfl] at hne
      cases hne
    · obtain ⟨ns, n⟩ := count
      rw [h.mem_stats, ← h.mem_names, List.mem_map]
      constructor
      · rintro ⟨hns, rfl⟩
        exact ⟨ns, hns, rfl⟩
      · rintro ⟨ns', hns, hsame⟩
        obtain ⟨rfl, rfl⟩ := Prod.mk.inj hsame
        exact ⟨hns, rfl⟩

end Mirrors

end FleetCache
