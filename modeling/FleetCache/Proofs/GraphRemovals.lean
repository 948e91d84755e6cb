import FleetCache.Proofs.GraphWrites

set_option autoImplicit false

namespace FleetCache

namespace KeptTable

def Sound (kept : KeptTable) : Prop :=
  ∀ ns id stored, kept ns id = some stored → stored.Sound

end KeptTable

namespace Mirrors

variable {kept : KeptTable} {nodes : List Node}

theorem dropped_shows (h : Mirrors kept nodes) (hsound : kept.Sound) (ns source : Atom) (returning : List Atom)
    {node : Node} (hnode : node ∈ nodes) :
    ∃ result, (if node.ns == ns && node.sources.contains source then node.withoutSource source returning
        else pure (some node) : Except Fault (Option Node)) = .ok result ∧
      match kept.dropSource ns source returning node.ns node.id with
      | none => result = none
      | some stored => ∃ left, result = some left ∧ left.ns = node.ns ∧ left.id = node.id ∧ left.Shows stored ∧
          stored.Textual := by
  obtain ⟨stored, hkept, hshows, htextual⟩ := h.shown node hnode
  rw [KeptTable.dropSource, hkept]
  by_cases hns : (node.ns == ns) = true
  · rw [hns, if_pos (BEq.symm hns), Bool.true_and, Option.bind_some]
    by_cases hlisted : node.sources.contains source = true
    · have hleft := Node.withoutSource_shows hshows htextual source returning
      rw [if_pos hlisted]
      cases hresult : Partition.withoutSource source (returning.contains node.id) stored with
      | none =>
        simp only [hresult] at hleft
        exact ⟨none, hleft, rfl⟩
      | some left =>
        simp only [hresult] at hleft
        obtain ⟨remaining, hremaining, hshown⟩ := hleft
        exact ⟨some remaining, hremaining, remaining, rfl, hshown⟩
    -- a node that does not list the source is left alone; in memory dropping it there changes nothing
    · have habsent : source ∉ stored.contributions := fun hmem => hlisted ((hshows.sources source).2 hmem)
      rw [if_neg hlisted, Partition.withoutSource_of_not_mem (hsound _ _ stored hkept) habsent]
      exact ⟨some node, rfl, node, rfl, rfl, rfl, hshows, htextual⟩
  · rw [eq_false_of_ne_true hns, if_neg (fun hsame => hns (BEq.symm hsame)), Bool.false_and]
    exact ⟨some node, rfl, node, rfl, rfl, rfl, hshows, htextual⟩

theorem dropSource (h : Mirrors kept nodes) (hsound : kept.Sound) (ns source : Atom) (returning : List Atom) :
    ∃ left, Graph.dropSource nodes ns source returning = .ok left ∧
      Mirrors (kept.dropSource ns source returning) left := by
  have hmap := mapM_eq_map_okOr some (fun node hnode =>
    let ⟨result, hresult, _⟩ := h.dropped_shows hsound ns source returning hnode
    ⟨result, hresult⟩)
  refine ⟨_, by rw [Graph.dropSource, hmap]; rfl, ?_⟩
  rw [List.filterMap_map]
  refine of_filterMap h.distinct h.named (fun node hnode => ?_) (fun ns' id stored hstored => ?_)
  · obtain ⟨result, hresult, hleft⟩ := h.dropped_shows hsound ns source returning hnode
    rw [Function.comp_apply, hresult]
    cases hkept : kept.dropSource ns source returning node.ns node.id with
    | none =>
      simp only [hkept] at hleft
      exact .inl ⟨hleft, rfl⟩
    | some stored =>
      simp only [hkept] at hleft
      obtain ⟨left, hsome, hns, hid, hshows⟩ := hleft
      exact .inr ⟨left, stored, hsome, hns, hid, rfl, hshows⟩
  · rw [KeptTable.dropSource] at hstored
    split at hstored
    · obtain ⟨old, hold, -⟩ := Option.bind_eq_some_iff.1 hstored
      exact h.present ns' id old hold
    · exact h.present ns' id stored hstored

theorem evict (h : Mirrors kept nodes) (ns : Atom) (ids : List Atom) :
    Mirrors (kept.evict ns ids) (nodes.filter (fun node => !(node.ns == ns && ids.contains node.id))) := by
  rw [← List.filterMap_eq_filter]
  refine of_filterMap h.distinct h.named (fun node hnode => ?_) (fun ns' id stored hstored => ?_)
  · rw [KeptTable.evict, BEq.comm]
    cases hgone : node.ns == ns && ids.contains node.id with
    | true => exact .inl ⟨by simp [Option.guard, hgone], rfl⟩
    | false =>
      obtain ⟨stored, hshown⟩ := h.shown node hnode
      exact .inr ⟨node, stored, by simp [Option.guard, hgone], rfl, rfl, hshown⟩
  · rw [KeptTable.evict] at hstored
    split at hstored
    · cases hstored
    · exact h.present ns' id stored hstored

end Mirrors

namespace Graph

theorem replaceSource_mirrors {kept : KeptTable} {graph : Graph} (h : Mirrors kept graph.nodes) (hopen : graph.Open)
    (hsound : kept.Sound) {ns source : Atom} (hns : ns.isText = true) (hsource : source.isText = true)
    (authority : Authority) {entities : List Entity} (hentities : ∀ entity ∈ entities, entity.Textual) :
    ∃ (dropped : Nat) (after : Graph),
      replaceSource ns source entities authority graph = (pure dropped, after) ∧ after.Open ∧
      Mirrors ((kept.dropSource ns source (entities.map EntityOf.id)).writeAll ns source authority entities)
        after.nodes := by
  obtain ⟨left, hleft, hmirrors⟩ := h.dropSource hsound ns source (entities.map EntityOf.id)
  have hdropped : Mirrors (kept.dropSource ns source (entities.map EntityOf.id))
      ({ graph with transactions := graph.transactions + 1, nodes := left } : Graph).nodes := hmirrors
  obtain ⟨written, hwritten, hall⟩ := writeEntities_mirrors hdropped hns hsource authority hentities
  have hdrop : dropContributions ns source (entities.map EntityOf.id)
      { graph with transactions := graph.transactions + 1 } =
        (pure (graph.nodes.length - left.length),
          { graph with transactions := graph.transactions + 1, nodes := left }) := by
    rw [dropContributions, hleft]
  refine ⟨graph.nodes.length - left.length, { graph with transactions := graph.transactions + 1, nodes := written },
    ?_, ⟨hopen.reached, hopen.batched⟩, hall⟩
  have hbegin : begin graph = (pure (), { graph with transactions := graph.transactions + 1 }) := rfl
  rw [replaceSource]
  refine (inSession_eq hopen _).trans ?_
  refine (Change.bind_of_pure hbegin _).trans ?_
  refine (Change.bind_of_pure hdrop _).trans ?_
  exact Change.bind_of_pure hwritten _

theorem evict_mirrors {kept : KeptTable} {graph : Graph} (h : Mirrors kept graph.nodes) (hopen : graph.Open)
    (ns : Atom) (ids : List Atom) :
    ∃ left, Graph.evict ns (ids.map .atom) graph =
        (pure (graph.nodes.length - left.length), { graph with nodes := left }) ∧
      left = graph.nodes.filter (fun node => !(node.ns == ns && ids.contains node.id)) ∧
      Mirrors (kept.evict ns ids) left := by
  have hany (node : Node) : (ids.map Value.atom).any (fun id => id == .atom node.id) = ids.contains node.id := by
    rw [List.any_map, List.contains_eq_any_beq]
    refine List.any_congr rfl (fun a => ?_)
    change (a == node.id) = (node.id == a)
    exact BEq.comm
  refine ⟨_, ?_, rfl, h.evict ns ids⟩
  rw [Graph.evict]
  refine (inSession_eq hopen _).trans ?_
  simp only [hany]

end Graph

end FleetCache
