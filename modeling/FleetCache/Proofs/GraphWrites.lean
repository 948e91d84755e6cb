import FleetCache.Proofs.GraphNodes
import FleetCache.Proofs.Histories

set_option autoImplicit false

namespace FleetCache

abbrev KeptTable := Atom → Atom → Option Stored

namespace KeptTable

def writeAll (kept : KeptTable) (ns source : Atom) (authority : Authority) (entities : List Entity) : KeptTable :=
  fun ns' id =>
    if ns == ns' then Partition.storedAll source authority (kept ns' id) (Partition.withId id entities)
    else kept ns' id

def dropSource (kept : KeptTable) (ns source : Atom) (returning : List Atom) : KeptTable :=
  fun ns' id =>
    if ns == ns' then (kept ns' id).bind (Partition.withoutSource source (returning.contains id))
    else kept ns' id

def evict (kept : KeptTable) (ns : Atom) (ids : List Atom) : KeptTable :=
  fun ns' id => if ns == ns' && ids.contains id then none else kept ns' id

theorem writeAll_nil (kept : KeptTable) (ns source : Atom) (authority : Authority) :
    kept.writeAll ns source authority [] = kept := by
  funext ns' id
  exact ite_self _

theorem writeAll_append (kept : KeptTable) (ns source : Atom) (authority : Authority)
    (entities more : List Entity) : (kept.writeAll ns source authority entities).writeAll ns source authority more =
      kept.writeAll ns source authority (entities ++ more) := by
  funext ns' id
  by_cases hns : (ns == ns') = true
  · simp only [writeAll, if_pos hns, Partition.withId, List.filter_append, Partition.storedAll, List.foldl_append]
  · simp only [writeAll, if_neg hns]

end KeptTable

def Except.okOr {α : Type} (a : α) (x : Except Fault α) : α :=
  x.toOption.getD a

theorem mapM_eq_map_okOr {α β : Type} {f : α → Except Fault β} (default : α → β) {items : List α}
    (h : ∀ a ∈ items, ∃ b, f a = .ok b) : items.mapM f = .ok (items.map (fun a => Except.okOr (default a) (f a))) := by
  refine mapM_eq_map (fun a ha => ?_)
  obtain ⟨b, hb⟩ := h a ha
  rw [hb]
  rfl

namespace Node

theorem is_iff (node : Node) (ns id : Atom) :
    node.is ns id = true ↔ (node.ns == ns) = true ∧ (node.id == id) = true := by
  rw [is, Bool.and_eq_true]

theorem is_congr {node other : Node} (hns : other.ns = node.ns) (hid : other.id = node.id) (ns id : Atom) :
    other.is ns id = node.is ns id := by
  rw [is, is, hns, hid]

end Node

structure Mirrors (kept : KeptTable) (nodes : List Node) : Prop where
  distinct : nodes.Pairwise (fun node other => node.is other.ns other.id = false)
  named : ∀ node ∈ nodes, node.ns.isText = true ∧ node.id.isText = true
  shown : ∀ node ∈ nodes, ∃ stored, kept node.ns node.id = some stored ∧ node.Shows stored ∧ stored.Textual
  present : ∀ ns id stored, kept ns id = some stored → ∃ node ∈ nodes, node.is ns id = true

theorem mirrors_nil : Mirrors (fun _ _ => none) [] where
  distinct := List.Pairwise.nil
  named _ h := absurd h List.not_mem_nil
  shown _ h := absurd h List.not_mem_nil
  present _ _ _ h := nomatch h

theorem Node.eq_of_is {node : Node} (h : node.ns.isText = true ∧ node.id.isText = true) {ns id : Atom}
    (his : node.is ns id = true) : ns = node.ns ∧ id = node.id := by
  obtain ⟨hns, hid⟩ := (Node.is_iff _ _ _).1 his
  exact ⟨(Atom.eq_of_beq_of_isText h.1 hns).symm, (Atom.eq_of_beq_of_isText h.2 hid).symm⟩

namespace Mirrors

variable {kept kept' : KeptTable} {nodes : List Node}

theorem of_filterMap (hdistinct : nodes.Pairwise (fun node other => node.is other.ns other.id = false))
    (hnamed : ∀ node ∈ nodes, node.ns.isText = true ∧ node.id.isText = true) {change : Node → Option Node}
    (hchange : ∀ node ∈ nodes, (change node = none ∧ kept' node.ns node.id = none) ∨
      ∃ left stored, change node = some left ∧ left.ns = node.ns ∧ left.id = node.id ∧
        kept' node.ns node.id = some stored ∧ left.Shows stored ∧ stored.Textual)
    (hpresent : ∀ ns id stored, kept' ns id = some stored → ∃ node ∈ nodes, node.is ns id = true) :
    Mirrors kept' (nodes.filterMap change) := by
  have hleft (node : Node) (hnode : node ∈ nodes) (left : Node) (h : change node = some left) :
      left.ns = node.ns ∧ left.id = node.id ∧
        ∃ stored, kept' node.ns node.id = some stored ∧ left.Shows stored ∧ stored.Textual := by
    rcases hchange node hnode with ⟨hnone, -⟩ | ⟨left', stored, hsome, hns, hid, hkept, hshows⟩
    · rw [hnone] at h
      cases h
    · obtain rfl := Option.some.inj (hsome.symm.trans h)
      exact ⟨hns, hid, stored, hkept, hshows⟩
  refine ⟨?_, fun left hmem => ?_, fun left hmem => ?_, fun ns id stored hkept => ?_⟩
  · refine List.pairwise_filterMap.2 (hdistinct.imp_of_mem (fun hnode hother hne left hl left' hl' => ?_))
    obtain ⟨hns, hid, -⟩ := hleft _ hnode left hl
    obtain ⟨hns', hid', -⟩ := hleft _ hother left' hl'
    rw [Node.is_congr hns hid, hns', hid']
    exact hne
  · obtain ⟨node, hnode, h⟩ := List.mem_filterMap.1 hmem
    obtain ⟨hns, hid, -⟩ := hleft node hnode left h
    rw [hns, hid]
    exact hnamed node hnode
  · obtain ⟨node, hnode, h⟩ := List.mem_filterMap.1 hmem
    obtain ⟨hns, hid, hshows⟩ := hleft node hnode left h
    rw [hns, hid]
    exact hshows
  · obtain ⟨node, hnode, his⟩ := hpresent ns id stored hkept
    obtain ⟨rfl, rfl⟩ := Node.eq_of_is (hnamed node hnode) his
    rcases hchange node hnode with ⟨-, hnone⟩ | ⟨left, -, h, hns, hid, -⟩
    · rw [hnone] at hkept
      cases hkept
    · exact ⟨left, List.mem_filterMap.2 ⟨node, hnode, h⟩, (Node.is_congr hns hid _ _).trans his⟩

theorem ensureNode (h : Mirrors kept nodes) {ns id : Atom} (hns : ns.isText = true) (hid : id.isText = true) :
    (Graph.ensureNode nodes ns id).Pairwise (fun node other => node.is other.ns other.id = false) ∧
    (∀ node ∈ Graph.ensureNode nodes ns id, (node.ns.isText = true ∧ node.id.isText = true) ∧
      node.ShowsOld (kept node.ns node.id) ∧ (node.is ns id = false → node ∈ nodes)) ∧
    (∃ node ∈ Graph.ensureNode nodes ns id, node.is ns id = true) ∧
    ∀ node ∈ nodes, node ∈ Graph.ensureNode nodes ns id := by
  have hold (node : Node) (hnode : node ∈ nodes) : (node.ns.isText = true ∧ node.id.isText = true) ∧
      node.ShowsOld (kept node.ns node.id) ∧ (node.is ns id = false → node ∈ nodes) := by
    obtain ⟨stored, hkept, hshows⟩ := h.shown node hnode
    refine ⟨h.named node hnode, ?_, fun _ => hnode⟩
    rw [hkept]
    exact hshows
  rw [Graph.ensureNode]
  by_cases hany : nodes.any (fun node => node.is ns id) = true
  · rw [if_pos hany]
    exact ⟨h.distinct, hold, List.any_eq_true.1 hany, fun _ hnode => hnode⟩
  · have hnew : ∀ node ∈ nodes, node.is ns id = false := by simpa using hany
    have hself : (Node.blank ns id).is ns id = true := (Node.is_iff _ _ _).2 ⟨BEq.rfl, BEq.rfl⟩
    have habsent : kept ns id = none := by
      cases hkept : kept ns id with
      | none => rfl
      | some stored =>
        obtain ⟨node, hnode, his⟩ := h.present ns id stored hkept
        rw [hnew node hnode] at his
        cases his
    rw [if_neg hany]
    refine ⟨?_, fun node hnode => ?_, ⟨Node.blank ns id, by simp, hself⟩, fun _ hnode => List.mem_append_left _ hnode⟩
    · refine List.pairwise_append.2 ⟨h.distinct, List.pairwise_singleton _ _, fun node hnode other hother => ?_⟩
      rw [List.mem_singleton.1 hother]
      exact hnew node hnode
    · rcases List.mem_append.1 hnode with hnode | hnode
      · exact hold node hnode
      · obtain rfl := List.mem_singleton.1 hnode
        refine ⟨⟨hns, hid⟩, ?_, fun hne => ?_⟩
        · change Node.ShowsOld _ (kept ns id)
          rw [habsent]
          rfl
        · rw [hself] at hne
          cases hne

theorem writeAll_one (kept : KeptTable) (ns source : Atom) (authority : Authority) (entity : Entity)
    (ns' id : Atom) : kept.writeAll ns source authority [entity] ns' id =
      if ns == ns' && entity.id == id then some (Partition.stored (kept ns' id) entity source authority)
      else kept ns' id := by
  rw [KeptTable.writeAll, Partition.withId_cons]
  cases ns == ns' <;> cases entity.id == id <;> rfl

theorem write_ensured (h : Mirrors kept nodes) {ns source : Atom} (hns : ns.isText = true)
    (hsource : source.isText = true) (authority : Authority) {entity : Entity} (hentity : entity.Textual) {node : Node}
    (hnode : node ∈ Graph.ensureNode nodes ns entity.id) :
    ∃ written, (if node.is ns entity.id then node.write entity source authority else .ok node) = .ok written ∧
      written.ns = node.ns ∧ written.id = node.id ∧
      ∃ stored, kept.writeAll ns source authority [entity] node.ns node.id = some stored ∧
        written.Shows stored ∧ stored.Textual := by
  obtain ⟨-, hnodes, -⟩ := h.ensureNode hns hentity.id
  obtain ⟨hnamed, hshows, hmem⟩ := hnodes node hnode
  rw [writeAll_one]
  by_cases his : node.is ns entity.id = true
  · obtain ⟨rfl, hid⟩ := Node.eq_of_is hnamed his
    obtain ⟨written, hwritten, hns', hid', hshown⟩ := Node.write_shows hshows hentity hsource authority
    have hself : (node.ns == node.ns && entity.id == node.id) = true := by rw [hid, BEq.rfl, BEq.rfl]; rfl
    rw [if_pos his, if_pos hself]
    refine ⟨written, hwritten, hns', hid', _, rfl, hshown, ?_⟩
    refine Stored.textual_stored (fun stored hstored => ?_) hentity hsource authority
    rw [hstored] at hshows
    exact hshows.2
  · have hother : ¬(ns == node.ns && entity.id == node.id) = true := by
      rw [BEq.comm, @BEq.comm _ _ _ entity.id]
      exact his
    rw [if_neg his, if_neg hother]
    exact ⟨node, rfl, rfl, rfl, h.shown node (hmem (by simpa using his))⟩

theorem writeNodes (h : Mirrors kept nodes) {ns source : Atom} (hns : ns.isText = true)
    (hsource : source.isText = true) (authority : Authority) {entity : Entity} (hentity : entity.Textual) :
    ∃ written, Graph.writeNodes ns source authority nodes entity = (.ok (), written) ∧
      Mirrors (kept.writeAll ns source authority [entity]) written := by
  obtain ⟨hdistinct, hnodes, ⟨target, htarget, histarget⟩, hold⟩ := h.ensureNode hns hentity.id
  have hmap := mapM_eq_map_okOr (fun node => node) (fun node hnode =>
    let ⟨written, hwritten, _⟩ := h.write_ensured hns hsource authority hentity hnode
    ⟨written, hwritten⟩)
  refine ⟨_, by rw [Graph.writeNodes]; simp only [hmap]; rfl, ?_⟩
  rw [← List.filterMap_eq_map]
  refine of_filterMap hdistinct (fun node hnode => (hnodes node hnode).1) (fun node hnode => ?_)
    (fun ns' id stored hkept => ?_)
  · obtain ⟨written, hwritten, hns', hid', stored, hkept, hshows⟩ :=
      h.write_ensured hns hsource authority hentity hnode
    refine .inr ⟨written, stored, ?_, hns', hid', hkept, hshows⟩
    rw [Function.comp_apply, hwritten]
    rfl
  · rw [writeAll_one] at hkept
    -- what is kept now is the entity just written, or was kept before
    split at hkept
    · rename_i hsame
      obtain ⟨hns', hid'⟩ := Bool.and_eq_true_iff.1 hsame
      obtain ⟨htargetns, htargetid⟩ := (Node.is_iff _ _ _).1 histarget
      exact ⟨target, htarget, (Node.is_iff _ _ _).2 ⟨BEq.trans htargetns hns', BEq.trans htargetid hid'⟩⟩
    · obtain ⟨node, hnode, his⟩ := h.present ns' id stored hkept
      exact ⟨node, hold node hnode, his⟩

end Mirrors

namespace Graph

theorem writeEntities_mirrors {kept : KeptTable} {graph : Graph} (h : Mirrors kept graph.nodes) {ns source : Atom}
    (hns : ns.isText = true) (hsource : source.isText = true) (authority : Authority) {entities : List Entity}
    (hentities : ∀ entity ∈ entities, entity.Textual) :
    ∃ written, writeEntities ns source authority entities graph = (pure (), { graph with nodes := written }) ∧
      Mirrors (kept.writeAll ns source authority entities) written := by
  induction entities generalizing kept graph with
  | nil => exact ⟨graph.nodes, rfl, (KeptTable.writeAll_nil kept ns source authority).symm ▸ h⟩
  | cons entity rest ih =>
    obtain ⟨hentity, hrest⟩ := List.forall_mem_cons.1 hentities
    obtain ⟨first, hfirst, hmirrors⟩ := h.writeNodes hns hsource authority hentity
    have hnext : Mirrors (kept.writeAll ns source authority [entity]) ({ graph with nodes := first } : Graph).nodes :=
      hmirrors
    obtain ⟨written, hwritten, hall⟩ := ih hnext hrest
    refine ⟨written, ?_, by simpa [KeptTable.writeAll_append] using hall⟩
    have hstep : writeEntity ns source authority entity graph = (pure (), { graph with nodes := first }) := by
      rw [writeEntity, hfirst]
      rfl
    exact (Change.bind_of_pure hstep _).trans hwritten

theorem flatten_map_range {α : Type} (items : List α) (size count : Nat) :
    ((List.range count).map (fun n => (items.drop (n * size)).take size)).flatten = items.take (count * size) := by
  induction count with
  | zero => simp
  | succ count ih =>
    rw [List.range_succ, List.map_append, List.flatten_append, ih, Nat.succ_mul, List.take_add]
    simp

theorem flatten_chunks {α : Type} {size : Int} (h : 1 ≤ size) (items : List α) :
    (chunks size items).flatten = items := by
  have hpositive : 0 < size.toNat := by omega
  -- the number of pieces is rounded up, so that together they are long enough
  have hcover : items.length ≤ (items.length + size.toNat - 1) / size.toNat * size.toNat := by
    have hmod := Nat.mod_lt (items.length + size.toNat - 1) hpositive
    have hdiv := Nat.div_add_mod (items.length + size.toNat - 1) size.toNat
    rw [Nat.mul_comm] at hdiv
    omega
  rw [chunks, flatten_map_range, List.take_of_length_le hcover]

structure Open (graph : Graph) : Prop where
  reached : graph.broken = false
  batched : 1 ≤ graph.batchSize

theorem inSession_eq {α : Type} {graph : Graph} (h : graph.Open) (x : Change Graph α) :
    inSession x graph = x graph := by
  rw [inSession, session, h.reached]
  rfl

theorem writeBatch_mirrors {kept : KeptTable} {graph : Graph} (h : Mirrors kept graph.nodes) (hopen : graph.Open)
    {ns source : Atom} (hns : ns.isText = true) (hsource : source.isText = true) (authority : Authority)
    {entities : List Entity} (hentities : ∀ entity ∈ entities, entity.Textual) :
    ∃ after : Graph, writeBatch ns source authority entities graph = (pure (), after) ∧ after.Open ∧
      Mirrors (kept.writeAll ns source authority entities) after.nodes := by
  have hbegun : Mirrors kept ({ graph with transactions := graph.transactions + 1 } : Graph).nodes := h
  obtain ⟨written, hwritten, hmirrors⟩ := writeEntities_mirrors hbegun hns hsource authority hentities
  refine ⟨{ graph with transactions := graph.transactions + 1, nodes := written }, ?_,
    ⟨hopen.reached, hopen.batched⟩, hmirrors⟩
  exact (Change.bind_of_pure rfl _).trans hwritten

theorem writeBatches_mirrors {kept : KeptTable} {graph : Graph} (h : Mirrors kept graph.nodes) (hopen : graph.Open)
    {ns source : Atom} (hns : ns.isText = true) (hsource : source.isText = true) (authority : Authority)
    {batches : List (List Entity)} (hentities : ∀ batch ∈ batches, ∀ entity ∈ batch, entity.Textual) :
    ∃ after : Graph, (batches.forM (writeBatch ns source authority) : Change Graph Unit) graph = (pure (), after) ∧
      after.Open ∧ Mirrors (kept.writeAll ns source authority batches.flatten) after.nodes := by
  induction batches generalizing kept graph with
  | nil => exact ⟨graph, rfl, hopen, (KeptTable.writeAll_nil kept ns source authority).symm ▸ h⟩
  | cons batch rest ih =>
    obtain ⟨hbatch, hrest⟩ := List.forall_mem_cons.1 hentities
    obtain ⟨between, hbetween, hbetweenOpen, hmirrors⟩ :=
      writeBatch_mirrors h hopen hns hsource authority hbatch
    obtain ⟨after, hafter, hopened, hall⟩ := ih hmirrors hbetweenOpen hrest
    refine ⟨after, ?_, hopened, by rwa [List.flatten_cons, ← KeptTable.writeAll_append]⟩
    exact (Change.bind_of_pure hbetween _).trans hafter

theorem upsert_mirrors {kept : KeptTable} {graph : Graph} (h : Mirrors kept graph.nodes) (hopen : graph.Open)
    {ns source : Atom} (hns : ns.isText = true) (hsource : source.isText = true) (authority : Authority)
    {entities : List Entity} (hentities : ∀ entity ∈ entities, entity.Textual) :
    ∃ after : Graph, upsert ns entities source authority graph = (pure (), after) ∧ after.Open ∧
      Mirrors (kept.writeAll ns source authority entities) after.nodes := by
  have hflatten := flatten_chunks hopen.batched entities
  have hbatches : ∀ batch ∈ chunks graph.batchSize entities, ∀ entity ∈ batch, entity.Textual :=
    fun batch hbatch entity hentity => hentities entity (hflatten ▸ List.mem_flatten_of_mem hbatch hentity)
  obtain ⟨after, hafter, hopened, hmirrors⟩ := writeBatches_mirrors h hopen hns hsource authority hbatches
  rw [hflatten] at hmirrors
  refine ⟨after, ?_, hopened, hmirrors⟩
  have hsize : ¬graph.batchSize = 0 := by
    have := hopen.batched
    omega
  rw [upsert, inBatches]
  refine (inSession_eq hopen _).trans ?_
  exact (if_neg hsize).trans hafter

end Graph

end FleetCache
