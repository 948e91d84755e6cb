import FleetCache.Cache.Store
import FleetCache.Proofs.GraphReads
/-!
The cache in memory and the graph database as one cache. A history of writes, replacements and evictions that
starts on both of them empty gets the same answers from both, and at no point can the reads tell them apart.
-/
set_option autoImplicit false

namespace FleetCache

open FleetCache.Json

namespace Operation

/-- An operation of the JSON language: what it writes, and under which names, is made of texts. -/
def Textual : Operation → Prop
  | upsert ns entities source _ => ns.isText = true ∧ source.isText = true ∧ ∀ entity ∈ entities, entity.Textual
  | replaceSource ns source entities _ => ns.isText = true ∧ source.isText = true ∧ ∀ entity ∈ entities, entity.Textual
  | evict _ _ => True

variable {σ : Type} [CacheStore σ]

/-- An operation as a cache performs it. An eviction answers with the number of entities that it removed. -/
def run : Operation → Change σ (Option Nat)
  | upsert ns entities source authority => do
    CacheStore.upsert ns entities source authority
    return none
  | replaceSource ns source entities authority => do
    CacheStore.replaceSource ns source entities authority
    return none
  | evict ns ids => do
    return some (← CacheStore.evict ns (ids.map .atom))

/-- The answers that a cache gives to a history of operations, and what the cache is then. -/
def runAll : List Operation → σ → List (Except Fault (Option Nat)) × σ
  | [], store => ([], store)
  | op :: rest, store =>
    let (done, between) := op.run store
    let (answers, after) := runAll rest between
    (done.result :: answers, after)

theorem runAll_cons (op : Operation) (rest : List Operation) (store : σ) : runAll (op :: rest) store =
    ((op.run store).1.result :: (runAll rest (op.run store).2).1, (runAll rest (op.run store).2).2) := rfl

end Operation

def Traced.Agree {α β : Type} (related : α → β → Prop) (work : Traced α) (other : Traced β) : Prop :=
  ∃ a b, work.result = .ok a ∧ other.result = .ok b ∧ related a b

/-- Two caches whose reads give the same answers: entities up to the order of the members in their attributes, and
ids and numbers in any order. -/
structure Indistinguishable {σ τ : Type} [CacheStore σ] [CacheStore τ] (store : σ) (other : τ) : Prop where
  get : ∀ ns id, (CacheStore.get store ns id).Agree (Option.Rel EntityOf.Alike) (CacheStore.get other ns id)
  getAll : ∀ ns ids,
    (CacheStore.getAll store ns ids).Agree (List.Forall₂ EntityOf.Alike) (CacheStore.getAll other ns ids)
  identifiers : ∀ ns, (CacheStore.identifiers store ns).Agree List.Perm (CacheStore.identifiers other ns)
  stats : (CacheStore.stats store).Agree List.Perm (CacheStore.stats other)

/-- A graph does what a cache in memory does: it can be reached and mirrors what is kept there. -/
structure Simulates (graph : Graph) (store : Memory) : Prop where
  opened : graph.Open
  sound : store.Sound
  mirrors : Mirrors store.kept graph.nodes

theorem empty_simulates {batchSize : Int} (h : 1 ≤ batchSize) : Simulates (Graph.empty batchSize) Memory.empty where
  opened := ⟨rfl, h⟩
  sound := Memory.empty_sound
  mirrors := by
    have hkept : Memory.empty.kept = fun _ _ => none := by
      funext ns id
      exact Memory.kept_empty ns id
    rw [hkept]
    exact mirrors_nil

theorem Simulates.indistinguishable {graph : Graph} {store : Memory} (h : Simulates graph store) :
    Indistinguishable store graph where
  get ns id :=
    let ⟨found, hfound, hsame⟩ := h.mirrors.get h.opened ns id
    ⟨store.get ns id, found, rfl, hfound, hsame⟩
  getAll ns ids :=
    let ⟨found, hfound, hsame⟩ := h.mirrors.getAll h.opened ns ids
    ⟨store.getAll ns ids, found, rfl, hfound, hsame⟩
  identifiers ns :=
    ⟨store.identifiers ns, (graph.nodesOf ns).map Node.id, rfl,
      by
        change graph.identifiers ns = _
        rw [Graph.identifiers, Graph.session, h.opened.reached]
        rfl,
      h.mirrors.identifiers ns⟩
  stats :=
    let ⟨counts, hcounts, hsame⟩ := h.mirrors.stats h.opened
    ⟨store.stats, counts, rfl, hcounts, hsame⟩

namespace Memory

variable {store : Memory}

theorem kept_upsert (h : store.Sound) (ns source : Atom) (authority : Authority) (entities : List Entity) :
    (store.upsert ns entities source authority).kept = KeptTable.writeAll store.kept ns source authority entities := by
  funext ns' id
  exact (Operation.upsert ns entities source authority).kept_apply h ns' id

theorem kept_replaceSource (h : store.Sound) (ns source : Atom) (authority : Authority) (entities : List Entity) :
    (store.replaceSource ns source entities authority).kept =
      (KeptTable.dropSource store.kept ns source (entities.map EntityOf.id)).writeAll ns source authority entities := by
  funext ns' id
  have hreturning : (entities.map EntityOf.id).contains id = !(Partition.withId id entities).isEmpty := by
    rw [← Partition.contains_ofAtoms_ids, Bool.eq_iff_iff, AtomSet.contains_iff_mem_ofAtoms,
      Std.ExtTreeSet.contains_iff_mem]
  refine ((Operation.replaceSource ns source entities authority).kept_apply h ns' id).trans ?_
  change (if ns == ns' then Partition.replaced source authority (store.kept ns' id) (Partition.withId id entities)
    else store.kept ns' id) = _
  rw [KeptTable.writeAll, KeptTable.dropSource, hreturning]
  split <;> rfl

theorem kept_evict (h : store.Sound) (ns : Atom) (ids : List Atom) :
    (store.evict ns ids).kept = KeptTable.evict store.kept ns ids := by
  funext ns' id
  refine ((Operation.evict ns ids).kept_apply h ns' id).trans ?_
  change (if ns == ns' then (if ids.contains id then none else store.kept ns' id) else store.kept ns' id) = _
  rw [KeptTable.evict]
  cases ns == ns' <;> rfl

end Memory

theorem frontAtoms_map_atom (ids : List Atom) : frontAtoms (ids.map .atom) = (ids, none) := by
  induction ids with
  | nil => rfl
  | cons id rest ih =>
    rw [List.map_cons, frontAtoms, ih]
    rfl

theorem Memory.run_evict (store : Memory) (ns : Atom) (ids : List Atom) :
    (Operation.evict ns ids).run store =
      (pure (some (store.size ns - (store.evict ns ids).size ns)), store.evict ns ids) := by
  have hevict : CacheStore.evict ns (ids.map .atom) store =
      (pure (store.size ns - (store.evict ns ids).size ns), store.evict ns ids) := by
    change Memory.evictValues ns (ids.map .atom) store = _
    rw [Memory.evictValues, frontAtoms_map_atom]
  exact Change.bind_of_pure hevict _

theorem length_sub_length_filter {α : Type} (items : List α) {keep among : α → Bool}
    (h : ∀ a, among a = false → keep a = true) :
    items.length - (items.filter keep).length =
      (items.filter among).length - ((items.filter keep).filter among).length := by
  -- as a sum, since the subtractions do not go through the induction
  have hsum : items.length + ((items.filter keep).filter among).length =
      (items.filter among).length + (items.filter keep).length := by
    rw [List.filter_filter]
    induction items with
    | nil => rfl
    | cons a rest ih =>
      cases hamong : among a with
      | true => cases hkeep : keep a <;> simp [hamong, hkeep] <;> omega
      | false =>
        simp [hamong, h a hamong]
        omega
  omega

namespace Simulates

variable {graph : Graph} {store : Memory}

theorem removed_eq (h : Simulates graph store) (ns : Atom) (ids : List Atom) {left : List Node}
    (hleft : left = graph.nodes.filter (fun node => !(node.ns == ns && ids.contains node.id)))
    (hmirrors : Mirrors (store.evict ns ids).kept left) :
    graph.nodes.length - left.length = store.size ns - (store.evict ns ids).size ns := by
  have hafter : (store.evict ns ids).size ns = (left.filter (fun node => node.ns == ns)).length := by
    have hnodes : Mirrors (store.evict ns ids).kept ({ graph with nodes := left } : Graph).nodes := hmirrors
    exact hnodes.size ns
  rw [h.mirrors.size ns, hafter, hleft]
  refine length_sub_length_filter _ (fun node hother => ?_)
  rw [hother]
  rfl

theorem upsert (h : Simulates graph store) {ns source : Atom} (hns : ns.isText = true) (hsource : source.isText = true)
    (authority : Authority) {entities : List Entity} (hentities : ∀ entity ∈ entities, entity.Textual) :
    ∃ after, (Operation.upsert ns entities source authority).run graph = (pure none, after) ∧
      Simulates after (store.upsert ns entities source authority) := by
  obtain ⟨after, hafter, hopen, hmirrors⟩ := Graph.upsert_mirrors h.mirrors h.opened hns hsource authority hentities
  refine ⟨after, Change.bind_of_pure hafter _, hopen, ?_, ?_⟩
  · exact (Operation.upsert ns entities source authority).apply_sound h.sound
  · exact Memory.kept_upsert h.sound ns source authority entities ▸ hmirrors

theorem replaceSource (h : Simulates graph store) {ns source : Atom} (hns : ns.isText = true)
    (hsource : source.isText = true) (authority : Authority) {entities : List Entity}
    (hentities : ∀ entity ∈ entities, entity.Textual) :
    ∃ events after, (Operation.replaceSource ns source entities authority).run graph = (⟨.ok none, events⟩, after) ∧
      Simulates after (store.replaceSource ns source entities authority) := by
  obtain ⟨dropped, after, hafter, hopen, hmirrors⟩ := Graph.replaceSource_mirrors h.mirrors h.opened
    (fun ns id stored hkept => h.sound.kept hkept) hns hsource authority hentities
  have hreplace : ∃ events, CacheStore.replaceSource ns source entities authority graph = (⟨.ok (), events⟩, after) :=
    ⟨_, Change.bind_of_pure hafter _⟩
  obtain ⟨events, hreplace⟩ := hreplace
  refine ⟨_, after, Change.bind_of_ok hreplace _, hopen, ?_, ?_⟩
  · exact (Operation.replaceSource ns source entities authority).apply_sound h.sound
  · exact Memory.kept_replaceSource h.sound ns source authority entities ▸ hmirrors

theorem evict (h : Simulates graph store) (ns : Atom) (ids : List Atom) :
    ∃ after, (Operation.evict ns ids).run graph =
        (pure (some (store.size ns - (store.evict ns ids).size ns)), after) ∧
      Simulates after (store.evict ns ids) := by
  obtain ⟨left, hleft, hnodes, hmirrors⟩ := Graph.evict_mirrors h.mirrors h.opened ns ids
  rw [← Memory.kept_evict h.sound] at hmirrors
  rw [h.removed_eq ns ids hnodes hmirrors] at hleft
  refine ⟨{ graph with nodes := left }, Change.bind_of_pure hleft _, ⟨h.opened.reached, h.opened.batched⟩, ?_, hmirrors⟩
  exact (Operation.evict ns ids).apply_sound h.sound

/-- One operation: both caches succeed with the same answer, and the graph goes on doing what the cache in memory
does. -/
theorem run (h : Simulates graph store) {op : Operation} (hop : op.Textual) :
    ∃ answer : Option Nat, (op.run store).1.result = .ok answer ∧ (op.run graph).1.result = .ok answer ∧
      Simulates (op.run graph).2 (op.run store).2 := by
  cases op with
  | upsert ns entities source authority =>
    obtain ⟨hns, hsource, hentities⟩ := hop
    obtain ⟨after, hafter, hsimulates⟩ := h.upsert hns hsource authority hentities
    rw [hafter]
    exact ⟨none, rfl, rfl, hsimulates⟩
  | replaceSource ns source entities authority =>
    obtain ⟨hns, hsource, hentities⟩ := hop
    obtain ⟨events, after, hafter, hsimulates⟩ := h.replaceSource hns hsource authority hentities
    rw [hafter]
    exact ⟨none, rfl, rfl, hsimulates⟩
  | evict ns ids =>
    obtain ⟨after, hafter, hsimulates⟩ := h.evict ns ids
    rw [hafter, Memory.run_evict]
    exact ⟨_, rfl, rfl, hsimulates⟩

/-- A whole history: both caches succeed with the same answers, and the graph goes on doing what the cache in memory
does. -/
theorem runAll (h : Simulates graph store) {history : List Operation} (hhistory : ∀ op ∈ history, op.Textual) :
    ∃ answers : List (Option Nat), (Operation.runAll history store).1 = answers.map .ok ∧
      (Operation.runAll history graph).1 = answers.map .ok ∧
      Simulates (Operation.runAll history graph).2 (Operation.runAll history store).2 := by
  induction history generalizing graph store with
  | nil => exact ⟨[], rfl, rfl, h⟩
  | cons op rest ih =>
    obtain ⟨hop, hrest⟩ := List.forall_mem_cons.1 hhistory
    obtain ⟨answer, hmemory, hgraph, hnext⟩ := h.run hop
    obtain ⟨answers, hmemories, hgraphs, hlast⟩ := ih hnext hrest
    refine ⟨answer :: answers, ?_, ?_, hlast⟩
    · rw [Operation.runAll_cons, hmemory, hmemories, List.map_cons]
    · rw [Operation.runAll_cons, hgraph, hgraphs, List.map_cons]

end Simulates

/-- A cache in memory and a graph database that are empty at first answer a history of operations alike, whatever the
size of the batches: after every part of the history no operation has failed, the evictions have answered with the
same numbers, and the reads give the same answers. -/
theorem memory_and_graph_indistinguishable {history : List Operation} (hhistory : ∀ op ∈ history, op.Textual)
    {batchSize : Int} (hbatch : 1 ≤ batchSize) {earlier : List Operation} (hearlier : earlier <+: history) :
    (∃ answers : List (Option Nat), (Operation.runAll earlier Memory.empty).1 = answers.map .ok ∧
      (Operation.runAll earlier (Graph.empty batchSize)).1 = answers.map .ok) ∧
    Indistinguishable (Operation.runAll earlier Memory.empty).2
      (Operation.runAll earlier (Graph.empty batchSize)).2 := by
  obtain ⟨answers, hmemory, hgraph, hsimulates⟩ :=
    (empty_simulates hbatch).runAll (fun op hop => hhistory op (hearlier.subset hop))
  exact ⟨⟨answers, hmemory, hgraph⟩, hsimulates.indistinguishable⟩

/-- An owner that takes an entity along which another source still reports. -/
theorem memory_and_graph_indistinguishable_owner :
    let image (name cluster : String) : Entity :=
      ⟨"image", "ami-1",
        [("tags", .object [("name", .str name), ("sizes", .list [.int (-4), .decimal ⟨false, 15, 1⟩, .null])])],
        Relations.ofGroups [("cluster", [.str cluster])]⟩
    let history : List Operation :=
      [.replaceSource "image" "owner" [image "a" "web", image "b" "api"] .authoritative,
        .upsert "image" [image "c" "db", image "d" "db"] "hints" .informative,
        .replaceSource "image" "owner" [] .authoritative, .upsert "image" [image "e" "web"] "hints" .informative,
        .evict "image" ["ami-1", "ami-2", "ami-1"]]
    (∀ op ∈ history, op.Textual) ∧
      (Operation.runAll history (Graph.empty 1)).1.map Except.toOption =
        [some none, some none, some none, some none, some (some 1)] ∧
      Indistinguishable (Operation.runAll history Memory.empty).2 (Operation.runAll history (Graph.empty 1)).2 := by
  intro image history
  have himage (name cluster : String) : (image name cluster).Textual := by
    refine ⟨rfl, ?_, Relations.textual_relateAll Relations.textual_empty ?_⟩
    · simp [image, PlainAttributes, Plain, PlainMembers, PlainMember, PlainItems, DistinctNames, Atom.isText]
      refine ⟨by decide, trivial, ?_, ?_, trivial⟩
      · change (Text.natDigits 4).length ≤ Text.maxDigits
        decide
      · change Number.Decimal.shortest ⟨false, 15, 1⟩ = ⟨false, 15, 1⟩ ∧ Int.natAbs 0 ≤ 400
        decide +kernel
    · simp [Relations.TextualGroups, Atom.isText]
  have htextual : ∀ op ∈ history, op.Textual := by
    simp [history, Operation.Textual, himage, Atom.isText]
  obtain ⟨⟨answers, hmemory, hgraph⟩, hsame⟩ :=
    memory_and_graph_indistinguishable htextual (by decide : (1 : Int) ≤ 1) (List.prefix_refl history)
  refine ⟨htextual, ?_, hsame⟩
  rw [hgraph, ← hmemory]
  decide +kernel

end FleetCache
