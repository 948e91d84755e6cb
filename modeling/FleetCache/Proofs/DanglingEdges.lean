import FleetCache.Proofs.ViewReads
import FleetCache.Views.LoadBalancers
/-!
Edges that lead nowhere. A cache may hold edges to ids that are not stored, or not yet; taking them out of every entity
changes nothing that the views show.
-/
set_option autoImplicit false

namespace FleetCache

def Relations.leadingTo (present : Atom → Atom → Bool) (relations : Relations) : Relations :=
  relations.map (fun ns ids => ids.filter (present ns))

def Stored.prune (present : Atom → Atom → Bool) (stored : Stored) : Stored :=
  { stored with contributions := stored.contributions.map (fun _ relations => relations.leadingTo present) }

namespace Memory

def holds (store : Memory) (ns id : Atom) : Bool :=
  (store.get ns id).isSome

/-- The cache without the edges that lead to nothing in it. -/
def prune (store : Memory) : Memory :=
  ⟨store.parts.map (fun _ part => ⟨part.table.map (fun _ stored => stored.prune store.holds), part.bySource⟩)⟩

theorem holds_congr (store : Memory) {ns ns' id id' : Atom} (hns : (ns == ns') = true) (hid : (id == id') = true) :
    store.holds ns id = store.holds ns' id' := by
  rw [holds, holds, get_eq, get_eq, Option.isSome_map, Option.isSome_map, kept_congr store hns, kept, kept,
    Table.getElem?_congr _ hid]

theorem holds_of_get {store : Memory} {ns id : Atom} {entity : Entity} (h : store.get ns id = some entity) :
    store.holds ns id = true := by
  rw [holds, h]
  rfl

theorem kept_prune (store : Memory) (ns id : Atom) :
    store.prune.kept ns id = (store.kept ns id).map (Stored.prune store.holds) := by
  simp only [kept, part, prune, Std.ExtTreeMap.getD_eq_getD_getElem?, Table.getElem?_map]
  cases store.parts[ns]? with
  | none => simp [Partition.empty]
  | some part => exact Table.getElem?_map _ _ _

theorem identifiers_prune (store : Memory) (ns : Atom) : store.prune.identifiers ns = store.identifiers ns := by
  simp only [identifiers, part, prune, Std.ExtTreeMap.getD_eq_getD_getElem?, Table.getElem?_map]
  cases store.parts[ns]? with
  | none => rfl
  | some part => exact Std.ExtTreeMap.keys_map

end Memory

theorem Relations.mem_related_leadingTo {present : Atom → Atom → Bool}
    (hpresent : ∀ ns ns' id id', (ns == ns') = true → (id == id') = true → present ns id = present ns' id')
    (relations : Relations) (target id : Atom) :
    id ∈ (relations.leadingTo present).related target ↔ id ∈ relations.related target ∧ present target id = true := by
  by_cases htarget : target ∈ relations
  · have hform := Std.ExtTreeMap.getKey?_eq_some_getKey htarget
    have hsame : (relations.getKey target htarget == target) = true :=
      (Atom.compare_eq_iff _ _).1 (Std.ExtTreeMap.compare_getKey_self htarget)
    rw [related_eq, leadingTo, Std.ExtTreeMap.getElem?_map_of_getKey?_eq_some hform, getElem?_eq_related htarget]
    refine Std.ExtTreeSet.mem_filter.trans ⟨fun ⟨hid, hkept⟩ => ⟨hid, ?_⟩, fun ⟨hid, hkept⟩ => ⟨hid, ?_⟩⟩
    · rwa [hpresent _ _ _ _ hsame ((Atom.compare_eq_iff _ _).1 (Std.ExtTreeSet.compare_get_self hid))] at hkept
    · rwa [hpresent _ _ _ _ hsame ((Atom.compare_eq_iff _ _).1 (Std.ExtTreeSet.compare_get_self hid))]
  · have hgone : target ∉ relations.map (fun ns ids => ids.filter (present ns)) :=
      fun hmem => htarget (Std.ExtTreeMap.mem_map.1 hmem)
    rw [related_eq, related_eq, leadingTo, Std.ExtTreeMap.getElem?_eq_none htarget,
      Std.ExtTreeMap.getElem?_eq_none hgone]
    exact iff_of_false Std.ExtTreeSet.not_mem_empty (fun h => Std.ExtTreeSet.not_mem_empty h.1)

namespace Memory

/-- An entity that a cache has in a namespace, and what is left of it without the edges that lead to nothing. -/
structure Pruned (store : Memory) (ns : Atom) (entity pruned : Entity) : Prop where
  stored : store.get ns entity.id = some entity
  eq : pruned = { entity with relations := pruned.relations }
  related : ∀ target id, id ∈ pruned.related target ↔ id ∈ entity.related target ∧ store.holds target id = true

theorem mem_related_prune (store : Memory) (stored : Stored) (ns id target other : Atom) :
    other ∈ ((stored.prune store.holds).toEntity ns id).related target ↔
      other ∈ (stored.toEntity ns id).related target ∧ store.holds target other = true := by
  have hedges (source : Atom) :
      other ∈ (Contributions.edgesOf (stored.prune store.holds).contributions source).related target ↔
        other ∈ (stored.contributions.edgesOf source).related target ∧ store.holds target other = true := by
    rw [Contributions.edgesOf_eq, Contributions.edgesOf_eq, Stored.prune, Table.getElem?_map]
    cases stored.contributions[source]? with
    | none =>
      exact iff_of_false (Relations.not_mem_related_empty target other)
        (fun h => Relations.not_mem_related_empty target other h.1)
    | some relations =>
      exact relations.mem_related_leadingTo (fun _ _ _ _ hns hid => store.holds_congr hns hid) target other
  change other ∈ (stored.prune store.holds).contributions.merged.related target ↔
    other ∈ stored.contributions.merged.related target ∧ _
  simp only [Contributions.mem_related_merged, hedges, exists_and_right]

theorem rel_get_prune (store : Memory) (ns id : Atom) :
    Option.Rel (store.Pruned ns) (store.get ns id) (store.prune.get ns id) := by
  rw [get_eq, get_eq, kept_prune]
  cases hkept : store.kept ns id with
  | none => exact .none
  | some stored =>
    refine .some ⟨?_, rfl, store.mem_related_prune stored ns id⟩
    change store.get ns id = _
    rw [get_eq, hkept]
    rfl

theorem get_prune_of_not_holds {store : Memory} {ns id : Atom} (h : store.holds ns id = false) :
    store.prune.get ns id = none := by
  have hrel := store.rel_get_prune ns id
  rw [holds, Option.isSome_eq_false_iff, Option.isNone_iff_eq_none] at h
  rw [h] at hrel
  generalize store.prune.get ns id = pruned at hrel
  cases hrel
  rfl

end Memory

theorem sortedTexts_filter {ids kept : AtomSet} {p : Atom → Bool} (h : ids.Textual)
    (hkept : ∀ id, id ∈ kept ↔ id ∈ ids ∧ p id = true) :
    sortedTexts kept.toList = (sortedTexts ids.toList).filter p := by
  have htextual : kept.Textual := fun id hid => h id ((hkept id).1 hid).1
  refine (ListsKeys.of_set htextual).unique (((ListsKeys.of_set h).filter p).congr (fun key => ?_))
  exact (hkept _).symm

namespace Views

variable {store : Memory} {ns : Atom} {entity pruned : Entity}

def ReadAlike (store : Memory) (ns : Namespace) (read readPruned : Traced (List Entity)) : Prop :=
  ∃ found pruned, read = pure found ∧ readPruned = pure pruned ∧ List.Forall₂ (store.Pruned ns.name) found pruned

theorem fetch_prune (store : Memory) (ns : Namespace) {ids kept : AtomSet} (h : ids.Textual)
    (hkept : ∀ id, id ∈ kept ↔ id ∈ ids ∧ store.holds ns.name id = true) :
    ReadAlike store ns (fetch store ns ids) (fetch store.prune ns kept) := by
  have htextual : kept.Textual := fun id hid => h id ((hkept id).1 hid).1
  refine ⟨_, _, fetch_eq store ns h, fetch_eq store.prune ns htextual, ?_⟩
  have hleft : (sortedTexts kept.toList).filterMap (store.prune.get ns.name) =
      (sortedTexts ids.toList).filterMap (store.prune.get ns.name) := by
    rw [sortedTexts_filter h hkept, List.filterMap_filter]
    refine List.filterMap_congr (fun id _ => ?_)
    cases hheld : store.holds ns.name id with
    | true => rfl
    | false => exact (Memory.get_prune_of_not_holds hheld).symm
  rw [(ListsKeys.of_set h).getAll, (ListsKeys.of_set htextual).getAll, hleft]
  exact forall₂_filterMap (fun id _ => store.rel_get_prune ns.name id)

theorem follow_prune (htexts : TextEdges store) (h : store.Pruned ns entity pruned) (target : Namespace) :
    ReadAlike store target (follow store entity target) (follow store.prune pruned target) :=
  fetch_prune store target (htexts ns entity.id entity h.stored _) (h.related target.name)

theorem usableServerGroup_pruned (h : store.Pruned ns entity pruned) :
    usableServerGroup entity = usableServerGroup pruned := by
  rw [h.eq]
  rfl

theorem instanceName_pruned (h : store.Pruned ns entity pruned) : instanceName entity = instanceName pruned := by
  rw [h.eq]
  rfl

theorem loadBalancer_pruned (htexts : TextEdges store) (h : store.Pruned ns entity pruned)
    {groups : List (Atom × BalancedGroup)}
    (hgroups : ∀ key, store.holds Namespace.serverGroups.name key = false → groups.lookup key = none) :
    loadBalancer groups entity = loadBalancer groups pruned := by
  have hedges := htexts ns entity.id entity h.stored
  have hkept : AtomSet.Textual (pruned.related Namespace.serverGroups.name) :=
    fun id hid => hedges _ id ((h.related _ id).1 hid).1
  have hshown : (sortedTexts (pruned.related Namespace.serverGroups.name).toList).filterMap (groups.lookup ·) =
      (sortedTexts (entity.related Namespace.serverGroups.name).toList).filterMap (groups.lookup ·) := by
    rw [sortedTexts_filter (hedges _) (h.related _), List.filterMap_filter]
    refine List.filterMap_congr (fun key _ => ?_)
    cases hheld : store.holds Namespace.serverGroups.name key with
    | true => rfl
    | false => exact (hgroups key hheld).symm
  have hchecked : checkedAttributes Schema.Balancer.check entity = checkedAttributes Schema.Balancer.check pruned := by
    rw [h.eq]
    rfl
  have hid : pruned.id = entity.id := by
    rw [h.eq]
  unfold loadBalancer
  rw [hchecked, ascending_texts (fun _ ha => AtomSet.isText_of_mem_toList (hedges _) ha),
    ascending_texts (fun _ ha => AtomSet.isText_of_mem_toList hkept ha), hid]
  simp only [pure_bind, hshown]

theorem assembleCluster_pruned (htexts : TextEdges store) (h : store.Pruned ns entity pruned) :
    assembleCluster store entity = assembleCluster store.prune pruned := by
  obtain ⟨groups, prunedGroups, hgroups, hprunedGroups, hsame⟩ := follow_prune htexts h .serverGroups
  obtain ⟨balancers, prunedBalancers, hbalancers, hprunedBalancers, halike⟩ := follow_prune htexts h .loadBalancers
  have hshown := Traced.mapM_congr hsame (fun _ _ hpruned => usableServerGroup_pruned hpruned)
  have hbalanced : balancers.mapM (loadBalancer []) = prunedBalancers.mapM (loadBalancer []) :=
    Traced.mapM_congr halike (fun _ _ hpruned => loadBalancer_pruned htexts hpruned (fun _ _ => rfl))
  have hid : pruned.id = entity.id := by
    rw [h.eq]
  have hattributes : pruned.attributes = entity.attributes := by
    rw [h.eq]
  unfold assembleCluster
  rw [hgroups, hprunedGroups, hbalancers, hprunedBalancers, hid, hattributes]
  simp only [pure_bind, hshown, hbalanced]

/-- The instances of a server group are looked for among those at hand, so it does not matter which others it has edges
to. -/
theorem balancedGroup_pruned (htexts : TextEdges store) (h : store.Pruned ns entity pruned)
    {instances prunedInstances : List Entity}
    (hinstances : List.Forall₂ (store.Pruned Namespace.instances.name) instances prunedInstances) :
    balancedGroup entity instances = balancedGroup pruned prunedInstances := by
  have hedges := htexts ns entity.id entity h.stored
  have hkept : AtomSet.Textual (pruned.related Namespace.instances.name) :=
    fun id hid => hedges _ id ((h.related _ id).1 hid).1
  have hstored : ∀ found ∈ instances, store.get Namespace.instances.name found.id = some found := by
    intro found hfound
    obtain ⟨_, -, hpruned⟩ := exists_mem_of_forall₂ hinstances hfound
    exact hpruned.stored
  have hmembers : List.Forall₂ (store.Pruned Namespace.instances.name)
      ((sortedTexts (entity.related Namespace.instances.name).toList).filterMap
        (fun key => instances.find? (fun e => e.id == key)))
      ((sortedTexts (pruned.related Namespace.instances.name).toList).filterMap
        (fun key => prunedInstances.find? (fun e => e.id == key))) := by
    have hfound (key : Atom) : Option.Rel (store.Pruned Namespace.instances.name)
        (instances.find? (fun e => e.id == key)) (prunedInstances.find? (fun e => e.id == key)) :=
      rel_find? hinstances (fun e e' hpruned => by rw [hpruned.eq])
    have hheld : (sortedTexts (pruned.related Namespace.instances.name).toList).filterMap
          (fun key => prunedInstances.find? (fun e => e.id == key)) =
        (sortedTexts (entity.related Namespace.instances.name).toList).filterMap
          (fun key => prunedInstances.find? (fun e => e.id == key)) := by
      rw [sortedTexts_filter (hedges _) (h.related _), List.filterMap_filter]
      refine List.filterMap_congr (fun key _ => ?_)
      cases hheld : store.holds Namespace.instances.name key with
      | true => rfl
      | false =>
        have hnone : instances.find? (fun e => e.id == key) = none := by
          refine List.find?_eq_none.2 (fun e he hsame => ?_)
          rw [← store.holds_congr BEq.rfl hsame, Memory.holds_of_get (hstored e he)] at hheld
          cases hheld
        have hrel := hfound key
        rw [hnone] at hrel
        generalize prunedInstances.find? (fun e => e.id == key) = other at hrel
        cases hrel
        rfl
    rw [hheld]
    exact forall₂_filterMap (fun key _ => hfound key)
  have hnames := Traced.mapM_congr hmembers (fun _ _ hpruned => instanceName_pruned hpruned)
  have hid : pruned.id = entity.id := by
    rw [h.eq]
  have hattributes : pruned.attributes = entity.attributes := by
    rw [h.eq]
  unfold balancedGroup
  rw [ascending_texts (fun _ ha => AtomSet.isText_of_mem_toList (hedges _) ha),
    ascending_texts (fun _ ha => AtomSet.isText_of_mem_toList hkept ha), hid, hattributes]
  simp only [pure_bind, hnames]

theorem followAll_prune (htexts : TextEdges store) {entities prunedEntities : List Entity}
    (h : List.Forall₂ (store.Pruned ns) entities prunedEntities) (target : Namespace) :
    ReadAlike store target (followAll store entities target) (followAll store.prune prunedEntities target) := by
  refine fetch_prune store target (fun id hid => ?_) (fun id => ?_)
  · obtain hnone | ⟨source, hsource, hrelated⟩ := (mem_foldl_related _ _ _ _).1 hid
    · exact absurd hnone Std.ExtTreeSet.not_mem_empty
    · obtain ⟨_, -, hpruned⟩ := exists_mem_of_forall₂ h hsource
      exact htexts ns source.id source hpruned.stored _ id hrelated
  · have hrelated : (∃ source ∈ prunedEntities, id ∈ source.related target.name) ↔
        (∃ source ∈ entities, id ∈ source.related target.name) ∧ store.holds target.name id = true := by
      induction h with
      | nil => simp
      | cons hhead _ ih => rw [List.exists_mem_cons_iff, List.exists_mem_cons_iff, ih, hhead.related, or_and_right]
    rw [mem_foldl_related, mem_foldl_related, hrelated, or_iff_right Std.ExtTreeSet.not_mem_empty,
      or_iff_right Std.ExtTreeSet.not_mem_empty]

theorem assembleBalancers_pruned (htexts : TextEdges store) {entities prunedEntities : List Entity}
    (h : List.Forall₂ (store.Pruned ns) entities prunedEntities) :
    assembleBalancers store entities = assembleBalancers store.prune prunedEntities := by
  obtain ⟨groups, prunedGroups, hgroups, hprunedGroups, halike⟩ := followAll_prune htexts h .serverGroups
  obtain ⟨instances, prunedInstances, hinstances, hprunedInstances, hsame⟩ := followAll_prune htexts halike .instances
  have hbalanced : groups.mapM (fun group => do
        let shown ← balancedGroup group instances
        pure (group.id, shown)) =
      prunedGroups.mapM (fun group => do
        let shown ← balancedGroup group prunedInstances
        pure (group.id, shown)) := by
    refine Traced.mapM_congr halike (fun group prunedGroup hpruned => ?_)
    rw [balancedGroup_pruned htexts hpruned hsame, hpruned.eq]
  unfold assembleBalancers
  rw [hgroups, hprunedGroups]
  simp only [pure_bind]
  rw [hinstances, hprunedInstances]
  simp only [pure_bind]
  rw [hbalanced]
  refine Traced.bind_congr_of_ok (fun balanced hok => ?_)
  -- only server groups that are stored have been put together
  have hnone (key : Atom) (hkey : store.holds Namespace.serverGroups.name key = false) :
      balanced.lookup key = none := by
    refine lookup_eq_none (fun shown hshown => ?_)
    rw [← hbalanced] at hok
    obtain ⟨group, hgroup, hmade⟩ := exists_mem_of_forall₂ (Traced.forall₂_of_mapM hok).flip hshown
    obtain ⟨_, -, rfl⟩ := Traced.exists_of_map hmade
    obtain ⟨_, -, hpruned⟩ := exists_mem_of_forall₂ halike hgroup
    refine Bool.eq_false_iff.2 (fun hsame => ?_)
    rw [← store.holds_congr BEq.rfl hsame, Memory.holds_of_get hpruned.stored] at hkey
    cases hkey
  rw [Traced.mapM_congr h (fun _ _ hpruned => loadBalancer_pruned htexts hpruned hnone)]

theorem assembleClusters_pruned (htexts : TextEdges store) {entities prunedEntities : List Entity}
    (h : List.Forall₂ (store.Pruned ns) entities prunedEntities) :
    assembleClusters store entities = assembleClusters store.prune prunedEntities :=
  Traced.mapM_congr h (fun _ _ hpruned => assembleCluster_pruned htexts hpruned)

/-- What follows a read does the same whether the entity comes with the edges that lead to nothing or without them. -/
theorem get_prune_bind {α : Type} (store : Memory) (ns id : Atom) {f g : Option Entity → Traced α}
    (hnone : f none = g none)
    (hsome : ∀ entity pruned, store.Pruned ns entity pruned → f (some entity) = g (some pruned)) :
    (CacheStore.get store ns id >>= f : Traced α) = CacheStore.get store.prune ns id >>= g := by
  have hrel := store.rel_get_prune ns id
  change (pure (store.get ns id) >>= f : Traced α) = pure (store.prune.get ns id) >>= g
  rw [pure_bind, pure_bind]
  generalize store.get ns id = found at hrel ⊢
  generalize store.prune.get ns id = pruned at hrel ⊢
  cases hrel with
  | none => exact hnone
  | some hpruned => exact hsome _ _ hpruned

theorem getAll_prune_bind {α : Type} (store : Memory) (ns : Atom) (ids : List Atom) {f g : List Entity → Traced α}
    (h : ∀ found pruned, List.Forall₂ (store.Pruned ns) found pruned → f found = g pruned) :
    (CacheStore.getAll store ns ids >>= f : Traced α) = CacheStore.getAll store.prune ns ids >>= g := by
  change (pure (store.getAll ns ids) >>= f : Traced α) = pure (store.prune.getAll ns ids) >>= g
  rw [pure_bind, pure_bind]
  exact h _ _ (forall₂_filterMap (fun id _ => store.rel_get_prune ns id))

theorem clusterDetails_prune (htexts : TextEdges store) (application : Value) :
    clusterDetails store application = clusterDetails store.prune application := by
  unfold clusterDetails
  refine bind_congr (fun key => get_prune_bind store _ _ rfl (fun app prunedApp happ => ?_))
  obtain ⟨entities, prunedEntities, hentities, hprunedEntities, halike⟩ := follow_prune htexts happ .clusters
  simp only [hentities, hprunedEntities, pure_bind, assembleClusters_pruned htexts halike]

theorem clusters_prune (htexts : TextEdges store) (application account : Value) :
    clusters store application account = clusters store.prune application account := by
  unfold clusters
  refine bind_congr (fun pattern => ?_)
  rw [matching_congr (store.identifiers_prune Namespace.clusters.name).symm pattern]
  exact bind_congr (fun ids => getAll_prune_bind store _ _ (fun _ _ halike => assembleClusters_pruned htexts halike))

theorem cluster_prune (htexts : TextEdges store) (application account name : Value) :
    cluster store application account name = cluster store.prune application account name := by
  unfold cluster
  refine bind_congr (fun key => get_prune_bind store _ _ rfl (fun entity pruned hpruned => ?_))
  exact congrArg (some <$> ·) (assembleCluster_pruned htexts hpruned)

theorem findServerGroup_prune (store : Memory) (account region name : Value) :
    findServerGroup store account region name = findServerGroup store.prune account region name := by
  unfold findServerGroup
  exact bind_congr (fun key =>
    get_prune_bind store _ _ rfl (fun entity pruned hpruned => usableServerGroup_pruned hpruned))

theorem loadBalancers_prune (htexts : TextEdges store) : loadBalancers store = loadBalancers store.prune := by
  have hids : (CacheStore.identifiers store.prune Namespace.loadBalancers.name : Traced (List Atom)) =
      CacheStore.identifiers store Namespace.loadBalancers.name :=
    congrArg Traced.pure (store.identifiers_prune _)
  unfold loadBalancers CacheStore.contents CacheStore.sortedIdentifiers
  rw [hids]
  simp only [bind_assoc]
  exact bind_congr (fun ids => bind_congr (fun sorted =>
    getAll_prune_bind store _ _ (fun _ _ halike => assembleBalancers_pruned htexts halike)))

/-- Taking the edges that lead to nothing out of all entities leaves everything else as it is. Whatever is asked for,
the views of clusters, of server groups and of load balancers then show the same, or fail in the same way, and log the
same. Edges lead to texts. -/
theorem dangling_edges_never_show {store : Memory} (htexts : TextEdges store) :
    (∀ ns id, Option.Rel (store.Pruned ns) (store.get ns id) (store.prune.get ns id)) ∧
    (∀ application, clusterDetails store application = clusterDetails store.prune application) ∧
    (∀ application account, clusters store application account = clusters store.prune application account) ∧
    (∀ application account name,
      cluster store application account name = cluster store.prune application account name) ∧
    (∀ account region name,
      findServerGroup store account region name = findServerGroup store.prune account region name) ∧
    loadBalancers store = loadBalancers store.prune :=
  ⟨store.rel_get_prune, clusterDetails_prune htexts, clusters_prune htexts, cluster_prune htexts,
    findServerGroup_prune store, loadBalancers_prune htexts⟩

def danglingHistory : List Operation :=
  [.upsert Namespace.serverGroups.name
      [⟨Namespace.serverGroups.name, "web-v002", [("name", "web-v002")], ∅⟩] defaultSource
      .authoritative,
    .upsert Namespace.clusters.name
      [⟨Namespace.clusters.name, "aws:cluster:prod:web:web", [], Relations.ofGroups [(Namespace.serverGroups.name,
        ["web-v001", "web-v002"])]⟩] defaultSource .authoritative]

theorem danglingHistory_textEdges : TextEdges (Memory.after danglingHistory) := by
  have hgroups : Relations.TextualGroups [(Atom.str Namespace.serverGroups.name,
      [Atom.str "web-v001", Atom.str "web-v002"])] := by
    simp [Relations.TextualGroups, Atom.isText]
  refine textEdges_after ?_
  simp only [danglingHistory, List.forall_mem_cons, Operation.entities, Relations.textual_empty,
    Relations.textual_ofGroups hgroups, List.not_mem_nil, false_implies, implies_true, and_self]

def edgeCount (store : Memory) : Option Nat :=
  (store.get Namespace.clusters.name "aws:cluster:prod:web:web").map
    (fun entity => (entity.related Namespace.serverGroups.name).size)

theorem dangling_edges_never_show_gone : TextEdges (Memory.after danglingHistory) ∧
    edgeCount (Memory.after danglingHistory) = some 2 ∧ edgeCount (Memory.after danglingHistory).prune = some 1 ∧
    ∃ shown, (cluster (Memory.after danglingHistory) "web" "prod" "web").result = .ok (some shown) ∧
      (cluster (Memory.after danglingHistory).prune "web" "prod" "web").result = .ok (some shown) ∧
      shown.serverGroups.length = 1 := by
  obtain ⟨-, -, -, hcluster, -, -⟩ := dangling_edges_never_show danglingHistory_textEdges
  have hshown : ((cluster (Memory.after danglingHistory) "web" "prod" "web").result.toOption.bind id).map
      (fun shown => shown.serverGroups.length) = some 1 := by decide +kernel
  obtain ⟨shown, hfound, hlength⟩ := Option.map_eq_some_iff.1 hshown
  obtain ⟨_, hresult, rfl⟩ := Option.bind_eq_some_iff.1 hfound
  refine ⟨danglingHistory_textEdges, by decide +kernel, by decide +kernel, shown, ok_of_toOption hresult, ?_, hlength⟩
  rw [← hcluster]
  exact ok_of_toOption hresult

end Views

end FleetCache
