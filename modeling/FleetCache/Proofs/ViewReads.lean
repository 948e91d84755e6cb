import FleetCache.Proofs.GroupViews
import FleetCache.Proofs.KeyListings
import FleetCache.Proofs.WrittenEntities

set_option autoImplicit false

namespace FleetCache

theorem rel_find? {α β : Type} {R : α → β → Prop} {p : α → Bool} {q : β → Bool} {items : List α} {others : List β}
    (h : List.Forall₂ R items others) (hsame : ∀ a b, R a b → p a = q b) :
    Option.Rel R (items.find? p) (others.find? q) := by
  induction h with
  | nil => exact .none
  | cons hhead _ ih =>
    rw [List.find?_cons, List.find?_cons, hsame _ _ hhead]
    split
    · exact .some hhead
    · exact ih

theorem Relations.textual_ofGroups {groups : List (Atom × List Atom)} (h : TextualGroups groups) :
    (ofGroups groups).Textual :=
  textual_relateAll textual_empty h

namespace Operation

def entities : Operation → List Entity
  | upsert _ entities _ _ | replaceSource _ _ entities _ => entities
  | evict _ _ => []

theorem mem_entities_of_written (op : Operation) {ns id : Atom} {entity : Entity} (h : entity ∈ op.written ns id) :
    entity ∈ op.entities := by
  cases op with
  | upsert ns' entities source authority | replaceSource ns' source entities authority =>
    rw [written] at h
    split at h
    · exact (List.mem_filter.1 h).1
    · cases h
  | evict ns' ids => cases h

end Operation

def Checked.accepts {α : Type} (x : Checked α) : Bool :=
  x.outcome.toOption.isSome

namespace Traced

variable {α β γ : Type}

theorem exists_mapM_filter {f : α → Traced β} {p : α → Bool} {q : β → Bool} {items : List α}
    (h : ∀ a ∈ items, ∃ b, (f a).result = .ok b ∧ q b = p a) :
    ∃ results, (items.mapM f).result = .ok results ∧ ((items.filter p).mapM f).result = .ok (results.filter q) := by
  induction items with
  | nil => exact ⟨[], rfl, rfl⟩
  | cons a rest ih =>
    obtain ⟨⟨b, hb, hsame⟩, hrest⟩ := List.forall_mem_cons.1 h
    obtain ⟨results, hall, hsome⟩ := ih hrest
    refine ⟨b :: results, ?_, ?_⟩
    · rw [List.mapM_cons, result_bind hb, result_bind hall]
      rfl
    · rw [List.filter_cons, List.filter_cons, hsame]
      split
      · rw [List.mapM_cons, result_bind hb, result_bind hsome]
        rfl
      · exact hsome

theorem exists_mapM {f : α → Traced β} {items : List α} (h : ∀ a ∈ items, ∃ b, (f a).result = .ok b) :
    ∃ results, (items.mapM f).result = .ok results := by
  obtain ⟨results, hall, -⟩ := exists_mapM_filter (p := fun _ => true) (q := fun _ => true)
    (fun a ha => (h a ha).imp (fun _ hb => ⟨hb, rfl⟩))
  exact ⟨results, hall⟩

theorem exists_mapM_forall₂ {R : α → β → Prop} {f : α → Traced β} {items : List α}
    (h : ∀ a ∈ items, ∃ b, (f a).result = .ok b ∧ R a b) :
    ∃ results, (items.mapM f).result = .ok results ∧ List.Forall₂ R items results := by
  induction items with
  | nil => exact ⟨[], rfl, .nil⟩
  | cons a rest ih =>
    obtain ⟨⟨b, hb, hrelated⟩, hrest⟩ := List.forall_mem_cons.1 h
    obtain ⟨results, hall, hothers⟩ := ih hrest
    refine ⟨b :: results, ?_, .cons hrelated hothers⟩
    rw [List.mapM_cons, result_bind hb, result_bind hall]
    rfl

theorem error_bind {x : Traced α} {fault : Fault} (h : x.result = .error fault) (f : α → Traced β) :
    (x >>= f).result = .error fault := by
  obtain ⟨result, events⟩ := x
  obtain rfl : result = .error fault := h
  rfl

theorem mapM_congr {R : α → β → Prop} {f : α → Traced γ} {g : β → Traced γ} {items : List α} {others : List β}
    (h : List.Forall₂ R items others) (hsame : ∀ a b, R a b → f a = g b) : items.mapM f = others.mapM g := by
  induction h with
  | nil => rfl
  | cons hhead _ ih => rw [List.mapM_cons, List.mapM_cons, hsame _ _ hhead, ih]

theorem bind_congr_of_ok {x : Traced α} {f g : α → Traced β} (h : ∀ a, x.result = .ok a → f a = g a) :
    x >>= f = x >>= g := by
  obtain ⟨result, events⟩ := x
  cases result with
  | error fault => rfl
  | ok a =>
    change Traced.bind _ f = Traced.bind _ g
    simp only [Traced.bind, h a rfl]

theorem forall₂_of_mapM {f : α → Traced β} {items : List α} {results : List β}
    (h : (items.mapM f).result = .ok results) : List.Forall₂ (fun a b => (f a).result = .ok b) items results := by
  induction items generalizing results with
  | nil =>
    obtain rfl : [] = results := Except.ok.inj h
    exact .nil
  | cons a rest ih =>
    rw [List.mapM_cons] at h
    obtain ⟨b, hb, h⟩ := exists_of_bind h
    obtain ⟨others, hothers, h⟩ := exists_of_bind h
    obtain rfl : b :: others = results := Except.ok.inj h
    exact .cons hb (ih hothers)

end Traced

namespace Views

theorem ascending_texts {items : List Atom} (h : ∀ a ∈ items, a.isText = true) :
    ((ascending items : Except Fault (List Atom)) : Traced (List Atom)) = pure (sortedTexts items) :=
  congrArg Traced.ofExcept (ascending_eq h)

theorem contents_of_texts {store : Memory} {ns : Atom} (h : ∀ id ∈ store.identifiers ns, id.isText = true) :
    (CacheStore.contents store ns : Traced (List Entity)) =
      pure (store.getAll ns (sortedTexts (store.identifiers ns))) := by
  have hlisted : (CacheStore.identifiers store ns : Traced (List Atom)) = pure (store.identifiers ns) := rfl
  unfold CacheStore.contents CacheStore.sortedIdentifiers
  rw [hlisted, pure_bind, ascending_texts h, pure_bind]
  rfl

theorem matching_congr {store other : Memory} {ns : Atom} (h : store.identifiers ns = other.identifiers ns)
    (pattern : String) : (CacheStore.matching store ns pattern : Traced (List String)) =
      CacheStore.matching other ns pattern := by
  change Traced.ofExcept (store.matching ns pattern) = Traced.ofExcept (other.matching ns pattern)
  rw [Memory.matching, Memory.matching, h]

theorem fetch_eq (store : Memory) (ns : Namespace) {ids : AtomSet} (h : ids.Textual) :
    fetch store ns ids = pure (store.getAll ns.name (sortedTexts ids.toList)) := by
  unfold fetch
  split
  · rename_i hempty
    rw [Std.ExtTreeSet.isEmpty_iff] at hempty
    subst hempty
    rfl
  · rw [ascending_texts (fun _ ha => AtomSet.isText_of_mem_toList h ha), pure_bind]
    rfl

theorem fetch_ok (store : Memory) (ns : Namespace) {ids : AtomSet} (h : ids.Textual) :
    (fetch store ns ids).result = .ok (store.getAll ns.name (sortedTexts ids.toList)) := by
  rw [fetch_eq store ns h]
  rfl

structure ShowsChecked (entity : Entity) (checked : Schema.ServerGroup) (group : ServerGroup) : Prop where
  passes : (Schema.ServerGroup.check entity.attributes).Passes checked
  name : group.name = nameOr (.ofOption checked.name) (Key.lastFieldOf? entity.id) entity.id
  disabled : group.disabled = (checked.scalingGroup.lifecycleState != some activeState)

theorem serverGroup_cases (entity : Entity) :
    (∃ checked group, ShowsChecked entity checked group ∧ (serverGroup entity).result = .ok group) ∨
      ∃ errors, (Schema.ServerGroup.check entity.attributes).outcome = .error errors ∧
        (serverGroup entity).result = .error (.schema errors) := by
  cases hchecked : (Schema.ServerGroup.check entity.attributes).outcome with
  | ok checked =>
    have hrun : (Schema.ServerGroup.check entity.attributes).Passes checked := hchecked
    obtain ⟨created, hcreated⟩ := createdTime_ok checked.scalingGroup.creationTime
    unfold serverGroup
    exact .inl ⟨checked, _, ⟨hrun, rfl, rfl⟩, (Traced.result_bind hrun.run _).trans (Traced.result_bind hcreated _)⟩
  | error errors =>
    refine .inr ⟨errors, rfl, ?_⟩
    have hrun : (Schema.ServerGroup.check entity.attributes).run.result = .error (.schema errors) := by
      change (Schema.ServerGroup.check entity.attributes).outcome.mapError _ = _
      rw [hchecked]
      rfl
    unfold serverGroup
    exact Traced.error_bind hrun _

theorem usableServerGroup_cases (entity : Entity) :
    (∃ checked group, ShowsChecked entity checked group ∧ (usableServerGroup entity).result = .ok (some group)) ∨
      ∃ errors, (Schema.ServerGroup.check entity.attributes).outcome = .error errors ∧
        (usableServerGroup entity).result = .ok none := by
  rcases serverGroup_cases entity with ⟨checked, group, hshows, hgroup⟩ | ⟨errors, hchecked, herrors⟩
  · have hsome : (some <$> serverGroup entity).result = .ok (some group) := Traced.result_bind hgroup _
    exact .inl ⟨checked, group, hshows, Traced.result_rescue hsome _⟩
  · have herror : (some <$> serverGroup entity).result = .error (.schema errors) := Traced.error_bind herrors _
    exact .inr ⟨errors, hchecked, Traced.result_rescue_error herror _⟩

theorem usableServerGroup_result (entity : Entity) : ∃ group, (usableServerGroup entity).result = .ok group := by
  rcases usableServerGroup_cases entity with ⟨-, group, -, hgroup⟩ | ⟨-, -, hnone⟩
  · exact ⟨some group, hgroup⟩
  · exact ⟨none, hnone⟩

theorem checkedAttributes_eq {α : Type} (check : Attributes → Checked α) (entity : Entity) :
    (checkedAttributes check entity).result = .ok (check entity.attributes).outcome.toOption := by
  cases hchecked : (check entity.attributes).outcome with
  | ok a =>
    have hpasses : (check entity.attributes).Passes a := hchecked
    have hsome : (some <$> (check entity.attributes).run).result = .ok (some a) := Traced.result_bind hpasses.run _
    exact Traced.result_rescue hsome _
  | error errors =>
    have hrun : (check entity.attributes).run.result = .error (.schema errors) := by
      change (check entity.attributes).outcome.mapError _ = _
      rw [hchecked]
      rfl
    have herror : (some <$> (check entity.attributes).run).result = .error (.schema errors) := Traced.error_bind hrun _
    exact Traced.result_rescue_error herror _

/-- A load balancer is left out when it does not fit its schema; otherwise it shows those of the given server groups
that it has edges to. -/
theorem loadBalancer_result (groups : List (Atom × BalancedGroup)) {entity : Entity}
    (h : AtomSet.Textual (entity.related Namespace.serverGroups.name)) :
    ∃ found, (loadBalancer groups entity).result = .ok found ∧
      found.isSome = (Schema.Balancer.check entity.attributes).accepts ∧
      ∀ shown, found = some shown → shown.id = entity.id ∧ shown.serverGroups =
        (sortedTexts (entity.related Namespace.serverGroups.name).toList).filterMap (fun key => groups.lookup key) := by
  have hchecked := checkedAttributes_eq Schema.Balancer.check entity
  unfold loadBalancer Checked.accepts
  rw [Traced.result_bind hchecked]
  cases (Schema.Balancer.check entity.attributes).outcome.toOption with
  | none => exact ⟨none, rfl, rfl, fun _ hnone => nomatch hnone⟩
  | some a =>
    dsimp only
    rw [ascending_texts (fun _ ha => AtomSet.isText_of_mem_toList h ha), pure_bind]
    refine ⟨_, rfl, rfl, fun shown hshown => ?_⟩
    obtain rfl := Option.some.inj hshown
    exact ⟨rfl, rfl⟩

/-- A cache all of whose edges lead to texts. -/
def TextEdges (store : Memory) : Prop :=
  ∀ ns id found, store.get ns id = some found → ∀ target, AtomSet.Textual (found.related target)

def linkedGroups (store : Memory) (entity : Entity) : List Entity :=
  store.getAll Namespace.serverGroups.name (sortedTexts (entity.related Namespace.serverGroups.name).toList)

/-- A cluster can always be put together. It has the account that is stored, or else that of its key, and those of its
server groups that are usable. -/
theorem assembleCluster_ok {store : Memory} (htexts : TextEdges store) {ns id : Atom} {entity : Entity}
    (h : store.get ns id = some entity) :
    ∃ groups cluster, ((linkedGroups store entity).mapM usableServerGroup).result = .ok groups ∧
      (assembleCluster store entity).result = .ok cluster ∧
      cluster.serverGroups = groups.filterMap (fun found => found) ∧
      cluster.account = nameOr (entity.attributes.get "account") (Key.fieldOf? entity.id 0) .null := by
  have hedges := htexts ns id entity h
  obtain ⟨groups, hgroups⟩ := Traced.exists_mapM
    (fun group (_ : group ∈ linkedGroups store entity) => usableServerGroup_result group)
  obtain ⟨balancers, hbalancers⟩ := Traced.exists_mapM (fun balancer (hmem : balancer ∈ store.getAll
    Namespace.loadBalancers.name (sortedTexts (entity.related Namespace.loadBalancers.name).toList)) =>
    (loadBalancer_result [] (htexts _ _ balancer (Memory.mem_getAll hmem) _)).imp (fun _ hfound => hfound.1))
  obtain ⟨cluster, hcluster, hshows⟩ : ∃ cluster, (assembleCluster store entity).result = .ok cluster ∧
      cluster.serverGroups = groups.filterMap (fun found => found) ∧
      cluster.account = nameOr (entity.attributes.get "account") (Key.fieldOf? entity.id 0) .null := by
    unfold assembleCluster
    refine Traced.exists_bind_ok (fetch_ok store .serverGroups (hedges _)) (Traced.exists_bind_ok hgroups ?_)
    exact Traced.exists_bind_ok (fetch_ok store .loadBalancers (hedges _))
      (Traced.exists_bind_ok hbalancers ⟨_, rfl, rfl, rfl⟩)
  exact ⟨groups, cluster, hgroups, hcluster, hshows⟩

theorem clusters_eq {store : Memory} {application account pattern : String} {keys : List String}
    (hpattern : Key.searchPattern .clusters ([account, application].map some) = .ok pattern)
    (hmatching : store.matching Namespace.clusters.name pattern = .ok keys) :
    (clusters store (.str application) (.str account)).result =
      (assembleClusters store (store.getAll Namespace.clusters.name (keys.map .str))).result := by
  have hlift : liftKey (Key.searchPattern .clusters [(Value.str account).field?, (Value.str application).field?]) =
      .ok pattern := congrArg liftKey hpattern
  have hids : (CacheStore.matching store Namespace.clusters.name pattern : Traced (List String)).result = .ok keys :=
    hmatching
  unfold clusters
  rw [hlift]
  exact (Traced.result_bind rfl _).trans ((Traced.result_bind hids _).trans (Traced.result_bind rfl _))

theorem clusterDetails_eq {application key : String} (hkey : Key.application (some application) = .ok key)
    (store : Memory) : (clusterDetails store (.str application)).result =
      match store.get Namespace.applications.name key with
      | none => .ok none
      | some found => ((do
          let all ← assembleClusters store (← follow store found .clusters)
          return some (Atom.str application, all)) : Traced (Option (Atom × List Cluster))).result := by
  have hlift : liftKey (Key.application (Value.str application).field?) = .ok key := congrArg liftKey hkey
  have hget : (CacheStore.get store Namespace.applications.name key : Traced (Option Entity)).result =
      .ok (store.get Namespace.applications.name key) := rfl
  unfold clusterDetails
  rw [hlift]
  refine (Traced.result_bind rfl _).trans ((Traced.result_bind hget _).trans ?_)
  cases store.get Namespace.applications.name key with
  | none => rfl
  | some found => rfl

theorem mem_filterMap_get {store : Memory} {ns : Atom} {ids : List Atom} {entity : Entity} :
    entity ∈ ids.filterMap (store.get ns) ↔ entity.id ∈ ids ∧ store.get ns entity.id = some entity := by
  rw [List.mem_filterMap]
  constructor
  · rintro ⟨id, hid, hget⟩
    rw [Memory.id_of_get hget]
    exact ⟨hid, hget⟩
  · rintro ⟨hid, hget⟩
    exact ⟨entity.id, hid, hget⟩

theorem linkedGroups_eq (store : Memory) {entity : Entity}
    (h : AtomSet.Textual (entity.related Namespace.serverGroups.name)) :
    linkedGroups store entity = (sortedTexts (entity.related Namespace.serverGroups.name).toList).filterMap
      (store.get Namespace.serverGroups.name) :=
  (ListsKeys.of_set h).getAll store _

theorem mem_foldl_related (sources : List Entity) (ids : AtomSet) (target id : Atom) :
    id ∈ sources.foldl (fun ids source => ids.addAll (source.related target).toList) ids ↔
      id ∈ ids ∨ ∃ source ∈ sources, id ∈ source.related target := by
  induction sources generalizing ids with
  | nil => simp
  | cons source rest ih =>
    rw [List.foldl_cons, ih, AtomSet.mem_addAll, AtomSet.exists_mem_toList]
    simp only [List.mem_cons, exists_eq_or_imp, or_assoc]

theorem textEdges_after {history : List Operation}
    (h : ∀ op ∈ history, ∀ entity ∈ op.entities, entity.relations.Textual) : TextEdges (Memory.after history) := by
  intro ns id found hfound target other hother
  obtain ⟨op, hop, entity, hentity, hrelated⟩ := Memory.exists_written_of_related hfound hother
  exact (h op hop entity (op.mem_entities_of_written hentity)).ids target other hrelated

end Views

end FleetCache
