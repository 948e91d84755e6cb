import FleetCache.Proofs.DroppedGroups
import FleetCache.Proofs.ViewReads
import FleetCache.Views.LoadBalancers
/-!
Server groups in two views. Behind a cluster a server group is read through its schema; one that does not fit is left
out. Behind a load balancer the attributes are read as they stand: a group that does not fit is shown all the same, and
one whose scaling group is no object brings the whole view down.
-/
set_option autoImplicit false

namespace FleetCache

namespace Checked

variable {α β : Type}

theorem exists_of_seq {f : Checked (α → β)} {x : Checked α} {b : β} (h : (f <*> x).Passes b) :
    ∃ g a, f.Passes g ∧ x.Passes a ∧ g a = b := by
  change combine f.outcome x.outcome = .ok b at h
  unfold Passes
  cases hf : f.outcome with
  | error errors =>
    rw [hf] at h
    cases hx : x.outcome <;> rw [hx] at h <;> cases h
  | ok g =>
    rw [hf] at h
    cases hx : x.outcome with
    | error errors =>
      rw [hx] at h
      cases h
    | ok a =>
      rw [hx] at h
      exact ⟨g, a, rfl, rfl, Except.ok.inj h⟩

theorem exists_of_map {x : Checked α} {g : α → β} {b : β} (h : (g <$> x).Passes b) : ∃ a, x.Passes a ∧ g a = b := by
  obtain ⟨g', a, hg, ha, hb⟩ := exists_of_seq (f := pure g) h
  obtain rfl : g = g' := Except.ok.inj hg
  exact ⟨a, ha, hb⟩

theorem passes_of_under {x : Checked α} {step : PathStep} {a : α} (h : (under step x).Passes a) : x.Passes a := by
  change x.outcome.mapError _ = .ok a at h
  change x.outcome = .ok a
  cases hx : x.outcome with
  | error errors =>
    rw [hx] at h
    cases h
  | ok a' =>
    rw [hx] at h
    exact congrArg Except.ok (Except.ok.inj h)

end Checked

namespace Schema

open FleetCache.Checked

variable {members : Attributes}

/-- A text that passes stands in the record just so, or as null where there is none. -/
theorem get_of_passes_text {name : String} {t : Option String} (h : (text members name).Passes t) :
    members.get name = .ofOption t := by
  unfold text Schema.optional at h
  unfold Attributes.get
  cases hlookup : members.lookup (.str name) with
  | none =>
    rw [hlookup] at h
    obtain rfl : none = t := Except.ok.inj h
    rfl
  | some v =>
    rw [hlookup] at h
    have hv := passes_of_under h
    unfold asTextOrNull at hv
    split at hv
    · obtain rfl : none = t := Except.ok.inj hv
      rfl
    · obtain ⟨s, hs, rfl⟩ := Checked.exists_of_map hv
      unfold asText at hs
      split at hs
      · obtain rfl := Except.ok.inj hs
        rfl
      · cases hs

theorem lifecycleState_of_passes {group : ScalingGroup} (h : (ScalingGroup.check members).Passes group) :
    (text members "lifecycleState").Passes group.lifecycleState := by
  unfold ScalingGroup.check at h
  obtain ⟨_, _, h₈, -, rfl⟩ := exists_of_seq h
  obtain ⟨_, _, h₇, -, rfl⟩ := exists_of_seq h₈
  obtain ⟨_, _, h₆, -, rfl⟩ := exists_of_seq h₇
  obtain ⟨_, _, h₅, -, rfl⟩ := exists_of_seq h₆
  obtain ⟨_, _, h₄, -, rfl⟩ := exists_of_seq h₅
  obtain ⟨_, _, h₃, -, rfl⟩ := exists_of_seq h₄
  obtain ⟨_, _, h₂, hstate, rfl⟩ := exists_of_seq h₃
  obtain ⟨_, _, h₁, -, rfl⟩ := exists_of_seq h₂
  obtain ⟨_, -, rfl⟩ := Checked.exists_of_map h₁
  exact hstate

theorem name_scalingGroup_of_passes {group : ServerGroup} (h : (ServerGroup.check members).Passes group) :
    (text members "name").Passes group.name ∧
      ∃ fields, (members.get "scalingGroup").orElse (.object []) = .object fields ∧
        Attributes.get fields "lifecycleState" = .ofOption group.scalingGroup.lifecycleState := by
  unfold ServerGroup.check at h
  obtain ⟨_, _, h₉, -, rfl⟩ := exists_of_seq h
  obtain ⟨_, _, h₈, -, rfl⟩ := exists_of_seq h₉
  obtain ⟨_, _, h₇, -, rfl⟩ := exists_of_seq h₈
  obtain ⟨_, _, h₆, -, rfl⟩ := exists_of_seq h₇
  obtain ⟨_, scalingGroup, h₅, hgroup, rfl⟩ := exists_of_seq h₆
  obtain ⟨_, _, h₄, -, rfl⟩ := exists_of_seq h₅
  obtain ⟨_, _, h₃, -, rfl⟩ := exists_of_seq h₄
  obtain ⟨_, _, h₂, -, rfl⟩ := exists_of_seq h₃
  obtain ⟨_, _, h₁, -, rfl⟩ := exists_of_seq h₂
  obtain ⟨_, hname, rfl⟩ := Checked.exists_of_map h₁
  refine ⟨hname, ?_⟩
  change ∃ fields, _ ∧ Attributes.get fields "lifecycleState" = .ofOption scalingGroup.lifecycleState
  unfold Schema.optional at hgroup
  unfold Attributes.get
  cases hlookup : members.lookup (.str "scalingGroup") with
  | none =>
    rw [hlookup] at hgroup
    obtain rfl : ScalingGroup.empty = scalingGroup := Except.ok.inj hgroup
    exact ⟨[], rfl, rfl⟩
  | some v =>
    rw [hlookup] at hgroup
    have hchecked : (asRecord ScalingGroup.check (nullAs (.object []) v)).Passes scalingGroup := passes_of_under hgroup
    have hfields {fields : Attributes} (hpasses : (ScalingGroup.check fields).Passes scalingGroup) :
        fields.get "lifecycleState" = .ofOption scalingGroup.lifecycleState :=
      get_of_passes_text (lifecycleState_of_passes hpasses)
    unfold asRecord nullAs at hchecked
    split at hchecked
    · rename_i fields hobject
      split at hobject
      · obtain rfl : [] = fields := Value.object.inj hobject
        exact ⟨[], rfl, hfields hchecked⟩
      · obtain rfl : v = .object fields := hobject
        refine ⟨fields, ?_, hfields hchecked⟩
        cases fields with
        | nil => rfl
        | cons member rest => rfl
    · cases hchecked

end Schema

theorem forall₂_filter_some {α β : Type} {R : α → Option β → Prop} {p : α → Bool} {items : List α}
    {results : List (Option β)} (h : List.Forall₂ R items results) (hsome : ∀ a r, R a r → r.isSome = p a) :
    List.Forall₂ (fun a b => R a (some b)) (items.filter p) (results.filterMap id) := by
  induction h with
  | nil => exact .nil
  | @cons a r rest others hhead _ ih =>
    have hshown := hsome a r hhead
    rw [List.filter_cons, List.filterMap_cons, ← hshown]
    cases r with
    | none => exact ih
    | some b => exact .cons hhead ih

namespace Views

variable {store : Memory} {entity : Entity}

def rawGroup (entity : Entity) : Value :=
  (entity.attributes.get "scalingGroup").orElse (.object [])

/-- Whether the state of a server group can be read from its attributes as they stand. -/
def Legible (entity : Entity) : Prop :=
  ∃ fields, rawGroup entity = .object fields

/-- A server group shown by its attributes as they stand. -/
structure ShowsRaw (entity : Entity) (shown : BalancedGroup) : Prop where
  name : shown.name = nameOr (entity.attributes.get "name") (Key.lastFieldOf? entity.id) entity.id
  disabled : ∃ fields, rawGroup entity = .object fields ∧
    shown.disabled = ((Attributes.get fields "lifecycleState").string? != some activeState)

theorem balancedGroup_ok (hedges : AtomSet.Textual (entity.related Namespace.instances.name))
    (hlegible : Legible entity) (instances : List Entity) :
    ∃ shown, (balancedGroup entity instances).result = .ok shown ∧ ShowsRaw entity shown := by
  obtain ⟨fields, hfields⟩ := hlegible
  have hstate : ((rawGroup entity).member "lifecycleState" : Traced Value) =
      pure (Attributes.get fields "lifecycleState") := by
    rw [hfields]
    rfl
  have hmembers : ∀ member ∈ (sortedTexts (entity.related Namespace.instances.name).toList).filterMap
      (fun key => instances.find? (fun e => e.id == key)), ∃ name, (instanceName member).result = .ok name :=
    fun member _ => ⟨_, Traced.result_bind (checkedAttributes_eq Schema.Machine.check member) _⟩
  obtain ⟨names, hnames⟩ := Traced.exists_mapM hmembers
  change ∃ shown, (((rawGroup entity).member "lifecycleState" : Traced Value) >>= _).result = _ ∧ _
  rw [hstate, pure_bind, ascending_texts (fun _ ha => AtomSet.isText_of_mem_toList hedges ha), pure_bind]
  exact ⟨_, Traced.result_bind hnames _, rfl, fields, hfields, rfl⟩

theorem legible_of_balancedGroup {instances : List Entity} {shown : BalancedGroup}
    (h : (balancedGroup entity instances).result = .ok shown) : Legible entity := by
  obtain ⟨state, hstate, -⟩ := Traced.exists_of_bind h
  change (rawGroup entity).members.map _ = .ok state at hstate
  obtain ⟨fields, hfields, -⟩ := FleetCache.exists_of_map hstate
  unfold Value.members at hfields
  split at hfields
  · rename_i members hobject
    exact ⟨members, hobject⟩
  · cases hfields

theorem isSome_of_usable {found : Option ServerGroup} (h : (usableServerGroup entity).result = .ok found) :
    found.isSome = (Schema.ServerGroup.check entity.attributes).accepts := by
  unfold Checked.accepts
  rcases usableServerGroup_cases entity with ⟨checked, group, hshows, hgroup⟩ | ⟨errors, hchecked, hnone⟩
  · obtain rfl := Except.ok.inj (hgroup.symm.trans h)
    rw [hshows.passes]
    rfl
  · obtain rfl := Except.ok.inj (hnone.symm.trans h)
    rw [hchecked]
    rfl

theorem showsRaw_of_usable {group : ServerGroup} (h : (usableServerGroup entity).result = .ok (some group)) :
    Legible entity ∧
      ∀ shown, ShowsRaw entity shown → shown.name = group.name ∧ shown.disabled = group.disabled := by
  rcases usableServerGroup_cases entity with ⟨checked, group', hshows, husable⟩ | ⟨-, -, hnone⟩
  · obtain rfl := Option.some.inj (Except.ok.inj (husable.symm.trans h))
    obtain ⟨hpasses, fields, hfields, hstate⟩ := Schema.name_scalingGroup_of_passes hshows.passes
    refine ⟨⟨fields, hfields⟩, fun shown hshown => ⟨?_, ?_⟩⟩
    · rw [hshown.name, hshows.name, Schema.get_of_passes_text hpasses]
    · obtain ⟨fields', hfields', hdisabled'⟩ := hshown.disabled
      obtain rfl := Value.object.inj (hfields.symm.trans hfields')
      rw [hdisabled', hshows.disabled, hstate]
      cases checked.scalingGroup.lifecycleState <;> rfl
  · rw [hnone] at h
    cases h

def storedBalancers (store : Memory) : List Entity :=
  store.getAll Namespace.loadBalancers.name (sortedTexts (store.identifiers Namespace.loadBalancers.name))

theorem assembleCluster_groups (htexts : TextEdges store) {ns id : Atom} (h : store.get ns id = some entity) :
    ∃ cluster, (assembleCluster store entity).result = .ok cluster ∧
      List.Forall₂ (fun group shown => (usableServerGroup group).result = .ok (some shown))
        ((linkedGroups store entity).filter (fun group => (Schema.ServerGroup.check group.attributes).accepts))
        cluster.serverGroups := by
  obtain ⟨groups, cluster, hgroups, hcluster, hshown, -⟩ := assembleCluster_ok htexts h
  refine ⟨cluster, hcluster, ?_⟩
  rw [hshown]
  exact forall₂_filter_some (Traced.forall₂_of_mapM hgroups) (fun _ _ hfound => isSome_of_usable hfound)

theorem followAll_eq (htexts : TextEdges store) {ns : Atom} {entities : List Entity}
    (h : ∀ entity ∈ entities, store.get ns entity.id = some entity) (target : Namespace) :
    ∃ ids, ListsKeys (fun key => ∃ entity ∈ entities, Atom.str key ∈ entity.related target.name) ids ∧
      followAll store entities target = pure (ids.filterMap (store.get target.name)) := by
  have htextual : AtomSet.Textual
      (entities.foldl (fun ids source => ids.addAll (source.related target.name).toList) ∅) := by
    intro id hid
    obtain hnone | ⟨source, hsource, hrelated⟩ := (mem_foldl_related _ _ _ _).1 hid
    · exact absurd hnone Std.ExtTreeSet.not_mem_empty
    · exact htexts ns source.id source (h source hsource) _ id hrelated
  have hlists := (ListsKeys.of_set htextual).congr (fun key =>
    (mem_foldl_related entities ∅ target.name (.str key)).trans (or_iff_right Std.ExtTreeSet.not_mem_empty))
  refine ⟨_, hlists, ?_⟩
  rw [← hlists.getAll]
  exact fetch_eq store target htextual

theorem find?_read {P : String → Prop} {ids : List Atom} (hids : ListsKeys P ids) {key : Atom} (hkey : key ∈ ids)
    (ns : Atom) : (ids.filterMap (store.get ns)).find? (fun entity => entity.id == key) = store.get ns key := by
  cases hfound : (ids.filterMap (store.get ns)).find? (fun entity => entity.id == key) with
  | some entity =>
    obtain ⟨hid, hget⟩ := mem_filterMap_get.1 (List.mem_of_find?_eq_some hfound)
    have hsame := List.find?_some hfound
    rw [← Atom.eq_of_beq_of_isText (hids.isText hid) hsame, hget]
  | none =>
    cases hget : store.get ns key with
    | none => rfl
    | some entity =>
      refine absurd ?_ (List.find?_eq_none.1 hfound entity (List.mem_filterMap.2 ⟨key, hkey, hget⟩))
      rw [Memory.id_of_get hget]
      exact BEq.rfl

theorem rel_lookup_balanced {groups : List Entity} {balanced : List (Atom × BalancedGroup)}
    (h : List.Forall₂ (fun (group : Entity) (shown : Atom × BalancedGroup) =>
      shown.1 = group.id ∧ ShowsRaw group shown.2) groups balanced) (key : Atom) :
    Option.Rel ShowsRaw (groups.find? (fun group => group.id == key)) (balanced.lookup key) := by
  induction h with
  | nil => exact .none
  | @cons group shown rest others hhead _ ih =>
    obtain ⟨name, shown⟩ := shown
    obtain ⟨hname, hshows⟩ := hhead
    obtain rfl : name = group.id := hname
    rw [List.find?_cons, List.lookup_cons, BEq.comm]
    split
    · exact .some hshows
    · exact ih

/-- Load balancers can be put together when all the server groups they have edges to are legible. Each shows just these
groups, by their attributes as they stand. -/
theorem assembleBalancers_ok (htexts : TextEdges store) {ns : Atom} {entities : List Entity}
    (h : ∀ entity ∈ entities, store.get ns entity.id = some entity)
    (hlegible : ∀ entity ∈ entities, ∀ group ∈ linkedGroups store entity, Legible group) :
    ∃ balancers, (assembleBalancers store entities).result = .ok balancers ∧
      List.Forall₂ (fun balancer (shown : LoadBalancer) =>
          shown.id = balancer.id ∧ List.Forall₂ ShowsRaw (linkedGroups store balancer) shown.serverGroups)
        (entities.filter (fun balancer => (Schema.Balancer.check balancer.attributes).accepts)) balancers := by
  obtain ⟨ids, hids, hgroups⟩ := followAll_eq htexts h .serverGroups
  have hstored : ∀ group ∈ ids.filterMap (store.get Namespace.serverGroups.name),
      store.get Namespace.serverGroups.name group.id = some group := fun group hgroup => (mem_filterMap_get.1 hgroup).2
  obtain ⟨members, -, hinstances⟩ := followAll_eq htexts hstored .instances
  have hedges (entity : Entity) (hentity : entity ∈ entities) :
      AtomSet.Textual (entity.related Namespace.serverGroups.name) := htexts ns entity.id entity (h entity hentity) _
  have hshow : ∀ group ∈ ids.filterMap (store.get Namespace.serverGroups.name),
      ∃ shown : Atom × BalancedGroup, (do
        let shown ← balancedGroup group (members.filterMap (store.get Namespace.instances.name))
        pure (group.id, shown) : Traced (Atom × BalancedGroup)).result = .ok shown ∧
        shown.1 = group.id ∧ ShowsRaw group shown.2 := by
    intro group hgroup
    -- a group that is read is one that some load balancer has an edge to
    obtain ⟨hid, hget⟩ := mem_filterMap_get.1 hgroup
    obtain ⟨key, ⟨entity, hentity, hrelated⟩, hkey⟩ := (hids.mem _).1 hid
    have hlinked : group ∈ linkedGroups store entity := by
      have hlists := ListsKeys.of_set (hedges entity hentity)
      rw [linkedGroups_eq store (hedges entity hentity), mem_filterMap_get, hlists.mem]
      exact ⟨⟨key, hrelated, hkey⟩, hget⟩
    obtain ⟨shown, hshown, hshows⟩ := balancedGroup_ok (htexts _ _ _ hget _) (hlegible entity hentity group hlinked) _
    exact ⟨_, Traced.result_bind hshown _, rfl, hshows⟩
  obtain ⟨balanced, hmade, hbalanced⟩ := Traced.exists_mapM_forall₂ hshow
  have hbalancers : ∀ entity ∈ entities, ∃ found, (loadBalancer balanced entity).result = .ok found ∧
      (found.isSome = (Schema.Balancer.check entity.attributes).accepts ∧ ∀ shown, found = some shown →
        shown.id = entity.id ∧ List.Forall₂ ShowsRaw (linkedGroups store entity) shown.serverGroups) := by
    intro entity hentity
    obtain ⟨found, hfound, hsome, hshown⟩ := loadBalancer_result balanced (hedges entity hentity)
    refine ⟨found, hfound, hsome, fun shown hsame => ?_⟩
    obtain ⟨hid, hgroups⟩ := hshown shown hsame
    refine ⟨hid, ?_⟩
    rw [hgroups, linkedGroups_eq store (hedges entity hentity)]
    refine forall₂_filterMap (fun key hkey => ?_)
    obtain ⟨text, hrelated, rfl⟩ := ((ListsKeys.of_set (hedges entity hentity)).mem key).1 hkey
    rw [← find?_read hids ((hids.mem _).2 ⟨text, ⟨entity, hentity, hrelated⟩, rfl⟩)]
    exact rel_lookup_balanced hbalanced _
  obtain ⟨assembled, hassembled, hall⟩ := Traced.exists_mapM_forall₂ hbalancers
  refine ⟨assembled.filterMap id, ?_, ?_⟩
  · unfold assembleBalancers
    rw [hgroups]
    simp only [pure_bind]
    rw [hinstances, pure_bind]
    exact (Traced.result_bind hmade _).trans (Traced.result_bind hassembled _)
  · exact (forall₂_filter_some hall (fun _ _ hfound => hfound.1)).imp (fun _ shown hfound => hfound.2 shown rfl)

theorem legible_of_assembleBalancers (htexts : TextEdges store) {ns : Atom} {entities : List Entity}
    (h : ∀ entity ∈ entities, store.get ns entity.id = some entity) {balancers : List LoadBalancer}
    (hok : (assembleBalancers store entities).result = .ok balancers) :
    ∀ entity ∈ entities, ∀ group ∈ linkedGroups store entity, Legible group := by
  intro entity hentity group hgroup
  obtain ⟨ids, hids, hgroups⟩ := followAll_eq htexts h .serverGroups
  have hedges := htexts ns entity.id entity (h entity hentity) Namespace.serverGroups.name
  rw [linkedGroups_eq store hedges, mem_filterMap_get, (ListsKeys.of_set hedges).mem] at hgroup
  obtain ⟨⟨key, hrelated, hkey⟩, hget⟩ := hgroup
  have hread : group ∈ ids.filterMap (store.get Namespace.serverGroups.name) :=
    mem_filterMap_get.2 ⟨(hids.mem _).2 ⟨key, ⟨entity, hentity, hrelated⟩, hkey⟩, hget⟩
  unfold assembleBalancers at hok
  rw [hgroups] at hok
  simp only [pure_bind] at hok
  obtain ⟨instances, -, hok⟩ := Traced.exists_of_bind hok
  obtain ⟨balanced, hmade, -⟩ := Traced.exists_of_bind hok
  obtain ⟨_, -, hshown⟩ := exists_mem_of_forall₂ (Traced.forall₂_of_mapM hmade) hread
  obtain ⟨shown, hshown, -⟩ := Traced.exists_of_map hshown
  exact legible_of_balancedGroup hshown

theorem loadBalancers_eq (hids : ∀ id ∈ store.identifiers Namespace.loadBalancers.name, id.isText = true) :
    loadBalancers store = assembleBalancers store (storedBalancers store) := by
  unfold loadBalancers
  rw [contents_of_texts hids, pure_bind]
  rfl

theorem cluster_ok (htexts : TextEdges store) {application account name : String} (happlication : application ≠ "")
    (haccount : account ≠ "") (hname : name ≠ "") :
    ∃ found, (cluster store (.str application) (.str account) (.str name)).result = .ok found := by
  obtain ⟨key, hkey⟩ := Key.exists_of_texts .clusters [account, application, name] rfl
    (List.forall_mem_cons.2 ⟨haccount, List.forall_mem_cons.2 ⟨happlication, List.forall_mem_singleton.2 hname⟩⟩)
  have hlift : (liftKey (Key.cluster (Value.str name).field? (Value.str application).field?
      (Value.str account).field?) : Traced String) = pure key :=
    congrArg (fun found => Traced.ofExcept (liftKey found)) hkey
  have hget : (CacheStore.get store Namespace.clusters.name key : Traced (Option Entity)) =
      pure (store.get Namespace.clusters.name key) := rfl
  unfold cluster
  rw [hlift, pure_bind, hget, pure_bind]
  cases hfound : store.get Namespace.clusters.name key with
  | none => exact ⟨none, rfl⟩
  | some entity =>
    obtain ⟨-, shown, -, hshown, -⟩ := assembleCluster_ok htexts hfound
    exact ⟨some shown, Traced.result_bind hshown _⟩

theorem clusters_ok (htexts : TextEdges store)
    (hids : ∀ id ∈ store.identifiers Namespace.clusters.name, id.isText = true) (application account : String) :
    ∃ found, (clusters store (.str application) (.str account)).result = .ok found := by
  obtain ⟨pattern, hpattern⟩ : ∃ pattern, Key.searchPattern .clusters ([account, application].map some) = .ok pattern :=
    ⟨_, rfl⟩
  obtain ⟨keys, hmatching, -⟩ := Memory.matching_ok hids pattern
  rw [clusters_eq hpattern hmatching]
  refine Traced.exists_mapM (fun entity hentity => ?_)
  obtain ⟨-, shown, -, hshown, -⟩ := assembleCluster_ok htexts (Memory.mem_getAll hentity)
  exact ⟨shown, hshown⟩

theorem findServerGroup_ok (store : Memory) {account region name : String} (haccount : account ≠ "")
    (hregion : region ≠ "") (hname : name ≠ "") :
    ∃ found, (findServerGroup store (.str account) (.str region) (.str name)).result = .ok found := by
  obtain ⟨key, hkey⟩ := Key.exists_of_texts .serverGroups [account, region, name] rfl
    (List.forall_mem_cons.2 ⟨haccount, List.forall_mem_cons.2 ⟨hregion, List.forall_mem_singleton.2 hname⟩⟩)
  rw [findServerGroup_eq hkey]
  cases store.get Namespace.serverGroups.name key with
  | none => exact ⟨none, rfl⟩
  | some entity => exact usableServerGroup_result entity

/-- Server groups in a cache whose ids and edges are texts. The views of clusters and of server groups do not fail, and
show just those server groups that fit their schema. The view of load balancers fails when one of the groups behind
them is illegible, and only then; otherwise it shows all groups, by their attributes as they stand. A group that fits
is legible, and both views show it with the same name and in the same state. -/
theorem server_groups_behind_both {store : Memory} (htexts : TextEdges store)
    (hids : ∀ ns : Namespace, ∀ id ∈ store.identifiers ns.name, id.isText = true) :
    (∀ application account name : String, application ≠ "" → account ≠ "" → name ≠ "" →
      ∃ found, (cluster store (.str application) (.str account) (.str name)).result = .ok found) ∧
    (∀ application account : String, ∃ found, (clusters store (.str application) (.str account)).result = .ok found) ∧
    (∀ account region name : String, account ≠ "" → region ≠ "" → name ≠ "" →
      ∃ found, (findServerGroup store (.str account) (.str region) (.str name)).result = .ok found) ∧
    (∀ id entity, store.get Namespace.clusters.name id = some entity →
      ∃ shown, (assembleCluster store entity).result = .ok shown ∧
        List.Forall₂ (fun group shownGroup => (usableServerGroup group).result = .ok (some shownGroup))
          ((linkedGroups store entity).filter (fun group => (Schema.ServerGroup.check group.attributes).accepts))
          shown.serverGroups) ∧
    ((∃ balancers, (loadBalancers store).result = .ok balancers) ↔
      ∀ balancer ∈ storedBalancers store, ∀ group ∈ linkedGroups store balancer, Legible group) ∧
    (∀ balancers, (loadBalancers store).result = .ok balancers →
      List.Forall₂ (fun balancer (shown : LoadBalancer) =>
          shown.id = balancer.id ∧ List.Forall₂ ShowsRaw (linkedGroups store balancer) shown.serverGroups)
        ((storedBalancers store).filter (fun balancer => (Schema.Balancer.check balancer.attributes).accepts))
        balancers) ∧
    (∀ entity group, (usableServerGroup entity).result = .ok (some group) →
      Legible entity ∧
        ∀ shown, ShowsRaw entity shown → shown.name = group.name ∧ shown.disabled = group.disabled) := by
  have hstored : ∀ balancer ∈ storedBalancers store,
      store.get Namespace.loadBalancers.name balancer.id = some balancer :=
    fun _ hbalancer => Memory.mem_getAll hbalancer
  refine ⟨fun _ _ _ happlication haccount hname => cluster_ok htexts happlication haccount hname,
    clusters_ok htexts (hids .clusters),
    fun _ _ _ haccount hregion hname => findServerGroup_ok store haccount hregion hname,
    fun _ _ hfound => ?_, ?_, ?_, fun _ _ husable => showsRaw_of_usable husable⟩
  · have hentity := hfound
    rw [← Memory.id_of_get hfound] at hentity
    exact assembleCluster_groups htexts hentity
  · rw [loadBalancers_eq (hids .loadBalancers)]
    refine ⟨fun ⟨_, hok⟩ => legible_of_assembleBalancers htexts hstored hok, fun hlegible => ?_⟩
    obtain ⟨balancers, hok, -⟩ := assembleBalancers_ok htexts hstored hlegible
    exact ⟨balancers, hok⟩
  · rw [loadBalancers_eq (hids .loadBalancers)]
    intro balancers hok
    obtain ⟨balancers', hok', hshown⟩ :=
      assembleBalancers_ok htexts hstored (legible_of_assembleBalancers htexts hstored hok)
    obtain rfl := Except.ok.inj (hok.symm.trans hok')
    exact hshown

def withBalancedGroup (attributes : Attributes) : Memory :=
  Memory.after [.upsert Namespace.serverGroups.name
      [⟨Namespace.serverGroups.name, "aws:serverGroup:prod:eu:web-v001", attributes, ∅⟩] defaultSource .authoritative,
    .upsert Namespace.loadBalancers.name
      [⟨Namespace.loadBalancers.name, "aws:loadBalancer:prod:eu:front", [], Relations.ofGroups
        [(Namespace.serverGroups.name, ["aws:serverGroup:prod:eu:web-v001"])]⟩] defaultSource .authoritative]

theorem withBalancedGroup_textEdges (attributes : Attributes) : TextEdges (withBalancedGroup attributes) := by
  have hgroups : Relations.TextualGroups [(Atom.str Namespace.serverGroups.name,
      [Atom.str "aws:serverGroup:prod:eu:web-v001"])] := by
    simp [Relations.TextualGroups, Atom.isText]
  refine textEdges_after ?_
  simp only [List.forall_mem_cons, Operation.entities, Relations.textual_empty, Relations.textual_ofGroups hgroups,
    List.not_mem_nil, false_implies, implies_true, and_self]

/-- A server group whose name is a number does not fit its schema, and is shown behind its load balancer anyway. -/
theorem server_groups_behind_both_misnamed :
    TextEdges (withBalancedGroup [("name", .int 5)]) ∧
    (∀ ns : Namespace, ∀ id ∈ (withBalancedGroup [("name", .int 5)]).identifiers ns.name, id.isText = true) ∧
    (findServerGroup (withBalancedGroup [("name", .int 5)]) "prod" "eu" "web-v001").result = .ok none ∧
    (∃ balancers, (loadBalancers (withBalancedGroup [("name", .int 5)])).result = .ok balancers ∧
      balancers.map (fun balancer => balancer.serverGroups.map BalancedGroup.name) = [[.int 5]]) ∧
    ∀ balancer ∈ storedBalancers (withBalancedGroup [("name", .int 5)]),
      ∀ group ∈ linkedGroups (withBalancedGroup [("name", .int 5)]) balancer, Legible group := by
  have htexts := withBalancedGroup_textEdges [("name", .int 5)]
  have hids : ∀ ns : Namespace, ∀ id ∈ (withBalancedGroup [("name", .int 5)]).identifiers ns.name,
      id.isText = true := by
    intro ns
    cases ns <;> decide +kernel
  obtain ⟨-, -, -, -, hlegible, -, -⟩ := server_groups_behind_both htexts hids
  have hbalancers : ∃ balancers, (loadBalancers (withBalancedGroup [("name", .int 5)])).result = .ok balancers ∧
      balancers.map (fun balancer => balancer.serverGroups.map BalancedGroup.name) = [[.int 5]] := ⟨_, rfl, rfl⟩
  exact ⟨htexts, hids, rfl, hbalancers, hlegible.1 (hbalancers.imp (fun _ hok => hok.1))⟩

/-- A server group whose scaling group is a text is no server group where it is asked for, but brings the view of the
load balancers down. -/
theorem illegible_group_fails_balancers :
    (findServerGroup (withBalancedGroup [("scalingGroup", "web")]) "prod" "eu" "web-v001").result = .ok none ∧
    ∃ text, (loadBalancers (withBalancedGroup [("scalingGroup", "web")])).result = .error (.noAttribute text) :=
  ⟨rfl, _, rfl⟩

end Views

end FleetCache
