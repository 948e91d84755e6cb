import FleetCache.Proofs.AccountReports
import FleetCache.Proofs.ViewReads
import FleetCache.Views.Images
import FleetCache.Views.LoadBalancers

set_option autoImplicit false

namespace FleetCache

variable {σ : Type} [CacheStore σ]

structure ReadsSame (account : String) (store other : σ) : Prop where
  get : ∀ ns : Namespace, ns ≠ .applications → ∀ key, Key.BelongsTo account key →
    ∃ found : Option Entity, CacheStore.get store ns.name key = pure found ∧
      CacheStore.get other ns.name key = pure found ∧ ∀ entity ∈ found, entity.LeadsWithin account
  getAll : ∀ ns : Namespace, ns ≠ .applications → ∀ ids : List Atom, (∀ id ∈ ids, IsKeyOf account id) →
    ∃ found : List Entity, CacheStore.getAll store ns.name ids = pure found ∧
      CacheStore.getAll other ns.name ids = pure found ∧ ∀ entity ∈ found, entity.LeadsWithin account
  matching : ∀ ns : Namespace, 1 < ns.required → ∀ fields pattern,
    Key.searchPattern ns (some account :: fields) = .ok pattern →
    ∃ keys : List String, CacheStore.matching store ns.name pattern = pure keys ∧
      CacheStore.matching other ns.name pattern = pure keys ∧ ∀ key ∈ keys, Key.BelongsTo account key

namespace Views

variable {account : String} {store other : σ}

/-- What the views show of an account is the same in two caches. -/
structure ShowsSame (account : String) (store other : σ) : Prop where
  clusters : ∀ application, clusters store application (.str account) = clusters other application (.str account)
  cluster : ∀ application name,
    cluster store application (.str account) name = cluster other application (.str account) name
  serverGroup : ∀ region name, findServerGroup store (.str account) region name =
    findServerGroup other (.str account) region name
  serverGroupIds : ∀ region, serverGroupIds store (.str account) region = serverGroupIds other (.str account) region
  loadBalancers : ∀ region name, loadBalancersNamed store (.str account) region name =
    loadBalancersNamed other (.str account) region name
  images : ∀ text region, findImages store text (.str account) region = findImages other text (.str account) region

section

variable (h : ReadsSame account store other)
include h

theorem fetch_sameFor {ns : Namespace} (hns : ns ≠ .applications) {ids : AtomSet}
    (hids : ∀ id ∈ ids, IsKeyOf account id) : fetch store ns ids = fetch other ns ids := by
  have htexts : ids.Textual := by
    intro id hid
    obtain ⟨key, -, rfl⟩ := hids id hid
    rfl
  have hsorted : ∀ id ∈ sortedTexts ids.toList, IsKeyOf account id := fun id hid =>
    hids id ((AtomSet.mem_toList_of_textual htexts id).1 ((sortedTexts_perm _).mem_iff.1 hid))
  obtain ⟨found, hfound, hfound', -⟩ := h.getAll ns hns _ hsorted
  unfold fetch
  rw [ascending_texts (fun _ ha => AtomSet.isText_of_mem_toList htexts ha), pure_bind, pure_bind, hfound, hfound']

theorem assembleCluster_sameFor {entity : Entity} (hentity : entity.LeadsWithin account) :
    assembleCluster store entity = assembleCluster other entity := by
  have hgroups : follow store entity .serverGroups = follow other entity .serverGroups :=
    fetch_sameFor h (by decide) (hentity .serverGroups (by decide))
  have hbalancers : follow store entity .loadBalancers = follow other entity .loadBalancers :=
    fetch_sameFor h (by decide) (hentity .loadBalancers (by decide))
  unfold assembleCluster
  rw [hgroups, hbalancers]

theorem search_sameFor {α : Type} {ns : Namespace} (hfields : 1 < ns.required) (fields : List (Option String))
    {f g : List String → Traced α}
    (hnext : ∀ keys, (∀ key ∈ keys, Key.BelongsTo account key) → f keys = g keys) :
    (do
      let pattern ← liftKey (Key.searchPattern ns ((Value.str account).field? :: fields))
      f (← CacheStore.matching store ns.name pattern) : Traced α) =
    (do
      let pattern ← liftKey (Key.searchPattern ns ((Value.str account).field? :: fields))
      g (← CacheStore.matching other ns.name pattern) : Traced α) := by
  refine Traced.bind_congr_of_ok (fun pattern hpattern => ?_)
  obtain ⟨keys, hkeys, hkeys', howned⟩ := h.matching ns hfields fields pattern (ok_of_liftKey hpattern)
  rw [hkeys, hkeys', pure_bind, pure_bind, hnext keys howned]

theorem getAll_sameFor {α : Type} {ns : Namespace} (hns : ns ≠ .applications) {keys : List String}
    (howned : ∀ key ∈ keys, Key.BelongsTo account key) {f g : List Entity → Traced α}
    (hnext : ∀ entities : List Entity, (∀ entity ∈ entities, entity.LeadsWithin account) → f entities = g entities) :
    (CacheStore.getAll store ns.name (keys.map .str) : Traced (List Entity)) >>= f =
      (CacheStore.getAll other ns.name (keys.map .str) : Traced (List Entity)) >>= g := by
  have hids : ∀ id ∈ keys.map Atom.str, IsKeyOf account id := by
    intro id hid
    obtain ⟨key, hkey, rfl⟩ := List.mem_map.1 hid
    exact ⟨key, howned key hkey, rfl⟩
  obtain ⟨found, hfound, hfound', hleads⟩ := h.getAll ns hns _ hids
  rw [hfound, hfound', pure_bind, pure_bind, hnext found hleads]

theorem get_sameFor {α : Type} {ns : Namespace} (hns : ns ≠ .applications) {key : String}
    (hkey : Key.BelongsTo account key) {f g : Option Entity → Traced α} (hnone : f none = g none)
    (hsome : ∀ entity : Entity, entity.LeadsWithin account → f (some entity) = g (some entity)) :
    (CacheStore.get store ns.name key : Traced (Option Entity)) >>= f =
      (CacheStore.get other ns.name key : Traced (Option Entity)) >>= g := by
  obtain ⟨found, hfound, hfound', hleads⟩ := h.get ns hns key hkey
  rw [hfound, hfound', pure_bind, pure_bind]
  cases found with
  | none => exact hnone
  | some entity => exact hsome entity (hleads entity rfl)

theorem clusters_sameFor (application : Value) :
    clusters store application (.str account) = clusters other application (.str account) := by
  refine search_sameFor h (by decide) _ (fun keys howned => getAll_sameFor h (by decide) howned ?_)
  intro entities hentities
  refine Traced.mapM_congr (R := fun entity same => entity = same ∧ entity.LeadsWithin account)
    (List.forall₂_same.2 (fun entity hentity => ⟨rfl, hentities entity hentity⟩)) ?_
  rintro entity _ ⟨rfl, hleads⟩
  exact assembleCluster_sameFor h hleads

theorem cluster_sameFor (application name : Value) :
    cluster store application (.str account) name = cluster other application (.str account) name := by
  unfold cluster
  refine Traced.bind_congr_of_ok (fun key hkey => ?_)
  refine get_sameFor h (by decide) (Key.belongsTo_of_encode (ok_of_liftKey hkey)) rfl (fun entity hentity => ?_)
  exact congrArg (some <$> ·) (assembleCluster_sameFor h hentity)

theorem findServerGroup_sameFor (region name : Value) :
    findServerGroup store (.str account) region name = findServerGroup other (.str account) region name := by
  unfold findServerGroup
  refine Traced.bind_congr_of_ok (fun key hkey => ?_)
  exact get_sameFor h (by decide) (Key.belongsTo_of_encode (ok_of_liftKey hkey)) rfl (fun _ _ => rfl)

theorem serverGroupIds_sameFor (region : Value) :
    serverGroupIds store (.str account) region = serverGroupIds other (.str account) region := by
  have hfields : 1 < Namespace.serverGroups.required := by decide
  have hids := search_sameFor h hfields [region.field?] (f := pure) (g := pure) (fun _ _ => rfl)
  simp only [bind_pure] at hids
  exact hids

theorem loadBalancersNamed_sameFor (region name : Value) :
    loadBalancersNamed store (.str account) region name = loadBalancersNamed other (.str account) region name :=
  search_sameFor h (by decide) _ (fun keys howned => getAll_sameFor h (by decide)
    (fun key hkey => howned key (List.mem_filter.1 hkey).1) (fun _ _ => rfl))

theorem findImages_sameFor (text region : Value) :
    findImages store text (.str account) region = findImages other text (.str account) region := by
  refine Traced.bind_congr_of_ok (fun glob _ => ?_)
  refine search_sameFor h (by decide) _ (fun images himages => ?_)
  refine search_sameFor h (by decide) _ (fun named hnamed => ?_)
  refine getAll_sameFor h (by decide) himages (fun _ _ => ?_)
  exact getAll_sameFor h (by decide) hnamed (fun _ _ => rfl)

theorem showsSame_of_readsSame : ShowsSame account store other where
  clusters := clusters_sameFor h
  cluster := cluster_sameFor h
  serverGroup := findServerGroup_sameFor h
  serverGroupIds := serverGroupIds_sameFor h
  loadBalancers := loadBalancersNamed_sameFor h
  images := findImages_sameFor h

end

end Views

end FleetCache
