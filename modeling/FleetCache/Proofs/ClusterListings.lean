import FleetCache.Proofs.ClusterHistories
import FleetCache.Proofs.SearchPatterns
import FleetCache.Proofs.ViewReads

set_option autoImplicit false

namespace FleetCache

open FleetCache.ClusterAgent

theorem clusterCache_textEdges (history : List ClusterResult) : Views.TextEdges (clusterCache history) :=
  fun _ _ _ hfound target => related_isText hfound target

theorem clusterCache_textIds (history : List ClusterResult) :
    ∀ id ∈ (clusterCache history).identifiers Namespace.clusters.name, id.isText = true := by
  intro id hid
  have hstored := (Memory.mem_identifiers _ _ _).1 ⟨id, hid, BEq.rfl⟩
  obtain ⟨_, _, _, -, rfl⟩ := (cluster_stored_iff history id).1 hstored
  rfl

theorem HasCluster.field_account {history : List ClusterResult} {account application key : String}
    (h : HasCluster history account application key) : Key.fieldOf? (.str key) 0 = some account := by
  obtain ⟨name, hkey⟩ := h.encode
  change Key.field? key 0 = _
  rw [Key.field?, Key.decode_of_texts hkey]
  rfl

def namesAccount (account : String) (id : Atom) : Bool :=
  decide (Key.fieldOf? id 0 = some account)

theorem HasCluster.namesAccount_iff {history : List ClusterResult} {account application key : String}
    (h : HasCluster history account application key) (other : String) :
    namesAccount other (.str key) = true ↔ account = other := by
  rw [namesAccount, decide_eq_true_iff, h.field_account, Option.some.injEq]

theorem HasCluster.isMatch_iff {history : List ClusterResult} {account application pattern : String}
    {account' application' key : String} (h : HasCluster history account' application' key)
    (haccount : Key.Literal account) (happlication : Key.Literal application)
    (hpattern : Key.searchPattern .clusters ([account, application].map some) = .ok pattern) :
    Glob.isMatch pattern key = true ↔ account = account' ∧ application = application' := by
  obtain ⟨name, hkey⟩ := h.encode
  have hliteral : ∀ text ∈ [account, application], Key.Literal text :=
    List.forall_mem_cons.2 ⟨haccount, List.forall_mem_singleton.2 happlication⟩
  have hshort : [account, application].length < Namespace.clusters.required := Nat.lt_succ_self 2
  rw [Key.isMatch_searchPattern_iff hliteral hshort hpattern hkey, List.cons_prefix_cons, List.cons_prefix_cons]
  exact and_congr_right fun _ => and_iff_left List.nil_prefix

theorem exists_assembled {history : List ClusterResult} {account application key : String}
    (h : HasCluster history account application key) {entity : Entity}
    (hentity : (clusterCache history).get Namespace.clusters.name key = some entity) (other : String) :
    ∃ cluster, (Views.assembleCluster (clusterCache history) entity).result = .ok cluster ∧
      (cluster.account == .str other) = namesAccount other entity.id := by
  obtain ⟨-, cluster, -, hcluster, -, hnamed⟩ := Views.assembleCluster_ok (clusterCache_textEdges history) hentity
  refine ⟨cluster, hcluster, ?_⟩
  obtain ⟨name, hkey⟩ := h.encode
  have hid : entity.id = .str key := Memory.id_of_get hentity
  have haccount : cluster.account = .str account := by
    rw [hnamed, hid, h.field_account, Attributes.get]
    cases hstored : entity.attributes.lookup (.str "account") with
    | none => rfl
    | some value =>
      rw [account_of_cluster hkey hentity hstored]
      exact ite_self _
  have htexts : (Value.str account == .str other) = (account == other) := Atom.str_beq_str account other
  rw [hid, haccount, htexts, Bool.eq_iff_iff, h.namesAccount_iff, beq_iff_eq]

theorem exists_searched (history : List ClusterResult) {application account : String}
    (happlication : Key.Literal application) (haccount : Key.Literal account) :
    ∃ ids, ListsKeys (HasCluster history account application) ids ∧
      (Views.clusters (clusterCache history) (.str application) (.str account)).result =
        (Views.assembleClusters (clusterCache history)
          ((clusterCache history).getAll Namespace.clusters.name ids)).result := by
  have hliteral : ∀ text ∈ [account, application], Key.Literal text :=
    List.forall_mem_cons.2 ⟨haccount, List.forall_mem_singleton.2 happlication⟩
  have hshort : [account, application].length < Namespace.clusters.required := Nat.lt_succ_self 2
  have hpattern := Key.searchPattern_of_literal hliteral hshort
  obtain ⟨keys, hmatching, hlists⟩ := Memory.matching_ok (clusterCache_textIds history) (String.ofList _)
  refine ⟨keys.map .str, hlists.congr (fun key => ?_), Views.clusters_eq hpattern hmatching⟩
  rw [cluster_stored_iff]
  constructor
  · rintro ⟨⟨account', application', other, hcluster, hsame⟩, hmatch⟩
    obtain rfl := Atom.str.inj hsame
    obtain ⟨rfl, rfl⟩ := (hcluster.isMatch_iff haccount happlication hpattern).1 hmatch
    exact hcluster
  · intro hcluster
    exact ⟨⟨_, _, _, hcluster, rfl⟩, (hcluster.isMatch_iff haccount happlication hpattern).2 ⟨rfl, rfl⟩⟩

theorem exists_followed {history : List ClusterResult} {application applicationKey : String}
    (hkey : Key.application (some application) = .ok applicationKey) {found : Entity}
    (hfound : (clusterCache history).get Namespace.applications.name applicationKey = some found) :
    ∃ ids, ListsKeys (fun key => ∃ account, HasCluster history account application key) ids ∧
      (Views.follow (clusterCache history) found .clusters).result =
        .ok ((clusterCache history).getAll Namespace.clusters.name ids) := by
  have htextual := related_isText hfound Namespace.clusters.name
  refine ⟨_, (ListsKeys.of_set htextual).congr (fun key => ?_), Views.fetch_ok _ _ htextual⟩
  rw [mem_related_clusters_iff hkey hfound]
  constructor
  · rintro ⟨account, other, hcluster, hsame⟩
    obtain rfl := Atom.str.inj hsame
    exact ⟨account, hcluster⟩
  · rintro ⟨account, hcluster⟩
    exact ⟨account, key, hcluster, rfl⟩

theorem searched_eq_filter {history : List ClusterResult} {account application : String} {searched followed : List Atom}
    (hsearched : ListsKeys (HasCluster history account application) searched)
    (hfollowed : ListsKeys (fun key => ∃ account, HasCluster history account application key) followed) :
    searched = followed.filter (namesAccount account) := by
  refine hsearched.unique ((hfollowed.filter (namesAccount account)).congr (fun key => ?_))
  constructor
  · rintro ⟨⟨account', hcluster⟩, hnames⟩
    obtain rfl := (hcluster.namesAccount_iff account).1 hnames
    exact hcluster
  · exact fun hcluster => ⟨⟨account, hcluster⟩, (hcluster.namesAccount_iff account).2 rfl⟩

/-- After any results of cluster agents, the clusters of an application in an account that the search over the keys
gives are, in the same order, those with that account among the clusters that the edges of the application lead to.
There are none when the application is not stored; it is stored as long as one of the latest results has a cluster of
it. -/
theorem clusters_eq_details_of_account (history : List ClusterResult) {application account : String}
    (happlication : Key.Literal application) (haccount : Key.Literal account) :
    ∃ details : Option (List Views.Cluster),
      (Views.clusterDetails (clusterCache history) (.str application)).result =
        .ok (details.map (fun all => (Atom.str application, all))) ∧
      (Views.clusters (clusterCache history) (.str application) (.str account)).result =
        .ok ((details.getD []).filter (fun cluster => cluster.account == .str account)) ∧
      (details.isSome = true ↔ ∃ owner key, HasCluster history owner application key) := by
  obtain ⟨applicationKey, hkey⟩ : ∃ key, Key.application (some application) = .ok key :=
    Key.exists_of_texts .applications [application] rfl (List.forall_mem_singleton.2 happlication.1)
  obtain ⟨searched, hsearched, hclusters⟩ := exists_searched history happlication haccount
  have hdetails := Views.clusterDetails_eq hkey (clusterCache history)
  have hstored := application_stored_iff history hkey
  cases hfound : (clusterCache history).get Namespace.applications.name applicationKey with
  | none =>
    rw [hfound] at hdetails hstored
    -- whoever reports a cluster reports its application too
    have hnone : searched = [] := hsearched.eq_nil (fun key hcluster =>
      Bool.false_ne_true (hstored.2 ⟨account, key, hcluster⟩))
    subst hnone
    exact ⟨none, hdetails, hclusters, hstored⟩
  | some found =>
    obtain ⟨followed, hfollowed, hfollow⟩ := exists_followed hkey hfound
    -- the account in the key of a cluster is the one that the cluster shows
    have hassembled : ∀ entity ∈ followed.filterMap ((clusterCache history).get Namespace.clusters.name),
        ∃ cluster, (Views.assembleCluster (clusterCache history) entity).result = .ok cluster ∧
          (cluster.account == .str account) = namesAccount account entity.id := by
      intro entity hentity
      obtain ⟨id, hid, hget⟩ := List.mem_filterMap.1 hentity
      obtain ⟨key, ⟨account', hcluster⟩, rfl⟩ := (hfollowed.mem id).1 hid
      exact exists_assembled hcluster hget account
    obtain ⟨all, hall, hsome⟩ := Traced.exists_mapM_filter
      (p := fun entity : Entity => namesAccount account entity.id)
      (q := fun cluster : Views.Cluster => cluster.account == .str account) hassembled
    rw [hfound] at hdetails hstored
    refine ⟨some all, ?_, ?_, hstored⟩
    · rw [hdetails]
      rw [hfollowed.getAll] at hfollow
      exact (Traced.result_bind hfollow _).trans (Traced.result_bind hall _)
    · rw [hclusters, hsearched.getAll, searched_eq_filter hsearched hfollowed, Memory.filterMap_get_filter]
      exact hsome

def ClusterResult.ofRun? (provider : Provider) (account region : String) : Option ClusterResult :=
  match h : (ClusterAgent.load provider account region 1).result with
  | .ok report => some ⟨provider, account, region, 1, report, h⟩
  | .error _ => none

def twoAccounts : List ClusterResult :=
  [ClusterResult.ofRun? (listingProvider [.object [("scalingGroupName", "web-v001")]] []) "prod" "eu",
    ClusterResult.ofRun? (listingProvider [.object [("scalingGroupName", "web-v002")]] []) "test" "us"].filterMap id

theorem clusters_eq_details_of_account_two : Key.Literal "web" ∧ Key.Literal "prod" ∧
    ∃ all : List Views.Cluster, all.length = 2 ∧
      (Views.clusterDetails (clusterCache twoAccounts) (.str "web")).result = .ok (some (Atom.str "web", all)) ∧
      (Views.clusters (clusterCache twoAccounts) (.str "web") (.str "prod")).result =
        .ok (all.filter (fun cluster => cluster.account == .str "prod")) ∧
      ∃ owner key, HasCluster twoAccounts owner "web" key := by
  have happlication : Key.Literal "web" := ⟨by decide, by decide⟩
  have haccount : Key.Literal "prod" := ⟨by decide, by decide⟩
  have htwo : ((Views.clusterDetails (clusterCache twoAccounts) (.str "web")).result.toOption.bind
      (fun details => details.map (fun found => found.2.length))) = some 2 := by decide +kernel
  obtain ⟨details, hdetails, hclusters, hstored⟩ := clusters_eq_details_of_account twoAccounts happlication haccount
  rw [hdetails] at htwo
  cases details with
  | none => cases htwo
  | some all => exact ⟨happlication, haccount, all, Option.some.inj htwo, hdetails, hclusters, hstored.1 rfl⟩

end FleetCache
