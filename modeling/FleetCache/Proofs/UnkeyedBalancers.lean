import FleetCache.Proofs.KeylessGroups
import FleetCache.Proofs.ListingOrders
/-!
What a load balancer without a key costs. Of what is looked up about a scaling group, only the records of its load
balancers decide whether the group is cached: when one of them is found that no key can be built from, the whole group
is left out of the report, not the load balancer alone.
-/
set_option autoImplicit false

namespace FleetCache

namespace ClusterAgent

variable {provider : Provider} {account region : String}

def BalancersKeyed (provider : Provider) (account region : String) (group : Attributes) : Prop :=
  ∀ record ∈ foundBalancers provider group, ∃ key, LoadBalancerAgent.keyOf account region record = .ok key

theorem balancersKeyed_iff (group : Attributes) : BalancersKeyed provider account region group ↔
    (foundBalancers provider group).any (LoadBalancerAgent.unnamed account region) = false := by
  rw [List.any_eq_false]
  refine forall_congr' fun record => imp_congr_right fun _ => ?_
  rw [Bool.not_eq_true]
  constructor
  · rintro ⟨key, hkey⟩
    rw [Bool.eq_false_iff, ne_eq, ← LoadBalancerAgent.keyOf_problem_iff, hkey]
    exact fun ⟨_, hproblem⟩ => nomatch hproblem
  · exact LoadBalancerAgent.exists_keyOf_of_named

theorem keylessGroup_eq_false_iff (haccount : account ≠ "") (hregion : region ≠ "") {name : String}
    (hname : IsGroupName name) {group : Attributes} (hgroup : HasText group "scalingGroupName" (some name)) :
    keylessGroup provider account region group = false ↔ BalancersKeyed provider account region group := by
  have hkeyed : (group.get "scalingGroupName").keyless account region = false := by
    rw [hgroup]
    exact Value.keyless_eq_false_iff.2
      ⟨haccount, hregion, Value.missing_eq_false_of_truthy ((truthy_ofOption _).2 ⟨name, rfl, hname.1⟩)⟩
  have hfits : (group.get "scalingGroupName").string?.any Names.overlong = false := by
    rw [hgroup]
    exact Names.overlong_eq_false hname.2
  rw [keylessGroup, hkeyed, hfits, Bool.false_or, Bool.false_or, balancersKeyed_iff]

/-- Whether some listed group of a name has keys for all load balancers that are found for it. -/
def Kept (listing : Listing (Provider × Value)) (account region name : String) : Prop :=
  ∃ provider group, (provider, .object group) ∈ listing.items ∧ HasText group "scalingGroupName" (some name) ∧
    BalancersKeyed provider account region group

theorem kept_iff (haccount : account ≠ "") (hregion : region ≠ "") {listing : Listing (Provider × Value)}
    (hgroups : ∀ entry ∈ listing.items, ListsRecord entry.1 entry.2) {name : String} (hname : IsGroupName name) :
    Kept listing account region name ↔ ∃ entry ∈ listing.items, ∃ item,
      outcome entry.1 account region entry.2 = .ok (some item) ∧ item.2.names.group = name := by
  constructor
  · rintro ⟨provider, group, hlisted, hgroup, hbalancers⟩
    rcases outcome_cases account region (hgroups _ hlisted) with ⟨hkeyless, -⟩ | ⟨-, item, hitem⟩
    · rw [keyless, (keylessGroup_eq_false_iff haccount hregion hname hgroup).2 hbalancers] at hkeyless
      cases hkeyless
    · have hsame := groupName?_of_prepare (prepare_of_outcome hitem)
      have hshown : (Value.object group).groupName? = some name := congrArg Value.string? hgroup
      exact ⟨_, hlisted, item, hitem, (Option.some.inj (hshown.symm.trans hsame)).symm⟩
  · rintro ⟨⟨provider, v⟩, hlisted, item, hitem, rfl⟩
    obtain ⟨members, rfl, hdata, hkeys⟩ := of_prepare (prepare_of_outcome hitem)
    obtain ⟨rfl, -⟩ := of_fetchGroup hdata
    -- the name of the keys is the name that the group is listed with
    have hgroup : HasText item.1.group "scalingGroupName" (some item.2.names.group) :=
      (derived_of_deriveKeys hkeys).name_eq
    refine ⟨provider, _, hlisted, hgroup, (keylessGroup_eq_false_iff haccount hregion hname hgroup).1 ?_⟩
    rcases outcome_cases account region (hgroups _ hlisted) with ⟨-, hnone⟩ | ⟨hkeyed, -⟩
    · cases hnone.symm.trans hitem
    · exact hkeyed

/-- A report has a server group together with the application and the cluster that its name stands for. -/
def HasGroup (report : Report) (account region name : String) : Prop :=
  ∃ names application cluster group, Names.parse name = .ok names ∧
    Key.application (some names.app) = .ok application ∧
    Key.cluster (some names.cluster) (some names.app) (some account) = .ok cluster ∧
    Key.serverGroup (some name) (some account) (some region) = .ok group ∧
    report.Has Namespace.serverGroups.name group ∧
    report.Linked Namespace.serverGroups.name group Namespace.applications.name application ∧
    report.Linked Namespace.serverGroups.name group Namespace.clusters.name cluster

theorem hasGroup_reportOf {items : List (GroupData × GroupKeys)} (h : AllDerived account region items)
    {item : GroupData × GroupKeys} (hitem : item ∈ items) :
    HasGroup (reportOf account region items) account region item.2.names.group := by
  have hderived := derived_of_deriveKeys (h item hitem)
  have hdraws := draws_of_derived h
  have hself : item.2.serverGroup ∈ item.2.ids .serverGroups := List.mem_singleton_self _
  refine ⟨item.2.names, item.2.application, item.2.cluster, item.2.serverGroup, hderived.parse_group,
    hderived.application, hderived.cluster, hderived.serverGroup, ?_⟩
  rw [reportOf_eq, Report.has_iff hdraws, Report.linked_joined_iff hdraws (by decide),
    Report.linked_joined_iff hdraws (by decide)]
  exact ⟨⟨item, hitem, _, rfl, _, hself, rfl⟩,
    ⟨item, hitem, ⟨_, hself, rfl⟩, _, List.mem_singleton_self _, rfl⟩,
    ⟨item, hitem, ⟨_, hself, rfl⟩, _, List.mem_singleton_self _, rfl⟩⟩

theorem exists_item_of_has {items : List (GroupData × GroupKeys)} (h : AllDerived account region items)
    {name key : String} (hkey : Key.serverGroup (some name) (some account) (some region) = .ok key)
    (hhas : (reportOf account region items).Has Namespace.serverGroups.name key) :
    ∃ item ∈ items, item.2.names.group = name := by
  rw [reportOf_eq, Report.has_iff (draws_of_derived h)] at hhas
  obtain ⟨item, hitem, ns, hns, id, hid, hsame⟩ := hhas
  obtain rfl := Namespace.name_injective (Atom.str.inj hns)
  obtain rfl : id = item.2.serverGroup := List.mem_singleton.1 hid
  obtain rfl := Atom.str.inj hsame
  have hdecoded := (derived_of_deriveKeys (h item hitem)).decode_serverGroup
  have hread : Key.decode item.2.serverGroup = .ok ⟨.serverGroups, [account, region, name]⟩ := Key.decode_of_texts hkey
  refine ⟨item, hitem, ?_⟩
  simpa using hdecoded.symm.trans hread

theorem exists_outcomes (account region : String) {entries : List (Provider × Value)}
    (h : ∀ entry ∈ entries, ListsRecord entry.1 entry.2) :
    ∃ found, outcomes account region entries = .ok found ∧ ∀ item, item ∈ found.reduceOption ↔
      ∃ entry ∈ entries, outcome entry.1 account region entry.2 = .ok (some item) := by
  have houtcomes (entry) (hentry : entry ∈ entries) : outcome entry.1 account region entry.2 =
      .ok ((outcome entry.1 account region entry.2).toOption.getD none) := by
    rcases outcome_cases account region (h entry hentry) with ⟨-, hnone⟩ | ⟨-, item, hitem⟩
    · rw [hnone]
      rfl
    · rw [hitem]
      rfl
  refine ⟨_, mapM_eq_map houtcomes, fun item => ?_⟩
  rw [List.reduceOption_mem_iff, List.mem_map]
  refine exists_congr fun entry => and_congr_right fun hentry => ?_
  rw [houtcomes entry hentry, Except.ok.injEq]
  rfl

/-- However the lookups about the listed groups end, be it differently from group to group, a run reports every group
whose load balancers have keys as far as they are found, with its application and its cluster. A group with a load
balancer that no key can be built from is not reported at all. So it is with the run of the agent at any provider, which
asks that one about all groups. -/
theorem group_kept_iff_balancers_keyed {workers : Int} (haccount : account ≠ "") (hregion : region ≠ "")
    (hworkers : 0 < workers) {listing : Listing (Provider × Value)} (hends : listing.ending.result = .ok ())
    (hgroups : ∀ entry ∈ listing.items, ListsRecord entry.1 entry.2) :
    ∃ report, (loadEach listing account region workers).result = .ok report ∧
      (∀ provider, asked provider = listing → (load provider account region workers).result = .ok report) ∧
      ∀ name, IsGroupName name → (Kept listing account region name → HasGroup report account region name) ∧
      (¬ Kept listing account region name → ∃ key, Key.serverGroup (some name) (some account) (some region) = .ok key ∧
        ¬ report.Has Namespace.serverGroups.name key) := by
  obtain ⟨found, hfound, hitems⟩ := exists_outcomes account region hgroups
  have hderived : AllDerived account region found.reduceOption := by
    intro item hitem
    obtain ⟨_, -, houtcome⟩ := (hitems item).1 hitem
    exact derived_of_outcome houtcome
  have hload : (loadEach listing account region workers).result = .ok (reportOf account region found.reduceOption) := by
    rw [loadEach_result hworkers (Listing.collect_ok hends), hfound]
    rfl
  refine ⟨reportOf account region found.reduceOption, hload, ?_,
    fun name hname => ⟨fun hkept => ?_, fun hlost => ?_⟩⟩
  · rintro provider rfl
    rw [load_eq_loadEach, hload]
  · obtain ⟨entry, hentry, item, hitem, rfl⟩ := (kept_iff haccount hregion hgroups hname).1 hkept
    exact hasGroup_reportOf hderived ((hitems item).2 ⟨entry, hentry, hitem⟩)
  · obtain ⟨key, hkey⟩ := Key.exists_of_texts .serverGroups [account, region, name] rfl
      (by simp [haccount, hregion, hname.1])
    refine ⟨key, hkey, fun hhas => hlost ?_⟩
    obtain ⟨item, hmem, hsame⟩ := exists_item_of_has hderived hkey hhas
    obtain ⟨entry, hentry, hitem⟩ := (hitems item).1 hmem
    exact (kept_iff haccount hregion hgroups hname).2 ⟨entry, hentry, item, hitem, hsame⟩

end ClusterAgent

/-- A provider that lists two groups. Most lookups fail; of the two load balancers that are found, the second has an
empty text for its network. -/
def blankNetworkProvider : Provider where
  scalingGroups := .ofList [plainGroup (some "web-v001") ["front", "gone"] [some "i-1"],
    plainGroup (some "web-v002") ["side"] []]
  scalingConfiguration _ := Traced.fail (.lookup ⟨"describe_launch_configurations", .null, "Throttling"⟩)
  loadBalancer id :=
    if id == "front" then pure [("loadBalancerName", "front")]
    else if id == "side" then pure [("loadBalancerName", "side"), ("vpcId", "")]
    else Traced.fail (.lookup ⟨"describe_load_balancers", id, "LoadBalancerNotFound"⟩)
  details _ := Traced.fail (.lookup ⟨"describe_instances", .null, "Throttling"⟩)
  instances := .ofList []
  images _ := .ofList []
  zones := .ofList []
  loadBalancers := .ofList []

theorem listsRecord_blankNetwork (name : Option String) (balancers : List String) (ids : List (Option String)) :
    ClusterAgent.ListsRecord blankNetworkProvider (plainGroup name balancers ids) := by
  refine ⟨_, ids.map plainMember, rfl,
    ⟨⟨name, rfl⟩, .inr ⟨_, rfl⟩, .inr ⟨_, rfl⟩, rfl, fun m hm => ?_⟩,
    ⟨.inl ⟨_, some "Throttling", rfl, rfl⟩, fun id _ => ?_, .inl ⟨_, some "Throttling", rfl, rfl⟩⟩⟩
  · obtain ⟨id, -, rfl⟩ := List.mem_map.1 hm
    exact ⟨id, rfl⟩
  · change Answers _ (if id == "front" then _ else _)
    split
    · exact .inr ⟨_, rfl, ⟨none, rfl⟩, some "front", rfl⟩
    · split
      · exact .inr ⟨_, rfl, ⟨none, rfl⟩, some "side", rfl⟩
      · exact .inl ⟨_, some "LoadBalancerNotFound", rfl, rfl⟩

/-- The first group is kept without the load balancer that is not found, the second is lost. -/
theorem group_kept_iff_balancers_keyed_blankNetwork :
    ∃ report, (ClusterAgent.load blankNetworkProvider "prod" "eu" 1).result = .ok report ∧
      ClusterAgent.HasGroup report "prod" "eu" "web-v001" ∧
      ∃ key, Key.serverGroup (some "web-v002") (some "prod") (some "eu") = .ok key ∧
        ¬ report.Has Namespace.serverGroups.name key := by
  have hlists : ∀ entry ∈ (ClusterAgent.asked blankNetworkProvider).items,
      ClusterAgent.ListsRecord entry.1 entry.2 := by
    simp only [ClusterAgent.asked, blankNetworkProvider, Listing.ofList, List.map_cons, List.forall_mem_cons]
    exact ⟨listsRecord_blankNetwork _ _ _, listsRecord_blankNetwork _ _ _, fun _ hnone => absurd hnone List.not_mem_nil⟩
  obtain ⟨report, -, hload, hreport⟩ := ClusterAgent.group_kept_iff_balancers_keyed (show "prod" ≠ "" by decide)
    (show "eu" ≠ "" by decide) Int.one_pos rfl hlists
  refine ⟨report, hload _ rfl, (hreport "web-v001" ⟨by decide, by decide⟩).1 ?_,
    (hreport "web-v002" ⟨by decide, by decide⟩).2 ?_⟩
  · exact ⟨_, _, List.mem_cons_self, rfl, (ClusterAgent.balancersKeyed_iff _).2 (by decide +kernel)⟩
  · rintro ⟨provider, group, hlisted, hname, hkeyed⟩
    rcases List.mem_cons.1 hlisted with hfirst | hsecond
    · obtain ⟨rfl, hgroup⟩ := Prod.mk.inj hfirst
      obtain rfl := Value.object.inj hgroup
      have hsame : some "web-v001" = some "web-v002" := congrArg Value.string? hname
      exact absurd hsame (by decide)
    · obtain ⟨rfl, hgroup⟩ := Prod.mk.inj (List.mem_singleton.1 hsecond)
      obtain rfl := Value.object.inj hgroup
      rw [ClusterAgent.balancersKeyed_iff] at hkeyed
      revert hkeyed
      decide +kernel

/-- An empty text in the record of a load balancer costs a listed group its place. -/
theorem blank_network_costs_group :
    plainGroup (some "web-v002") ["side"] [] ∈ blankNetworkProvider.scalingGroups.items ∧
      ClusterAgent.IsGroupName "web-v002" ∧
      ∃ report, (ClusterAgent.load blankNetworkProvider "prod" "eu" 1).result = .ok report ∧
        ¬ ClusterAgent.HasGroup report "prod" "eu" "web-v002" := by
  have hmissing : (ClusterAgent.load blankNetworkProvider "prod" "eu" 1).result.toOption.map (fun report =>
      (report.entities Namespace.serverGroups.name).any
        (fun entity => entity.id == "aws:serverGroup:prod:eu:web-v002")) = some false := by decide +kernel
  obtain ⟨report, hreport, hmissing⟩ := Option.map_eq_some_iff.1 hmissing
  refine ⟨List.mem_cons_of_mem _ List.mem_cons_self, ⟨by decide, by decide⟩, report, ok_of_toOption hreport, ?_⟩
  rintro ⟨_, _, _, key, -, -, -, hkey, ⟨entity, hentity, hid⟩, -⟩
  have hmade : Key.serverGroup (some "web-v002") (some "prod") (some "eu") =
      .ok "aws:serverGroup:prod:eu:web-v002" := rfl
  obtain rfl := Except.ok.inj (hmade.symm.trans hkey)
  exact List.any_eq_false.1 hmissing entity hentity hid

end FleetCache
