import FleetCache.Proofs.ClusterReports

set_option autoImplicit false

namespace FleetCache

namespace InstanceAgent

variable {account region : String}

abbrev Item := Attributes × String × Option String

def contributionsOf (account : String) : Item → List Contribution
  | (record, key, none) => [⟨Namespace.instances.name, key, record.put "account" (.str account), []⟩]
  | (record, key, some group) =>
    [⟨Namespace.instances.name, key, record.put "account" (.str account), [(Namespace.serverGroups.name, [group])]⟩,
      ⟨Namespace.serverGroups.name, group, [], [(Namespace.instances.name, [key])]⟩]

def ids : Item → Namespace → List String
  | (_, key, _), .instances => [key]
  | (_, _, group), .serverGroups => group.toList
  | _, _ => []

def joined : Namespace → List Namespace
  | .instances => [.serverGroups]
  | .serverGroups => [.instances]
  | _ => []

theorem merge_eq (account : String) (item : Item) (builder : ReportBuilder) :
    merge account item.1 item.2.1 item.2.2 builder = builder.addAll (contributionsOf account item) := by
  obtain ⟨record, key, group⟩ := item
  cases group <;> rfl

theorem draws_contributionsOf (account : String) (item : Item) :
    Draws (contributionsOf account item) (ids item) joined := by
  obtain ⟨record, key, group⟩ := item
  cases group with
  | none =>
    refine ⟨fun c hc => ?_, fun ns id hid => ?_⟩
    · obtain rfl := List.mem_singleton.1 hc
      exact ⟨.instances, key, List.mem_cons_self, rfl, rfl, Reaches.nil_of_no_ids rfl⟩
    · cases ns with
      | instances =>
        obtain rfl := List.mem_singleton.1 hid
        exact ⟨_, List.mem_cons_self, rfl, rfl⟩
      | _ => cases hid
  | some group =>
    have hback := (Reaches.nil (ids (record, key, some group))).cons .instances
    have hthere := (Reaches.nil (ids (record, key, some group))).cons .serverGroups
    refine ⟨fun c hc => ?_, fun ns id hid => ?_⟩
    · simp only [contributionsOf, List.mem_cons, List.not_mem_nil, or_false] at hc
      obtain rfl | rfl := hc
      · exact ⟨.instances, key, List.mem_cons_self, rfl, rfl, hthere⟩
      · exact ⟨.serverGroups, group, List.mem_cons_self, rfl, rfl, hback⟩
    · cases ns with
      | instances =>
        obtain rfl := List.mem_singleton.1 hid
        exact ⟨_, List.mem_cons_self, rfl, rfl⟩
      | serverGroups =>
        obtain rfl := List.mem_singleton.1 hid
        exact ⟨_, List.mem_cons_of_mem _ List.mem_cons_self, rfl, rfl⟩
      | _ => cases hid

def AllKeyed (account region : String) (items : List Item) : Prop :=
  ∀ item ∈ items, keys account region item.1 = .ok (.ok item.2)

theorem exists_items_of_load {provider : Provider} {report : Report}
    (h : (load provider account region).result = .ok report) :
    ∃ items, AllKeyed account region items ∧
      report = Report.ofContributions types (items.flatMap (contributionsOf account)) := by
  obtain ⟨records, state, hstate, rfl⟩ := exists_records_of_load h
  -- up to each record the builder has what the records with a key have contributed
  have hitems := Traced.foldlM_keeps
    (fun state => ∃ items, AllKeyed account region items ∧
      state.1 = ReportBuilder.empty.addAll (items.flatMap (contributionsOf account)))
    (fun before record after ⟨items, hkeyed, hbefore⟩ hstep => by
      rcases step_cases hstep with rfl | ⟨key, group, hkeys, rfl⟩
      · exact ⟨items, hkeyed, hbefore⟩
      · refine ⟨items ++ [(record, key, group)],
          List.forall_mem_append.2 ⟨hkeyed, List.forall_mem_singleton.2 hkeys⟩, ?_⟩
        rw [List.flatMap_append, ReportBuilder.addAll_append, List.flatMap_singleton, ← hbefore,
          ← merge_eq account (record, key, group)])
    ⟨[], fun _ hnone => absurd hnone List.not_mem_nil, rfl⟩ hstate
  obtain ⟨items, hkeyed, hitems⟩ := hitems
  refine ⟨items, hkeyed, ?_⟩
  rw [hitems]
  rfl

theorem closed_mutual_of_load {provider : Provider} {report : Report}
    (h : (load provider account region).result = .ok report) :
    report.Closed ∧ report.Mutual .serverGroups .instances := by
  obtain ⟨items, -, rfl⟩ := exists_items_of_load h
  have hdraws : ∀ item ∈ items, Draws (contributionsOf account item) (ids item) joined :=
    fun item _ => draws_contributionsOf account item
  exact ⟨Report.closed_of_draws hdraws, Report.mutual_of_draws hdraws List.mem_cons_self List.mem_cons_self⟩

end InstanceAgent

namespace LoadBalancerAgent

variable {account region : String}

abbrev Item := Attributes × String × List String

def contributionsOf (account : String) : Item → List Contribution
  | (record, key, members) =>
    ⟨Namespace.loadBalancers.name, key, record.put "account" (.str account),
      [(Namespace.instances.name, members.map .str)]⟩ ::
      members.map (fun (member : String) =>
        ⟨Namespace.instances.name, member, [], [(Namespace.loadBalancers.name, [key])]⟩)

def ids : Item → Namespace → List String
  | (_, key, _), .loadBalancers => [key]
  | (_, _, members), .instances => members
  | _, _ => []

def joined : Namespace → List Namespace
  | .loadBalancers => [.instances]
  | .instances => [.loadBalancers]
  | _ => []

theorem merge_eq (account : String) (item : Item) (builder : ReportBuilder) :
    merge account item.1 item.2.1 item.2.2 builder = builder.addAll (contributionsOf account item) := by
  obtain ⟨record, key, members⟩ := item
  rw [contributionsOf, ReportBuilder.addAll, List.foldl_cons, List.foldl_map]
  rfl

theorem draws_contributionsOf (account : String) (item : Item) :
    Draws (contributionsOf account item) (ids item) joined := by
  obtain ⟨record, key, members⟩ := item
  have hthere := (Reaches.nil (ids (record, key, members))).cons .instances
  have hback := (Reaches.nil (ids (record, key, members))).cons .loadBalancers
  refine ⟨fun c hc => ?_, fun ns id hid => ?_⟩
  · simp only [contributionsOf, List.mem_cons, List.mem_map] at hc
    obtain rfl | ⟨member, hmember, rfl⟩ := hc
    · exact ⟨.loadBalancers, key, List.mem_cons_self, rfl, rfl, hthere⟩
    · exact ⟨.instances, member, hmember, rfl, rfl, hback⟩
  · cases ns with
    | loadBalancers =>
      obtain rfl := List.mem_singleton.1 hid
      exact ⟨_, List.mem_cons_self, rfl, rfl⟩
    | instances => exact ⟨_, List.mem_cons_of_mem _ (List.mem_map_of_mem hid), rfl, rfl⟩
    | _ => cases hid

theorem step_cases {agent : String} {builder builder' : ReportBuilder} {record : Attributes}
    (h : (step account region agent builder record).result = .ok builder') :
    builder' = builder ∨ ∃ key members, keys account region record = .ok (.ok (key, members)) ∧
      builder' = merge account record key members builder := by
  unfold step at h
  obtain ⟨found, hfound, h⟩ := Traced.exists_of_bind h
  unfold skipUnkeyed at h
  cases found with
  | error problem =>
    obtain ⟨_, -, h⟩ := Traced.exists_of_bind h
    exact .inl (Except.ok.inj h).symm
  | ok pair =>
    obtain ⟨key, members⟩ := pair
    exact .inr ⟨key, members, hfound, (Except.ok.inj h).symm⟩

def AllKeyed (account region : String) (items : List Item) : Prop :=
  ∀ item ∈ items, keys account region item.1 = .ok (.ok item.2)

theorem exists_items_of_load {provider : Provider} {report : Report}
    (h : (load provider account region).result = .ok report) :
    ∃ items, AllKeyed account region items ∧
      report = Report.ofContributions types (items.flatMap (contributionsOf account)) := by
  unfold load at h
  obtain ⟨builder, hrun, h⟩ := Traced.exists_of_bind h
  obtain ⟨_, -, h⟩ := Traced.exists_of_bind h
  obtain rfl := Except.ok.inj h
  obtain ⟨_, -, hrun⟩ := Traced.exists_of_bind hrun
  obtain ⟨last, hlast, hrun⟩ := Traced.exists_of_bind hrun
  obtain ⟨_, -, hrun⟩ := Traced.exists_of_bind hrun
  obtain rfl := Except.ok.inj hrun
  -- as for instances, except that no count is kept next to the builder
  have hitems := Traced.foldlM_keeps
    (fun builder => ∃ items, AllKeyed account region items ∧
      builder = ReportBuilder.empty.addAll (items.flatMap (contributionsOf account)))
    (fun before record after ⟨items, hkeyed, hbefore⟩ hstep => by
      rcases step_cases hstep with rfl | ⟨key, members, hkeys, rfl⟩
      · exact ⟨items, hkeyed, hbefore⟩
      · refine ⟨items ++ [(record, key, members)],
          List.forall_mem_append.2 ⟨hkeyed, List.forall_mem_singleton.2 hkeys⟩, ?_⟩
        rw [List.flatMap_append, ReportBuilder.addAll_append, List.flatMap_singleton, ← hbefore,
          ← merge_eq account (record, key, members)])
    ⟨[], fun _ hnone => absurd hnone List.not_mem_nil, rfl⟩ hlast
  obtain ⟨items, hkeyed, rfl⟩ := hitems
  exact ⟨items, hkeyed, rfl⟩

theorem closed_mutual_of_load {provider : Provider} {report : Report}
    (h : (load provider account region).result = .ok report) :
    report.Closed ∧ report.Mutual .loadBalancers .instances := by
  obtain ⟨items, -, rfl⟩ := exists_items_of_load h
  have hdraws : ∀ item ∈ items, Draws (contributionsOf account item) (ids item) joined :=
    fun item _ => draws_contributionsOf account item
  exact ⟨Report.closed_of_draws hdraws, Report.mutual_of_draws hdraws List.mem_cons_self List.mem_cons_self⟩

end LoadBalancerAgent

/-- Whatever was found about the scaling groups of a listing, even if the same lookup ended differently for two of
them, the cluster agent reports a closed graph of all that the groups imply, in which all edges but those that are
inherited come in pairs. The same holds of the edges between instances and their server groups, and of those between
load balancers and their instances, that the other two agents report. -/
theorem reports_closed_and_consistent (account region : String) :
    (∀ items, ClusterAgent.AllDerived account region items →
      ClusterAgent.IsHierarchy (ClusterAgent.reportOf account region items) ∧
        ∀ item ∈ items, ∀ ns, ∀ id ∈ item.2.ids ns, (ClusterAgent.reportOf account region items).Has ns.name id) ∧
    (∀ provider workers report, (ClusterAgent.load provider account region workers).result = .ok report →
      ClusterAgent.IsHierarchy report) ∧
    (∀ provider report, (InstanceAgent.load provider account region).result = .ok report →
      report.Closed ∧ report.Mutual .serverGroups .instances) ∧
    (∀ provider report, (LoadBalancerAgent.load provider account region).result = .ok report →
      report.Closed ∧ report.Mutual .loadBalancers .instances) := by
  refine ⟨fun items h => ⟨ClusterAgent.isHierarchy_reportOf h, fun item hitem ns id hid => ?_⟩,
    fun provider workers report h => ?_, fun provider report h => InstanceAgent.closed_mutual_of_load h,
    fun provider report h => LoadBalancerAgent.closed_mutual_of_load h⟩
  · rw [ClusterAgent.reportOf_eq, Report.has_iff (ClusterAgent.draws_of_derived h)]
    exact ⟨item, hitem, ns, rfl, id, hid, rfl⟩
  · obtain ⟨items, hderived, rfl⟩ := ClusterAgent.exists_items_of_load h
    exact ClusterAgent.isHierarchy_reportOf hderived

def sharingProvider : Provider where
  scalingGroups := .ofList [
    .object [("scalingGroupName", "web-v001"), ("loadBalancerIds", .strings ["front"]),
      ("instances", .list [.object [("instanceId", "i-1")]])],
    .object [("scalingGroupName", "web-v002"), ("loadBalancerIds", .strings ["front", "gone"])]]
  scalingConfiguration _ := pure none
  loadBalancer id :=
    if id == "front" then pure [("loadBalancerName", "front")]
    else Traced.fail (.lookup ⟨"describe_load_balancers", id, "LoadBalancerNotFound"⟩)
  details _ := pure []
  instances := .ofList [[("instanceId", "i-1"), ("tags", .object [("aws:autoscaling:groupName", "web-v001")])]]
  images _ := .ofList []
  zones := .ofList []
  loadBalancers := .ofList [[("loadBalancerName", "front"), ("instances", .strings ["i-1"])]]

theorem reports_closed_and_consistent_sharing :
    (∃ items, ClusterAgent.AllDerived "prod" "eu" items ∧ ∃ report,
      (ClusterAgent.load sharingProvider "prod" "eu" 1).result = .ok report ∧
        report = ClusterAgent.reportOf "prod" "eu" items ∧ (report.entities Namespace.serverGroups.name).length = 2 ∧
        ClusterAgent.IsHierarchy (ClusterAgent.reportOf "prod" "eu" items) ∧ ClusterAgent.IsHierarchy report) ∧
    (∃ report, (InstanceAgent.load sharingProvider "prod" "eu").result = .ok report ∧
      report.Closed ∧ report.Mutual .serverGroups .instances) ∧
    (∃ report, (LoadBalancerAgent.load sharingProvider "prod" "eu").result = .ok report ∧
      report.Closed ∧ report.Mutual .loadBalancers .instances) := by
  obtain ⟨hitems, hclusters, hinstances, hbalancers⟩ := reports_closed_and_consistent "prod" "eu"
  have htwo : ((ClusterAgent.load sharingProvider "prod" "eu" 1).result.toOption.map
      (fun report => (report.entities Namespace.serverGroups.name).length)) = some 2 := by decide +kernel
  have hinstance : (InstanceAgent.load sharingProvider "prod" "eu").result.toOption.isSome = true := by decide +kernel
  have hbalancer : (LoadBalancerAgent.load sharingProvider "prod" "eu").result.toOption.isSome = true := by
    decide +kernel
  obtain ⟨clusters, hcluster, htwo⟩ := Option.map_eq_some_iff.1 htwo
  obtain ⟨instances, hinstance⟩ := Option.isSome_iff_exists.1 hinstance
  obtain ⟨balancers, hbalancer⟩ := Option.isSome_iff_exists.1 hbalancer
  have hloaded := ok_of_toOption hcluster
  obtain ⟨items, hderived, hreport⟩ := ClusterAgent.exists_items_of_load hloaded
  exact ⟨⟨items, hderived, clusters, hloaded, hreport, htwo, (hitems items hderived).1, hclusters _ _ _ hloaded⟩,
    ⟨instances, ok_of_toOption hinstance, hinstances _ _ (ok_of_toOption hinstance)⟩,
    ⟨balancers, ok_of_toOption hbalancer, hbalancers _ _ (ok_of_toOption hbalancer)⟩⟩

end FleetCache
