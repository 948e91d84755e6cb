import Mathlib.Logic.Basic
import FleetCache.Proofs.GroupReports
import FleetCache.Proofs.KeyRoundTrip
import FleetCache.Proofs.ReportGraphs

set_option autoImplicit false

namespace FleetCache

open FleetCache.Json (DistinctNames)

def Reaches (groups : List (Atom × List Atom)) (ids : Namespace → List String) (targets : List Namespace) : Prop :=
  ∀ target other, (∃ group ∈ groups, (group.1 == target) = true ∧ ∃ a ∈ group.2, (a == other) = true) ↔
    ∃ ns ∈ targets, target = .str ns.name ∧ ∃ id ∈ ids ns, other = .str id

namespace Reaches

variable {groups : List (Atom × List Atom)} {ids : Namespace → List String} {targets : List Namespace}

theorem nil (ids : Namespace → List String) : Reaches [] ids [] := by
  intro target other
  simp

theorem nil_of_no_ids {ns : Namespace} (h : ids ns = []) : Reaches [] ids [ns] := by
  intro target other
  simp [h]

theorem cons (h : Reaches groups ids targets) (ns : Namespace) :
    Reaches ((.str ns.name, (ids ns).map .str) :: groups) ids (ns :: targets) := by
  intro target other
  have hrest := h target other
  simp only [List.mem_cons, exists_eq_or_imp, hrest, Atom.str_beq_iff, List.mem_map, exists_exists_and_eq_and]

end Reaches

theorem Names.group_of_parse {name : String} {names : Names} (h : Names.parse name = .ok names) :
    names.group = name := by
  unfold Names.parse at h
  split at h
  · cases h
  · split at h
    · exact Except.ok.inj h ▸ rfl
    · split at h
      · cases h
      · exact Except.ok.inj h ▸ rfl

namespace ClusterAgent

variable {account region : String} {data data' : GroupData} {keys keys' : GroupKeys}

structure Derived (account region : String) (data : GroupData) (keys : GroupKeys) : Prop where
  names : Names.ofValue ((data.group.get "scalingGroupName").orElse (.str "")) = .ok keys.names
  application : Key.application (some keys.names.app) = .ok keys.application
  cluster : Key.cluster (some keys.names.cluster) (some keys.names.app) (some account) = .ok keys.cluster
  serverGroup : Key.serverGroup (some keys.names.group) (some account) (some region) = .ok keys.serverGroup
  configName : keys.configName = ClusterAgent.configName data.configuration
  launchConfig : (keys.configName.truthy = false ∧ keys.launchConfig = none) ∨ ∃ key,
    Key.launchConfig keys.configName.field? (some account) (some region) = .ok key ∧ keys.launchConfig = some key
  instances : memberKeys account region data.members = .ok keys.instances
  balancers : balancerKeys account region data.balancers = .ok keys.balancers

theorem derived_of_deriveKeys (h : deriveKeys account region data = .ok keys) : Derived account region data keys := by
  unfold deriveKeys at h
  obtain ⟨names, hnames, h⟩ := exists_of_bind h
  obtain ⟨application, happlication, h⟩ := exists_of_bind h
  obtain ⟨cluster, hcluster, h⟩ := exists_of_bind h
  obtain ⟨serverGroup, hgroup, h⟩ := exists_of_bind h
  dsimp only at h
  split at h
  · obtain ⟨launchConfig, hlaunch, h⟩ := exists_of_bind h
    obtain ⟨instances, hinstances, h⟩ := exists_of_bind h
    obtain ⟨balancers, hbalancers, h⟩ := exists_of_bind h
    obtain rfl := Except.ok.inj h
    obtain ⟨key, hkey, hsome⟩ := exists_of_map hlaunch
    exact ⟨hnames, ok_of_liftKey happlication, ok_of_liftKey hcluster, ok_of_liftKey hgroup, rfl,
      .inr ⟨key, ok_of_liftKey hkey, hsome.symm⟩, hinstances, hbalancers⟩
  · rename_i htruthy
    obtain ⟨launchConfig, hlaunch, h⟩ := exists_of_bind h
    obtain ⟨instances, hinstances, h⟩ := exists_of_bind h
    obtain ⟨balancers, hbalancers, h⟩ := exists_of_bind h
    obtain rfl := Except.ok.inj h
    exact ⟨hnames, ok_of_liftKey happlication, ok_of_liftKey hcluster, ok_of_liftKey hgroup, rfl,
      .inl ⟨Bool.eq_false_iff.2 htruthy, (Except.ok.inj hlaunch).symm⟩, hinstances, hbalancers⟩

namespace Derived

theorem parse_group (h : Derived account region data keys) : Names.parse keys.names.group = .ok keys.names := by
  have hnames := h.names
  unfold Names.ofValue at hnames
  split at hnames
  · rw [Names.group_of_parse hnames]
    exact hnames
  · split at hnames <;> cases hnames

theorem decode_serverGroup (h : Derived account region data keys) :
    Key.decode keys.serverGroup = .ok ⟨.serverGroups, [account, region, keys.names.group]⟩ :=
  Key.decode_of_texts h.serverGroup

theorem decode_cluster (h : Derived account region data keys) :
    Key.decode keys.cluster = .ok ⟨.clusters, [account, keys.names.app, keys.names.cluster]⟩ :=
  Key.decode_of_texts h.cluster

theorem decode_application (h : Derived account region data keys) :
    Key.decode keys.application = .ok ⟨.applications, [keys.names.app]⟩ :=
  Key.decode_of_texts h.application

theorem application_eq_of_cluster_eq (h : Derived account region data keys) (h' : Derived account region data' keys')
    (hsame : keys.cluster = keys'.cluster) : keys.application = keys'.application := by
  have hfields := h.decode_cluster.symm.trans (hsame ▸ h'.decode_cluster)
  have happ : keys.names.app = keys'.names.app := by
    simp only [Except.ok.injEq, Key.mk.injEq, List.cons.injEq, true_and] at hfields
    exact hfields.1
  exact Except.ok.inj (h.application.symm.trans (happ ▸ h'.application))

theorem names_eq_of_serverGroup_eq (h : Derived account region data keys) (h' : Derived account region data' keys')
    (hsame : keys.serverGroup = keys'.serverGroup) : keys.names = keys'.names := by
  have hfields := h.decode_serverGroup.symm.trans (hsame ▸ h'.decode_serverGroup)
  have hgroup : keys.names.group = keys'.names.group := by
    simpa using hfields
  exact Except.ok.inj (h.parse_group.symm.trans (hgroup ▸ h'.parse_group))

theorem cluster_eq_of_serverGroup_eq (h : Derived account region data keys) (h' : Derived account region data' keys')
    (hsame : keys.serverGroup = keys'.serverGroup) : keys.cluster = keys'.cluster := by
  have hcluster := h'.cluster
  rw [← h.names_eq_of_serverGroup_eq h' hsame] at hcluster
  exact Except.ok.inj (h.cluster.symm.trans hcluster)

theorem application_eq_of_serverGroup_eq (h : Derived account region data keys)
    (h' : Derived account region data' keys') (hsame : keys.serverGroup = keys'.serverGroup) :
    keys.application = keys'.application :=
  h.application_eq_of_cluster_eq h' (h.cluster_eq_of_serverGroup_eq h' hsame)

end Derived

def GroupKeys.balancerKey? (balancers : List (Atom × String)) (record : Attributes) : Option String :=
  (balancerId record).atom?.bind (fun id => balancers.lookup id)

/-- The keys of load balancer records: one under the id of every record, and none besides. -/
structure KeepsBalancers (records : List Attributes) (balancers : List (Atom × String)) : Prop where
  distinct : DistinctNames balancers
  known : ∀ record ∈ records, (GroupKeys.balancerKey? balancers record).isSome = true
  found : ∀ item ∈ balancers, ∃ record ∈ records, ∃ id, (balancerId record).atom? = some id ∧ (id == item.1) = true

namespace KeepsBalancers

variable {records : List Attributes} {balancers : List (Atom × String)}

theorem nil : KeepsBalancers [] [] :=
  ⟨List.Pairwise.nil, fun _ h => absurd h List.not_mem_nil, fun _ h => absurd h List.not_mem_nil⟩

theorem concat (h : KeepsBalancers records balancers) {record : Attributes} {id : Atom}
    (hid : (balancerId record).atom? = some id) (key : String) :
    KeepsBalancers (records ++ [record]) (putKey id key balancers) := by
  refine ⟨ReportBuilder.distinctNames_adjust h.distinct _ _, fun other hother => ?_, fun item hitem => ?_⟩
  · unfold GroupKeys.balancerKey?
    rcases List.mem_append.1 hother with hold | hnew
    · obtain ⟨found, hfound⟩ := Option.isSome_iff_exists.1 (h.known other hold)
      obtain ⟨otherId, hotherId, hlookup⟩ := Option.bind_eq_some_iff.1 hfound
      rw [hotherId, Option.bind_some, putKey, ReportBuilder.lookup_adjust]
      split
      · rfl
      · exact Option.isSome_of_mem hlookup
    · obtain rfl := List.mem_singleton.1 hnew
      rw [hid, Option.bind_some, putKey, ReportBuilder.lookup_adjust, if_pos BEq.rfl]
      rfl
  · rcases ReportBuilder.mem_adjust hitem with hold | ⟨hsame, -⟩
    · obtain ⟨other, hother, found⟩ := h.found item hold
      exact ⟨other, List.mem_append_left _ hother, found⟩
    · exact ⟨record, List.mem_append_right _ List.mem_cons_self, id, hid, hsame⟩

theorem of_balancerKeys (h : balancerKeys account region records = .ok balancers) :
    KeepsBalancers records balancers := by
  -- `done` are the records before those still to come, `before` their keys
  have hrun (rest : List Attributes) : ∀ done before, KeepsBalancers done before →
      rest.foldlM (fun keys record => do
        let key ← liftKey (LoadBalancerAgent.keyOf account region record)
        return putKey (← (balancerId record).toAtom) key keys) before = Except.ok balancers →
      KeepsBalancers (done ++ rest) balancers := by
    induction rest with
    | nil =>
      intro done before hkept hdone
      rw [List.append_nil]
      exact Except.ok.inj hdone ▸ hkept
    | cons record rest ih =>
      intro done before hkept hrest
      rw [List.foldlM_cons] at hrest
      obtain ⟨next, hnext, hrest⟩ := exists_of_bind hrest
      obtain ⟨key, -, hnext⟩ := exists_of_bind hnext
      obtain ⟨id, hid, hnext⟩ := exists_of_bind hnext
      obtain rfl := Except.ok.inj hnext
      have hatom : (balancerId record).atom? = some id := by
        unfold Value.toAtom at hid
        split at hid
        · rename_i hvalue
          rw [hvalue]
          exact congrArg some (Except.ok.inj hid)
        · cases hid
      rw [List.append_cons]
      exact ih (done ++ [record]) _ (hkept.concat hatom key) hrest
  exact hrun records [] [] nil h

theorem exists_balancerKey?_iff (h : KeepsBalancers records balancers) (key : String) :
    (∃ record ∈ records, GroupKeys.balancerKey? balancers record = some key) ↔ key ∈ balancers.map (·.2) := by
  constructor
  · rintro ⟨record, -, hkey⟩
    obtain ⟨id, -, hlookup⟩ := Option.bind_eq_some_iff.1 hkey
    obtain ⟨name, -, hmem⟩ := ReportBuilder.exists_mem_of_lookup hlookup
    exact List.mem_map_of_mem hmem
  · intro hmem
    obtain ⟨⟨name, _⟩, hitem, rfl⟩ := List.mem_map.1 hmem
    obtain ⟨record, hrecord, id, hid, hsame⟩ := h.found _ hitem
    refine ⟨record, hrecord, ?_⟩
    rw [GroupKeys.balancerKey?, hid, Option.bind_some, lookup_congr _ hsame]
    exact lookup_of_mem h.distinct hitem

end KeepsBalancers

def GroupKeys.ids (keys : GroupKeys) : Namespace → List String
  | .applications => [keys.application]
  | .clusters => [keys.cluster]
  | .serverGroups => [keys.serverGroup]
  | .launchConfigs => keys.launchConfig.toList
  | .instances => keys.instances.map (·.2)
  | .loadBalancers => keys.balancers.map (·.2)
  | _ => []

def joined : Namespace → List Namespace
  | .applications => [.clusters, .serverGroups, .loadBalancers]
  | .clusters => [.applications, .serverGroups, .loadBalancers]
  | .serverGroups => [.applications, .clusters, .loadBalancers, .instances, .launchConfigs]
  | .launchConfigs | .instances | .loadBalancers => [.serverGroups]
  | _ => []

def mainContributions (account region : String) (data : GroupData) (keys : GroupKeys) : List Contribution :=
  [⟨Namespace.applications.name, keys.application, [("name", .str keys.names.app)],
      [(Namespace.clusters.name, [keys.cluster]), (Namespace.serverGroups.name, [keys.serverGroup]),
        (Namespace.loadBalancers.name, keys.balancerIds)]⟩,
    ⟨Namespace.clusters.name, keys.cluster,
      [("name", .str keys.names.cluster), ("application", .str keys.names.app), ("account", .str account)],
      [(Namespace.applications.name, [keys.application]), (Namespace.serverGroups.name, [keys.serverGroup]),
        (Namespace.loadBalancers.name, keys.balancerIds)]⟩,
    ⟨Namespace.serverGroups.name, keys.serverGroup, groupAttributes account region data keys, groupEdges keys⟩]

def configContributions (data : GroupData) (keys : GroupKeys) : List Contribution :=
  keys.launchConfig.toList.map (fun (key : String) =>
    ⟨Namespace.launchConfigs.name, key, data.configuration.getD [], backEdge keys⟩)

def instanceContributions (data : GroupData) (keys : GroupKeys) : List Contribution :=
  keys.instances.map (fun (id, key) =>
    ⟨Namespace.instances.name, key, instanceAttributes data.details id, backEdge keys⟩)

def balancerContributions (data : GroupData) (keys : GroupKeys) : List Contribution :=
  data.balancers.filterMap (fun record => (GroupKeys.balancerKey? keys.balancers record).map (fun (key : String) =>
    ⟨Namespace.loadBalancers.name, key, record, backEdge keys⟩))

def contributionsOf (account region : String) (item : GroupData × GroupKeys) : List Contribution :=
  mainContributions account region item.1 item.2 ++ (configContributions item.1 item.2 ++
    (instanceContributions item.1 item.2 ++ balancerContributions item.1 item.2))

theorem addLaunchConfig_eq (data : GroupData) (keys : GroupKeys) (builder : ReportBuilder) :
    addLaunchConfig data keys builder = builder.addAll (configContributions data keys) := by
  unfold addLaunchConfig configContributions
  cases keys.launchConfig <;> rfl

theorem addInstances_eq (data : GroupData) (keys : GroupKeys) (builder : ReportBuilder) :
    addInstances data keys builder = builder.addAll (instanceContributions data keys) := by
  rw [instanceContributions, ReportBuilder.addAll, List.foldl_map]
  rfl

theorem addLoadBalancers_eq (data : GroupData) (keys : GroupKeys) (builder : ReportBuilder) :
    addLoadBalancers data keys builder = builder.addAll (balancerContributions data keys) := by
  unfold addLoadBalancers balancerContributions
  generalize data.balancers = records
  induction records generalizing builder with
  | nil => rfl
  | cons record rest ih =>
    rw [List.foldl_cons, ih, List.filterMap_cons, GroupKeys.balancerKey?]
    cases (balancerId record).atom?.bind (fun id => keys.balancers.lookup id) <;> rfl

theorem addGroup_eq (account region : String) (data : GroupData) (keys : GroupKeys) (builder : ReportBuilder) :
    addGroup account region data keys builder = builder.addAll (contributionsOf account region (data, keys)) := by
  rw [contributionsOf, ReportBuilder.addAll_append, ReportBuilder.addAll_append, ReportBuilder.addAll_append,
    ← addLoadBalancers_eq, ← addInstances_eq, ← addLaunchConfig_eq]
  rfl

theorem balancerIds_eq (keys : GroupKeys) :
    keys.balancerIds = (keys.ids .loadBalancers).map Atom.str := by
  rw [GroupKeys.balancerIds, GroupKeys.ids, List.map_map]
  rfl

theorem instanceIds_eq (keys : GroupKeys) : keys.instanceIds = (keys.ids .instances).map Atom.str := by
  rw [GroupKeys.instanceIds, GroupKeys.ids, List.map_map]
  rfl

theorem reaches_backEdge (keys : GroupKeys) : Reaches (backEdge keys) keys.ids [.serverGroups] :=
  (Reaches.nil keys.ids).cons .serverGroups

theorem reaches_launchEdge (keys : GroupKeys) : Reaches (launchEdge keys) keys.ids [.launchConfigs] := by
  unfold launchEdge
  split
  · rename_i key hkey
    have hids : keys.ids .launchConfigs = [key] := by
      rw [GroupKeys.ids, hkey]
      rfl
    have hreaches := (Reaches.nil keys.ids).cons .launchConfigs
    rwa [hids] at hreaches
  · rename_i hnone
    apply Reaches.nil_of_no_ids
    rw [GroupKeys.ids, hnone]
    rfl

theorem reaches_groupEdges (keys : GroupKeys) : Reaches (groupEdges keys) keys.ids (joined .serverGroups) := by
  rw [groupEdges, balancerIds_eq, instanceIds_eq]
  exact ((((reaches_launchEdge keys).cons .instances).cons .loadBalancers).cons .clusters).cons .applications

theorem draws_contributionsOf (account region : String) {item : GroupData × GroupKeys}
    (h : KeepsBalancers item.1.balancers item.2.balancers) :
    Draws (contributionsOf account region item) item.2.ids joined := by
  obtain ⟨data, keys⟩ := item
  -- one case for each kind of contribution, and then one for each namespace
  refine ⟨fun c hc => ?_, fun ns id hid => ?_⟩
  · simp only [contributionsOf, mainContributions, configContributions, instanceContributions, balancerContributions,
      List.mem_append, List.mem_cons, List.not_mem_nil, or_false, List.mem_map, List.mem_filterMap,
      Option.map_eq_some_iff] at hc
    obtain (rfl | rfl | rfl) | ⟨key, hkey, rfl⟩ | ⟨⟨id, key⟩, hkey, rfl⟩ | ⟨record, hrecord, key, hkey, rfl⟩ := hc
    · refine ⟨.applications, keys.application, List.mem_cons_self, rfl, rfl, ?_⟩
      rw [balancerIds_eq]
      exact (((Reaches.nil keys.ids).cons .loadBalancers).cons .serverGroups).cons .clusters
    · refine ⟨.clusters, keys.cluster, List.mem_cons_self, rfl, rfl, ?_⟩
      rw [balancerIds_eq]
      exact (((Reaches.nil keys.ids).cons .loadBalancers).cons .serverGroups).cons .applications
    · exact ⟨.serverGroups, keys.serverGroup, List.mem_cons_self, rfl, rfl, reaches_groupEdges keys⟩
    · exact ⟨.launchConfigs, key, hkey, rfl, rfl, reaches_backEdge keys⟩
    · exact ⟨.instances, key, List.mem_map_of_mem hkey, rfl, rfl, reaches_backEdge keys⟩
    · exact ⟨.loadBalancers, key, (h.exists_balancerKey?_iff key).1 ⟨record, hrecord, hkey⟩, rfl, rfl,
        reaches_backEdge keys⟩
  · simp only [contributionsOf, mainContributions, configContributions, instanceContributions, balancerContributions,
      List.mem_append, List.mem_cons, List.not_mem_nil, or_false, List.mem_map, List.mem_filterMap,
      Option.map_eq_some_iff]
    cases ns with
    | applications => exact ⟨_, .inl (.inl rfl), rfl, congrArg _ (List.mem_singleton.1 hid).symm⟩
    | clusters => exact ⟨_, .inl (.inr (.inl rfl)), rfl, congrArg _ (List.mem_singleton.1 hid).symm⟩
    | serverGroups => exact ⟨_, .inl (.inr (.inr rfl)), rfl, congrArg _ (List.mem_singleton.1 hid).symm⟩
    | launchConfigs => exact ⟨_, .inr (.inl ⟨id, hid, rfl⟩), rfl, rfl⟩
    | instances =>
      obtain ⟨item, hitem, rfl⟩ := List.mem_map.1 hid
      exact ⟨_, .inr (.inr (.inl ⟨item, hitem, rfl⟩)), rfl, rfl⟩
    | loadBalancers =>
      obtain ⟨record, hrecord, hkey⟩ := (h.exists_balancerKey?_iff id).2 hid
      exact ⟨_, .inr (.inr (.inr ⟨record, hrecord, id, hkey, rfl⟩)), rfl, rfl⟩
    | images | namedImages | instanceTypes => cases hid

def reportOf (account region : String) (items : List (GroupData × GroupKeys)) : Report :=
  (items.foldl (fun builder item => addGroup account region item.1 item.2 builder) ReportBuilder.empty).build
    types false

theorem foldl_addGroup (account region : String) (items : List (GroupData × GroupKeys)) (builder : ReportBuilder) :
    items.foldl (fun builder item => addGroup account region item.1 item.2 builder) builder =
      builder.addAll (items.flatMap (contributionsOf account region)) := by
  induction items generalizing builder with
  | nil => rfl
  | cons item rest ih => rw [List.foldl_cons, ih, addGroup_eq, List.flatMap_cons, ReportBuilder.addAll_append]

theorem reportOf_eq (account region : String) (items : List (GroupData × GroupKeys)) :
    reportOf account region items = Report.ofContributions types (items.flatMap (contributionsOf account region)) := by
  rw [reportOf, foldl_addGroup]
  rfl

def AllDerived (account region : String) (items : List (GroupData × GroupKeys)) : Prop :=
  ∀ item ∈ items, deriveKeys account region item.1 = .ok item.2

theorem exists_items_of_load {provider : Provider} {workers : Int} {report : Report}
    (h : (load provider account region workers).result = .ok report) :
    ∃ items, AllDerived account region items ∧ report = reportOf account region items := by
  obtain ⟨groups, builder, hbuilder, rfl⟩ := exists_groups_of_load h
  -- a group that is skipped leaves the builder as the groups before it have made it
  have hitems := Traced.foldlM_keeps
    (fun builder => ∃ items, AllDerived account region items ∧
      builder = items.foldl (fun builder item => addGroup account region item.1 item.2 builder) ReportBuilder.empty)
    (fun before _ after ⟨items, hderived, hbefore⟩ hstep => by
      rcases step_cases hstep with rfl | ⟨data, keys, hkeys, rfl⟩
      · exact ⟨items, hderived, hbefore⟩
      · refine ⟨items ++ [(data, keys)], List.forall_mem_append.2 ⟨hderived, List.forall_mem_singleton.2 hkeys⟩, ?_⟩
        rw [List.foldl_append, hbefore]
        rfl)
    ⟨[], fun _ hnone => absurd hnone List.not_mem_nil, rfl⟩ hbuilder
  obtain ⟨items, hderived, rfl⟩ := hitems
  exact ⟨items, hderived, rfl⟩

theorem draws_of_derived {items : List (GroupData × GroupKeys)} (h : AllDerived account region items) :
    ∀ item ∈ items, Draws (contributionsOf account region item) item.2.ids joined :=
  fun item hitem => draws_contributionsOf account region
    (KeepsBalancers.of_balancerKeys (derived_of_deriveKeys (h item hitem)).balancers)

/-- A closed and consistent graph of applications, clusters and server groups with what belongs to them. -/
structure IsHierarchy (report : Report) : Prop where
  closed : report.Closed
  application_cluster : report.Mutual .applications .clusters
  application_serverGroup : report.Mutual .applications .serverGroups
  cluster_serverGroup : report.Mutual .clusters .serverGroups
  serverGroup_launchConfig : report.Mutual .serverGroups .launchConfigs
  serverGroup_instance : report.Mutual .serverGroups .instances
  serverGroup_loadBalancer : report.Mutual .serverGroups .loadBalancers
  application_loadBalancers : report.Inherits .applications .serverGroups .loadBalancers
  cluster_loadBalancers : report.Inherits .clusters .serverGroups .loadBalancers
  application_serverGroups : report.Inherits .applications .clusters .serverGroups

theorem inherits_of_settled {items : List (GroupData × GroupKeys)} (h : AllDerived account region items)
    {ns via target : Namespace} (hvia : via ∈ joined ns) (hbelow : target ∈ joined via) (htarget : target ∈ joined ns)
    {upper lower : GroupKeys → String} (hupper : ∀ keys : GroupKeys, keys.ids ns = [upper keys])
    (hlower : ∀ keys : GroupKeys, keys.ids via = [lower keys])
    (hsettled : ∀ item ∈ items, ∀ item' ∈ items, lower item.2 = lower item'.2 → upper item.2 = upper item'.2) :
    (Report.ofContributions types (items.flatMap (contributionsOf account region))).Inherits ns via target := by
  refine Report.inherits_of_draws (draws_of_derived h) hvia hbelow htarget (fun item _ => ⟨lower item.2, ?_⟩)
    (fun item hitem item' hitem' child hchild hchild' => ?_)
  · rw [hlower]
    exact List.mem_singleton_self _
  · rw [hlower, List.mem_singleton] at hchild hchild'
    rw [hupper, hupper, hsettled item hitem item' hitem' (hchild.symm.trans hchild')]
    exact List.Subset.refl _

theorem isHierarchy_reportOf {items : List (GroupData × GroupKeys)} (h : AllDerived account region items) :
    IsHierarchy (reportOf account region items) := by
  have hdraws := draws_of_derived h
  have hderived (item) (hitem : item ∈ items) := derived_of_deriveKeys (h item hitem)
  rw [reportOf_eq]
  have hmutual {ns target : Namespace} (hthere : target ∈ joined ns) (hback : ns ∈ joined target) :
      (Report.ofContributions types (items.flatMap (contributionsOf account region))).Mutual ns target :=
    Report.mutual_of_draws hdraws hthere hback
  exact {
    closed := Report.closed_of_draws hdraws
    application_cluster := hmutual (by decide) (by decide)
    application_serverGroup := hmutual (by decide) (by decide)
    cluster_serverGroup := hmutual (by decide) (by decide)
    serverGroup_launchConfig := hmutual (by decide) (by decide)
    serverGroup_instance := hmutual (by decide) (by decide)
    serverGroup_loadBalancer := hmutual (by decide) (by decide)
    -- two groups with one key have one name, and the name is parsed into the application and the cluster
    application_loadBalancers :=
      inherits_of_settled h (by decide) (by decide) (by decide) (fun _ => rfl) (fun _ => rfl)
        (fun item hitem item' hitem' => (hderived item hitem).application_eq_of_serverGroup_eq (hderived item' hitem'))
    cluster_loadBalancers :=
      inherits_of_settled h (by decide) (by decide) (by decide) (fun _ => rfl) (fun _ => rfl)
        (fun item hitem item' hitem' => (hderived item hitem).cluster_eq_of_serverGroup_eq (hderived item' hitem'))
    application_serverGroups :=
      inherits_of_settled h (by decide) (by decide) (by decide) (fun _ => rfl) (fun _ => rfl)
        (fun item hitem item' hitem' => (hderived item hitem).application_eq_of_cluster_eq (hderived item' hitem')) }

end ClusterAgent

end FleetCache
