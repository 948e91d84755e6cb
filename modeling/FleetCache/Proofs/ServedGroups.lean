import FleetCache.Agents.Images
import FleetCache.Agents.InstanceTypes
import FleetCache.Proofs.DroppedGroups
import FleetCache.Proofs.GroupViews

set_option autoImplicit false

namespace FleetCache

/-- An entity stays without a source while it has another owner, whether the source returns or not. -/
theorem Partition.withoutSource_of_owned {kept : Stored} (hkept : kept.Sound) {source owner : Atom}
    (howned : owner ∈ kept.owners) (hne : (source == owner) = false) (returning : Bool) :
    Partition.withoutSource source returning kept =
      some ⟨kept.attributes, kept.contributions.erase source, kept.owners.erase source⟩ := by
  have hcontributes : owner ∈ kept.contributions.erase source :=
    (Table.mem_erase _ _ _).2 ⟨hne, hkept.owned owner howned⟩
  have howner : owner ∈ kept.owners.erase source := (AtomSet.mem_erase _ _ _).2 ⟨hne, howned⟩
  refine withoutSource_eq_some.2 ⟨Contributions.isEmpty_eq_false hcontributes, fun _ halone => ?_, rfl⟩
  rw [Std.ExtTreeSet.isEmpty_iff] at halone
  exact absurd (halone ▸ howner) Std.ExtTreeSet.not_mem_empty

namespace Stored

structure OwnedBy (source : Atom) (attributes : Attributes) (old : Option Stored) : Prop where
  owned : source ∈ ownersOf old
  given : attributesOf old = some attributes

variable {source other : Atom} {attributes : Attributes} {old : Option Stored}

/-- An owner that reports an entity once settles its attributes, whatever was kept of it. -/
theorem ownedBy_replaced (old : Option Stored) (source : Atom) (entity : Entity) :
    OwnedBy source entity.attributes (Partition.replaced source .authoritative old [entity]) := by
  change OwnedBy source entity.attributes (some (Partition.stored _ entity source .authoritative))
  refine ⟨?_, attributesOf_stored _ entity source .authoritative⟩
  rw [ownersOf_stored, AtomSet.mem_insert]
  exact .inl BEq.rfl

theorem OwnedBy.storedAll_blank (h : OwnedBy source attributes old) {entities : List Entity}
    (hblank : ∀ entity ∈ entities, entity.attributes = []) :
    OwnedBy source attributes (Partition.storedAll other .informative old entities) := by
  induction entities generalizing old with
  | nil => exact h
  | cons entity rest ih =>
    obtain ⟨hentity, hrest⟩ := List.forall_mem_cons.1 hblank
    refine ih ⟨?_, ?_⟩ hrest
    · rw [ownersOf_stored]
      exact h.owned
    · rw [attributesOf_stored, h.given, hentity]
      rfl

theorem OwnedBy.withoutSource (h : OwnedBy source attributes old) (hsound : ∀ kept, old = some kept → kept.Sound)
    (hne : (other == source) = false) (returning : Bool) :
    OwnedBy source attributes (old.bind (Partition.withoutSource other returning)) := by
  obtain ⟨howned, hgiven⟩ := h
  cases old with
  | none => exact absurd howned Std.ExtTreeSet.not_mem_empty
  | some kept =>
    rw [Option.bind_some, Partition.withoutSource_of_owned (hsound kept rfl) howned hne]
    exact ⟨(AtomSet.mem_erase _ _ _).2 ⟨hne, howned⟩, hgiven⟩

theorem OwnedBy.replaced_blank (h : OwnedBy source attributes old) (hsound : ∀ kept, old = some kept → kept.Sound)
    (hne : (other == source) = false) {entities : List Entity}
    (hblank : ∀ entity ∈ entities, entity.attributes = []) :
    OwnedBy source attributes (Partition.replaced other .informative old entities) :=
  (h.withoutSource hsound hne _).storedAll_blank hblank

end Stored

theorem Report.ns_operation (source : Atom) (report : Report) (dt : DataType) :
    (report.operation source dt).ns = dt.ns := by
  unfold Report.operation
  split <;> rfl

theorem CacheStore.kept_putReport_undeclared {source : Atom} {types : List DataType} {ns : Atom}
    (hns : ∀ dt ∈ declared types, (dt.ns == ns) = false) (report : Report) {store : Memory} (h : store.Sound) :
    ((CacheStore.putReport source types report : Change Memory _) store).2.kept ns = store.kept ns := by
  funext id
  rw [(CacheStore.putReport_yields source types report store).state_eq, Memory.kept_applyAll h]
  have hnone : (report.operations source types).filter (fun op => op.ns == ns) = [] := by
    refine List.filter_eq_nil_iff.2 (fun op hop => ?_)
    obtain ⟨dt, hdt, rfl⟩ := List.mem_map.1 hop
    rw [Report.ns_operation, hns dt hdt]
    exact Bool.false_ne_true
  rw [hnone]
  rfl

inductive AgentResult where
  | groups (result : GroupResult)
  | loadBalancers (provider : Provider) (account region : String) (report : Report)
      (loaded : (LoadBalancerAgent.load provider account region).result = .ok report)
  | images (provider : Provider) (account region publicOwner : String) (report : Report)
      (loaded : (ImageAgent.load provider account region publicOwner).result = .ok report)
  | instanceTypes (provider : Provider) (account region : String) (report : Report)
      (loaded : (InstanceTypeAgent.load provider account region).result = .ok report)

namespace AgentResult

def agent : AgentResult → Agent
  | groups result => result.agent
  | loadBalancers provider account region _ _ => loadBalancerAgent provider account region
  | images provider account region publicOwner _ _ => imageAgent provider account region publicOwner
  | instanceTypes provider account region _ _ => instanceTypeAgent provider account region

def report : AgentResult → Report
  | groups result => result.report
  | loadBalancers _ _ _ report _ | images _ _ _ _ report _ | instanceTypes _ _ _ report _ => report

def put (store : Memory) (result : AgentResult) : Memory :=
  ((CacheStore.putReport result.agent.type result.agent.types result.report : Change Memory _) store).2

theorem put_sound {store : Memory} (h : store.Sound) (result : AgentResult) : (result.put store).Sound := by
  rw [put, (CacheStore.putReport_yields _ _ _ store).state_eq]
  exact Memory.applyAll_sound h _

def Recaches (account region : String) : AgentResult → Prop
  | groups (.cluster _ account' region' _ _ _) => clusterSource account' region' = clusterSource account region
  | _ => False

end AgentResult

section

variable {account region key : String} {name : Option String} {attributes : Attributes} {store : Memory}

abbrev HasListed (account region key : String) (attributes : Attributes) (store : Memory) : Prop :=
  Stored.OwnedBy (clusterSource account region) attributes (store.kept Namespace.serverGroups.name key)

/-- A result about server groups that another agent puts: the instance agent of the same account and region only links
the group, and all others know nothing of it. -/
theorem GroupResult.hasListed_put (hkey : Key.serverGroup name (some account) (some region) = .ok key)
    (hsound : store.Sound) (h : HasListed account region key attributes store) {result : GroupResult}
    (hother : result.source ≠ clusterSource account region) :
    HasListed account region key attributes (result.put store) := by
  have hkept (kept : Stored) (hstored : store.kept Namespace.serverGroups.name key = some kept) : kept.Sound :=
    hsound.kept hstored
  have hne : (Atom.str result.source == .str (clusterSource account region)) = false := by
    rw [Atom.str_beq_str, beq_eq_false_iff_ne]
    exact hother
  unfold HasListed
  rw [GroupResult.kept_put result hsound]
  by_cases hinstance : result.source = instanceSource account region
  · rw [GroupResult.authority_of_instanceSource hinstance]
    exact h.replaced_blank hkept hne (GroupResult.blank_of_instanceSource hinstance)
  · rw [GroupResult.about_eq_nil hkey hother hinstance]
    exact h.withoutSource hkept hne _

theorem AgentResult.hasListed_put (hkey : Key.serverGroup name (some account) (some region) = .ok key)
    (hsound : store.Sound) (h : HasListed account region key attributes store) {result : AgentResult}
    (hother : ¬ result.Recaches account region) : HasListed account region key attributes (result.put store) := by
  have hundeclared (types : List DataType) (htypes : result.agent.types = types)
      (hns : ∀ dt ∈ declared types, (dt.ns == Namespace.serverGroups.name) = false) :
      HasListed account region key attributes (result.put store) := by
    unfold HasListed AgentResult.put
    rw [htypes, CacheStore.kept_putReport_undeclared hns _ hsound]
    exact h
  cases result with
  | groups result =>
    refine GroupResult.hasListed_put hkey hsound h ?_
    cases result with
    | cluster => exact hother
    | instances => exact (agentType_cluster_ne_instance _ _ _ _).symm
  | loadBalancers => exact hundeclared LoadBalancerAgent.types rfl (by decide)
  | images => exact hundeclared ImageAgent.types rfl (by decide)
  | instanceTypes => exact hundeclared InstanceTypeAgent.types rfl (by decide)

theorem hasListed_foldl_put (hkey : Key.serverGroup name (some account) (some region) = .ok key)
    (hsound : store.Sound) (h : HasListed account region key attributes store) {later : List AgentResult}
    (hothers : ∀ result ∈ later, ¬ result.Recaches account region) :
    HasListed account region key attributes (later.foldl AgentResult.put store) := by
  induction later generalizing store with
  | nil => exact h
  | cons result rest ih =>
    obtain ⟨hother, hrest⟩ := List.forall_mem_cons.1 hothers
    exact ih (result.put_sound hsound) (result.hasListed_put hkey hsound h hother) hrest

theorem get_of_hasListed (h : HasListed account region key attributes store) :
    ∃ entity, store.get Namespace.serverGroups.name key = some entity ∧ entity.attributes = attributes := by
  obtain ⟨kept, hkept, rfl⟩ := Option.map_eq_some_iff.1 h.given
  exact ⟨_, by rw [Memory.get_eq, hkept]; rfl, rfl⟩

end

/-- Scaling groups with different names are served as they were described, once the cluster agent has cached them in
whatever there was before. Whom the agent asks can differ from group to group, so that a lookup that goes well for one
group can fail for the next; the run of the agent at a single provider is the case where it is the same for all. What
later comes from agents of any other kind, or from cluster agents under other sources, changes nothing of that. An
account and a region have names, as all of the settings have. -/
theorem described_groups_served {account region : String} (haccount : account ≠ "") (hregion : region ≠ "")
    {workers : Int} (hworkers : 0 < workers) (listing : Listing (ClusterAgent.Described account region))
    (hends : listing.ending.result = .ok ())
    (hnames : ∀ listed ∈ listing.items, ClusterAgent.IsGroupName listed.description.name)
    (hdistinct : (listing.items.map (fun listed => listed.description.name)).Nodup) :
    ∃ report, (ClusterAgent.loadEach (listing.convert ClusterAgent.Described.entry) account region workers).result =
        .ok report ∧
      (∀ provider, ClusterAgent.ListsDescribed provider listing →
        (ClusterAgent.load provider account region workers).result = .ok report) ∧
      ∀ (before : List Operation) (later : List AgentResult),
        (∀ result ∈ later, ¬ result.Recaches account region) → ∀ listed ∈ listing.items,
          ∃ group, (Views.findServerGroup (later.foldl AgentResult.put
              ((CacheStore.putReport (clusterSource account region) ClusterAgent.types report : Change Memory _)
                (Memory.after before)).2)
              (.str account) (.str region) (.str listed.description.name)).result = .ok (some group) ∧
            listed.description.ShownAs listed.provider account region group := by
  obtain ⟨items, hload, hprepared⟩ := ClusterAgent.loadEach_ok haccount hregion hworkers hends hnames
  refine ⟨ClusterAgent.reportOf account region items, hload, fun provider hlists => ?_,
    fun before later hothers listed hlisted => ?_⟩
  · rw [ClusterAgent.load_of_described hlists, hload]
  have hderived := ClusterAgent.allDerived_of_known hprepared
  obtain ⟨item, hitem, ⟨record, hrecord, hfetched⟩, -, hnamed⟩ := exists_mem_of_forall₂ hprepared hlisted
  have hkey := (ClusterAgent.derived_of_deriveKeys (hderived item hitem)).serverGroup
  obtain ⟨entity, hentity, hattributes⟩ := ClusterAgent.withId_reportOf hderived
    (by rw [ClusterAgent.names_of_known hprepared]; exact hdistinct) hitem
  have hsound := Memory.after_sound before
  have hfirst : HasListed account region item.2.serverGroup (ClusterAgent.groupAttributes account region item.1 item.2)
      ((CacheStore.putReport (clusterSource account region) ClusterAgent.types
        (ClusterAgent.reportOf account region items) : Change Memory _) (Memory.after before)).2 := by
    unfold HasListed
    rw [CacheStore.kept_putReport_full rfl ClusterAgent.filter_types hsound, owns, hentity, ← hattributes]
    exact Stored.ownedBy_replaced _ _ entity
  have hput : ((CacheStore.putReport (clusterSource account region) ClusterAgent.types
      (ClusterAgent.reportOf account region items) : Change Memory _) (Memory.after before)).2.Sound := by
    rw [(CacheStore.putReport_yields _ _ _ _).state_eq]
    exact Memory.applyAll_sound hsound _
  have hlast := hasListed_foldl_put hkey hput hfirst hothers
  obtain ⟨found, hfound, hfoundAttributes⟩ := get_of_hasListed hlast
  rw [hnamed] at hkey
  rw [findServerGroup_eq hkey, hfound]
  have hconfig := (ClusterAgent.derived_of_deriveKeys (hderived item hitem)).configName
  exact Views.usableServerGroup_ok hrecord hfetched hconfig hnamed ⟨(hnames listed hlisted).1, haccount, hregion⟩
    hfoundAttributes

def webDescription (name : String) : GroupDescription where
  name := name
  status := none
  suspended := [some "AddToLoadBalancer"]
  members := [⟨some "i-1", some "Healthy", none, none, none⟩, ⟨none, some "Healthy", none, none, none⟩]
  balancers := ["front", "gone"]

def webMembers (name : String) : Attributes :=
  [("AutoScalingGroupName", .str name),
    ("SuspendedProcesses", .list [.object [("ProcessName", "AddToLoadBalancer")]]),
    ("LoadBalancerNames", .strings ["front", "gone"]),
    ("Instances", .list [.object [("InstanceId", "i-1"), ("HealthStatus", "Healthy")],
      .object [("HealthStatus", "Healthy")]])]

theorem webDescription_describes (name : String) : (webDescription name).Describes (webMembers name) where
  name := rfl
  arn := ⟨none, rfl⟩
  configuration := ⟨none, rfl⟩
  template := .inl rfl
  policy := .inl rfl
  status := rfl
  suspended := ⟨_, rfl, .cons ⟨_, rfl, rfl⟩ .nil⟩
  created := .inl rfl
  balancers := rfl
  targetGroups := ⟨[], rfl⟩
  zones := ⟨[], rfl⟩
  tags := .inl rfl
  instances := ⟨_, rfl, .cons ⟨_, rfl, rfl, rfl, rfl, rfl, rfl⟩ (.cons ⟨_, rfl, rfl, rfl, rfl, rfl, rfl⟩ .nil)⟩

/-- A provider that lists one of the groups, finds one load balancer, or none, and nothing else. -/
def webProvider (found : Bool) : Provider where
  scalingGroups := ((Listing.ofList [.object (webMembers "web-v001")]).convert Records.scalingGroup).convert
    (fun group => .ok (.object group))
  scalingConfiguration _ := Traced.fail (.lookup ⟨"describe_launch_configurations", .null, "Throttling"⟩)
  loadBalancer id :=
    if found && id == "front" then pure [("loadBalancerId", "front"), ("loadBalancerName", "front")]
    else Traced.fail (.lookup ⟨"describe_load_balancers", id, "LoadBalancerNotFound"⟩)
  details _ := pure []
  instances := .ofList [[("instanceId", "i-2"), ("tags", .object [("aws:autoscaling:groupName", "web-v001")])]]
  images _ := .ofList []
  zones := .ofList []
  loadBalancers := .ofList []

theorem webProvider_answers (found : Bool) (name : String) (record : Attributes) :
    (webProvider found).AnswersAbout "prod" "eu" (webDescription name) record where
  configuration := .inl ⟨_, some "Throttling", rfl, rfl⟩
  balancers name hname := by
    have hkey : Key.loadBalancer (some "front") (some "prod") (some "eu") none = .ok "aws:loadBalancer:prod:eu:front" :=
      ok_of_toOption (by decide +kernel)
    have hcases : name = "front" ∨ name = "gone" := by
      simpa [webDescription, GroupDescription.namedBalancers] using hname
    cases found with
    | false => exact .inl ⟨_, some "LoadBalancerNotFound", rfl, rfl⟩
    | true =>
      rcases hcases with rfl | rfl
      · exact .inr ⟨_, rfl, .inr ⟨by simp [IsNamed, Atom.isText], "front", none, _, rfl, rfl, rfl, hkey⟩⟩
      · exact .inl ⟨_, some "LoadBalancerNotFound", rfl, rfl⟩
  details := .inr ⟨[], rfl, fun _ hnone => nomatch hnone⟩

def webGroup (found : Bool) (name : String) : ClusterAgent.Described "prod" "eu" where
  provider := webProvider found
  value := .object (webMembers name)
  description := webDescription name
  lists := ⟨⟨webMembers name, rfl, webDescription_describes name⟩, fun record _ => webProvider_answers found name record⟩

def webListing : Listing (ClusterAgent.Described "prod" "eu") :=
  .ofList [webGroup true "web-v001", webGroup false "web-v002"]

def staleWrites : List Operation :=
  [.upsert "serverGroup" [⟨"serverGroup", "aws:serverGroup:prod:eu:web-v001", [("name", "stale")], ∅⟩] "other"
    .authoritative]

def linkingResult : AgentResult :=
  .groups (.ofInstances (webProvider true) "prod" "eu" (by decide +kernel))

def servedGroup (report : Report) (name : String) : Except Fault (Option Views.ServerGroup) :=
  (Views.findServerGroup ([linkingResult].foldl AgentResult.put
    ((CacheStore.putReport (clusterSource "prod" "eu") ClusterAgent.types report : Change Memory _)
      (Memory.after staleWrites)).2) (.str "prod") (.str "eu") (.str name)).result

/-- Two groups replace what another source knew of one of them, and a link of the instance agent does not change that.
Their load balancer is found for the first of them alone. Without the second one it is a run at a single provider. -/
theorem described_groups_served_web :
    (∃ report, (ClusterAgent.loadEach (webListing.convert ClusterAgent.Described.entry) "prod" "eu" 1).result =
        .ok report ∧
      ∃ first second, servedGroup report "web-v001" = .ok (some first) ∧
        servedGroup report "web-v002" = .ok (some second) ∧ first.disabled = true ∧ first.loadBalancers = ["front"] ∧
          second.loadBalancers = []) ∧
      ∃ report, (ClusterAgent.load (webProvider true) "prod" "eu" 1).result = .ok report ∧
        ∃ group, servedGroup report "web-v001" = .ok (some group) ∧ group.loadBalancers = ["front"] := by
  have hlater : ∀ result ∈ [linkingResult], ¬ result.Recaches "prod" "eu" := by
    intro result hresult
    obtain rfl := List.mem_singleton.1 hresult
    exact not_false
  have hnamed : ClusterAgent.IsGroupName (webGroup true "web-v001").description.name := ⟨by decide, by decide⟩
  have hnames : ∀ listed ∈ webListing.items, ClusterAgent.IsGroupName listed.description.name := by
    simp only [webListing, Listing.ofList, List.forall_mem_cons]
    exact ⟨hnamed, ⟨by decide, by decide⟩, fun _ hnone => absurd hnone List.not_mem_nil⟩
  have hlists : ClusterAgent.ListsDescribed (webProvider true) (.ofList [webGroup true "web-v001"]) :=
    ⟨rfl, List.forall_mem_singleton.2 rfl⟩
  constructor
  · obtain ⟨report, loaded, -, hserved⟩ := described_groups_served (by decide) (by decide) Int.one_pos webListing rfl
      hnames (by decide)
    obtain ⟨first, hfirst, hshown⟩ := hserved staleWrites [linkingResult] hlater _ List.mem_cons_self
    obtain ⟨second, hsecond, hlost⟩ :=
      hserved staleWrites [linkingResult] hlater _ (List.mem_cons_of_mem _ List.mem_cons_self)
    refine ⟨report, loaded, first, second, hfirst, hsecond, hshown.disabled.2 (.inr (.inr List.mem_cons_self)), ?_, ?_⟩
    · rw [hshown.balancers]
      rfl
    · rw [hlost.balancers]
      rfl
  · obtain ⟨report, -, hloaded, hserved⟩ := described_groups_served (by decide) (by decide) Int.one_pos
      (.ofList [webGroup true "web-v001"]) rfl (List.forall_mem_singleton.2 hnamed) (by decide)
    obtain ⟨group, hgroup, hshown⟩ := hserved staleWrites [linkingResult] hlater _ List.mem_cons_self
    refine ⟨report, hloaded _ hlists, group, hgroup, ?_⟩
    rw [hshown.balancers]
    rfl

end FleetCache
