import FleetCache.Proofs.ListedGroups
import FleetCache.Proofs.SchemaChecks
import FleetCache.Views.Clusters

set_option autoImplicit false

namespace FleetCache

open FleetCache.ClusterAgent

namespace GroupDescription

/-- A member with an id and the instance that shows it: under that id, and up when the member is healthy in a group
that is in service. -/
def ShowsMember (d : GroupDescription) (m : MemberDescription) (i : Views.Instance) : Prop :=
  m.id = some i.name ∧ (i.health = .up ↔ m.health = some "Healthy" ∧ ¬ d.Disabled)

def identified (d : GroupDescription) : List MemberDescription :=
  d.members.filter (fun m => (Views.present m.id).isSome)

structure ShownAs (d : GroupDescription) (provider : Provider) (account region : String) (group : Views.ServerGroup) :
    Prop where
  name : group.name = .str d.name
  account : group.account = some account
  region : group.region = some region
  instances : List.Forall₂ d.ShowsMember d.identified group.instances
  desired : group.capacity.desired = d.identified.length
  disabled : group.disabled = true ↔ d.Disabled
  balancers : group.loadBalancers = provider.balancerNames d

end GroupDescription

namespace Schema

open FleetCache.Checked

theorem passes_objects {records : List Attributes} (h : ∀ record ∈ records, IsNamed record) :
    (asList asObject (.list (records.map .object))).Passes records := by
  have hitems : List.Forall₂ (fun v record => (asObject v).Passes record) (records.map Value.object) records := by
    induction records with
    | nil => exact .nil
    | cons record rest ih =>
      obtain ⟨hrecord, hrest⟩ := List.forall_mem_cons.1 h
      exact .cons (passes_asObject hrecord) (ih hrest)
  exact passes_each hitems 0

def ReadsMember (m : MemberDescription) (member : Member) : Prop :=
  member.instanceId = m.id ∧ member.healthStatus = m.health

theorem passes_members (described : List MemberDescription) (zone : MemberDescription → Option String) :
    ∃ members, (asList (asRecord Member.check)
      (.list (described.map (fun m => .object (Records.memberRecord { m with zone := zone m }))))).Passes members ∧
      List.Forall₂ ReadsMember described members := by
  have hitems : ∃ members, List.Forall₂ (fun v member => (asRecord Member.check v).Passes member)
      (described.map (fun m => Value.object (Records.memberRecord { m with zone := zone m }))) members ∧
      List.Forall₂ ReadsMember described members := by
    induction described with
    | nil => exact ⟨[], .nil, .nil⟩
    | cons m rest ih =>
      obtain ⟨others, hmember⟩ := passes_memberRecord { m with zone := zone m }
      obtain ⟨members, hrest, hread⟩ := ih
      exact ⟨_ :: members, .cons hmember hrest, .cons ⟨rfl, rfl⟩ hread⟩
  obtain ⟨members, hpasses, hread⟩ := hitems
  exact ⟨members, passes_each hpasses 0, hread⟩

theorem named_configuration {configuration : Option Attributes} (h : IsConfiguration configuration) :
    IsNamed (configuration.getD []) := by
  cases configuration with
  | none => exact fun _ hnone => nomatch hnone
  | some record => exact (h record rfl).1

theorem named_of_isBalancer {account region : String} {record : Attributes} (h : IsBalancer account region record) :
    IsNamed record := by
  obtain rfl | ⟨hnamed, -⟩ := h
  · exact fun _ hnone => nomatch hnone
  · exact hnamed

variable {provider : Provider}

theorem passes_groupAttributes (account region : String) {d : GroupDescription} {record : Attributes}
    {data : GroupData} {keys : GroupKeys} (hrecord : Records.IsRecord record d)
    (hfetched : Fetched provider account region d record data)
    (hconfig : keys.configName = configName data.configuration) :
    ∃ group, (ServerGroup.check (groupAttributes account region data keys)).Passes group ∧
      group.name = some keys.names.group ∧ group.account = some account ∧ group.region = some region ∧
      (group.scalingGroup.lifecycleState ≠ some Views.activeState ↔ d.Disabled) ∧
      List.Forall₂ ReadsMember d.members group.instances ∧ group.loadBalancers = data.balancers := by
  obtain ⟨scalingGroup, hscaling, hstate⟩ := passes_groupRecord hrecord
  obtain ⟨zone, hmembers⟩ := hfetched.members
  obtain ⟨members, hchecked, hread⟩ := passes_members d.members zone
  obtain ⟨config, hname⟩ := text_configName hfetched.configuration
  rw [← hconfig] at hname
  have hnamed : ∀ member ∈ groupAttributes account region data keys, member.1.isText = true := by
    simp only [groupAttributes, List.forall_mem_cons, Atom.isText, List.not_mem_nil, false_implies, implies_true,
      and_self]
  obtain ⟨others, hothers⟩ := passes_extras hnamed ServerGroup.fieldNames
  have hgroupName : (text (groupAttributes account region data keys) "name").Passes (some keys.names.group) :=
    passes_text rfl
  have happlication : (text (groupAttributes account region data keys) "application").Passes (some keys.names.app) :=
    passes_text rfl
  have haccount : (text (groupAttributes account region data keys) "account").Passes (some account) := passes_text rfl
  have hregion : (text (groupAttributes account region data keys) "region").Passes (some region) := passes_text rfl
  have hlaunch : (text (groupAttributes account region data keys) "launchConfigName").Passes config := passes_text hname
  have hgroup : (Schema.optional (groupAttributes account region data keys) "scalingGroup" ScalingGroup.empty
      (fun v => asRecord ScalingGroup.check (nullAs (.object []) v))).Passes scalingGroup := by
    refine passes_optional (v := .object data.group) rfl (by simp) ?_
    rw [hfetched.group]
    exact hscaling
  have hconfiguration : (Schema.optional (groupAttributes account region data keys) "scalingConfiguration" []
      (fun v => asObject (nullAs (.object []) v))).Passes (data.configuration.getD []) :=
    passes_optional (v := .object (data.configuration.getD [])) rfl (by simp)
      (passes_asObject (named_configuration hfetched.configuration))
  have hinstances : (Schema.optional (groupAttributes account region data keys) "instances" []
      (fun v => asList (asRecord Member.check) (nullAs (.list []) v))).Passes members := by
    refine passes_optional (v := .list (data.members.map .object)) rfl (by simp) ?_
    rw [hmembers, List.map_map]
    exact hchecked
  have hbalancers : (Schema.optional (groupAttributes account region data keys) "loadBalancers" []
      (fun v => asList asObject (nullAs (.list []) v))).Passes data.balancers :=
    passes_optional (v := .list (data.balancers.map .object)) rfl (by simp)
      (passes_objects (fun record hrecord => named_of_isBalancer (hfetched.buildable record hrecord)))
  have hplace := (((hgroupName.map ServerGroup.mk).seq happlication).seq haccount).seq hregion
  have hparts := ((hplace.seq hlaunch).seq hgroup).seq hconfiguration
  exact ⟨_, ((hparts.seq hinstances).seq hbalancers).seq hothers, rfl, rfl, rfl, hstate, hread, rfl⟩

end Schema

theorem Key.name_ne_empty_of_loadBalancer {name key account region : String} {vpc : Option String}
    (h : Key.loadBalancer (some name) (some account) (some region) vpc = .ok key) : name ≠ "" := by
  rintro rfl
  have hfields : Key.encode .loadBalancers ([.str account, .str region, .str "", .ofOption vpc].map Value.field?) =
      .ok key := by
    cases vpc <;> exact h
  have hkept : Value.str "" ∈ Key.kept Namespace.loadBalancers.required
      [.str account, .str region, .str "", .ofOption vpc] := by
    cases vpc with
    | none => exact List.mem_cons_of_mem _ (List.mem_cons_of_mem _ List.mem_cons_self)
    | some vpc => exact List.mem_cons_of_mem _ (List.mem_cons_of_mem _ List.mem_cons_self)
  exact ((Key.fits_of_encode hfields).present _ hkept).2 rfl

namespace Views

theorem createdTime_ok (v : Value) : ∃ created, (createdTime v).result = .ok created := by
  unfold createdTime
  split
  · exact ⟨none, rfl⟩
  · split
    · exact ⟨_, rfl⟩
    · exact ⟨none, rfl⟩

theorem healthState_eq_up_iff (status lifecycle : Option String) :
    healthState status lifecycle = .up ↔ status = some "Healthy" ∧ lifecycle = some activeState := by
  unfold healthState healthyStatus
  split
  · rename_i h
    exact iff_of_true rfl h.symm
  · rename_i h
    exact iff_of_false (by simp) (fun hboth => h hboth.symm)

variable {d : GroupDescription} {provider : Provider} {account region : String}

theorem groupInstances_show {group : Schema.ServerGroup}
    (hstate : group.scalingGroup.lifecycleState ≠ some activeState ↔ d.Disabled)
    (hread : List.Forall₂ Schema.ReadsMember d.members group.instances) :
    List.Forall₂ d.ShowsMember d.identified (groupInstances group) := by
  unfold groupInstances GroupDescription.identified
  -- member by member, where one without an id is left out on both sides
  generalize d.members = described at hread ⊢
  generalize group.instances = members at hread ⊢
  induction hread with
  | nil => exact .nil
  | @cons m member rest others hhead _ ih =>
    obtain ⟨hid, hhealth⟩ := hhead
    rw [List.filter_cons, List.filterMap_cons, hid]
    cases hpresent : present m.id with
    | none => exact ih
    | some id =>
      have hsame : m.id = some id := (Option.filter_eq_some_iff.1 hpresent).1
      refine .cons ⟨hsame, ?_⟩ ih
      rw [healthState_eq_up_iff, hhealth, ← hstate, ne_eq, not_not]

theorem balancerNames_show {record : Attributes} {data : GroupData}
    (hfetched : Fetched provider account region d record data) :
    data.balancers.filterMap balancerName = provider.balancerNames d := by
  have hname (found : Attributes) (hfound : found ∈ data.balancers) (hpresent : found.isEmpty = false) :
      balancerName found = some (found.get "loadBalancerName") := by
    rcases hfetched.buildable found hfound with rfl | ⟨-, name, vpc, key, -, hname, -, hkey⟩
    · cases hpresent
    · have htruthy : (Value.ofOption (some name)).truthy = true :=
        (truthy_ofOption _).2 ⟨name, rfl, Key.name_ne_empty_of_loadBalancer hkey⟩
      unfold balancerName
      rw [hname, Value.orElse, if_pos htruthy, if_pos htruthy]
  rw [hfetched.balancers] at hname ⊢
  unfold Provider.balancerNames
  rw [List.filterMap_filter]
  refine List.filterMap_congr (fun found hfound => ?_)
  cases hempty : found.isEmpty with
  | true => rfl
  | false => exact hname found (List.mem_filter.2 ⟨hfound, by rw [hempty]; rfl⟩) hempty

theorem usableServerGroup_ok {record : Attributes} {data : GroupData} {keys : GroupKeys}
    (hrecord : Records.IsRecord record d) (hfetched : Fetched provider account region d record data)
    (hconfig : keys.configName = configName data.configuration) (hname : keys.names.group = d.name)
    (hnames : d.name ≠ "" ∧ account ≠ "" ∧ region ≠ "") {entity : Entity}
    (hentity : entity.attributes = groupAttributes account region data keys) :
    ∃ group, (usableServerGroup entity).result = .ok (some group) ∧ d.ShownAs provider account region group := by
  obtain ⟨checked, hpasses, hgroup, haccount, hregion, hstate, hread, hbalancers⟩ :=
    Schema.passes_groupAttributes account region hrecord hfetched hconfig
  rw [← hentity] at hpasses
  obtain ⟨created, hcreated⟩ := createdTime_ok checked.scalingGroup.creationTime
  have hpresent {text : String} (h : text ≠ "") : present (some text) = some text := by
    simp [present, h]
  have hinstances := groupInstances_show hstate hread
  have hshown : ∃ group, (serverGroup entity).result = .ok group ∧ d.ShownAs provider account region group := by
    unfold serverGroup
    refine Traced.exists_bind_ok hpasses.run (Traced.exists_bind_ok hcreated ⟨_, rfl, ?_⟩)
    refine ⟨?_, ?_, ?_, hinstances, hinstances.length_eq.symm, ?_, ?_⟩
    · rw [hgroup, hname, nameOr, if_pos ((truthy_ofOption _).2 ⟨d.name, rfl, hnames.1⟩)]
      rfl
    · rw [haccount, hpresent hnames.2.1, Option.some_or]
    · rw [hregion, hpresent hnames.2.2, Option.some_or]
    · rw [← hstate, bne_iff_ne]
    · rw [hbalancers, balancerNames_show hfetched]
  obtain ⟨group, hgroup, hshows⟩ := hshown
  refine ⟨group, ?_, hshows⟩
  have hsome : (some <$> serverGroup entity).result = .ok (some group) := Traced.result_bind hgroup _
  exact Traced.result_rescue hsome _

end Views

end FleetCache
