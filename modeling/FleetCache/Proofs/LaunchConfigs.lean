import FleetCache.Proofs.ListingOrders
/-!
Launch configs that scaling groups share. The key of a launch config has the name of a launch configuration or of a
launch template in it, and no version, so all groups with such a name write to the same entity. It ends up with the
configuration of the last of them, or with parts of several where both kinds go by the name.
-/
set_option autoImplicit false

namespace FleetCache

open FleetCache.Json (DistinctNames)
open FleetCache.Partition (withId)

namespace Records

def launchConfigurationNames : List Atom :=
  ["scalingConfigurationId", "scalingConfigurationName", "imageId", "instanceType", "keyName", "securityGroups",
    "creationTime"]

def templateVersionNames : List Atom :=
  ["scalingConfigurationId", "scalingConfigurationName", "version", "imageId", "instanceType", "keyName",
    "securityGroups"]

def IsConfiguration (record : Attributes) : Prop :=
  record.names = launchConfigurationNames ∨ record.names = templateVersionNames

theorem names_build {parts : List (Atom × Except Fault Value)} {record : Attributes} (h : build parts = .ok record) :
    record.names = parts.map Prod.fst := by
  have hparts := Except.forall₂_of_mapM h
  clear h
  induction hparts with
  | nil => rfl
  | cons hhead _ ih =>
    obtain ⟨_, -, rfl⟩ := exists_of_map hhead
    exact congrArg _ ih

theorem isConfiguration_launchConfiguration {name v : Value} {record : Attributes}
    (h : launchConfiguration name v = .ok record) : IsConfiguration record :=
  .inl (names_build h)

theorem isConfiguration_templateVersion {id template v : Value} {record : Attributes}
    (h : templateVersion id template v = .ok record) : IsConfiguration record := by
  unfold templateVersion at h
  obtain ⟨_, -, h⟩ := exists_of_bind h
  obtain ⟨_, -, h⟩ := exists_of_bind h
  exact .inr (names_build h)

namespace IsConfiguration

variable {record other : Attributes}

theorem distinctNames (h : IsConfiguration record) : DistinctNames record := by
  have hnames : record.names.Pairwise (fun a b => (a == b) = false) := by
    rcases h with h | h <;> rw [h] <;> decide
  exact List.pairwise_map.1 hnames

theorem names_eq (h : IsConfiguration record) (hother : other = [] ∨ IsConfiguration other)
    (hincluded : ∀ name, record.has name = true → other.has name = true) : record.names = other.names := by
  have hversion := hincluded "version"
  have hcreation := hincluded "creationTime"
  have hid := hincluded "scalingConfigurationId"
  simp only [Attributes.has_eq_any] at hversion hcreation hid
  -- each kind has a name that the other one lacks, and nothing at all lacks the id
  rcases hother with rfl | hother | hother <;> rcases h with h | h <;> rw [h] at hversion hcreation hid ⊢
  · exact absurd (hid (by decide)) (by decide)
  · exact absurd (hid (by decide)) (by decide)
  · exact hother.symm
  · rw [hother] at hversion
    exact absurd (hversion (by decide)) (by decide)
  · rw [hother] at hcreation
    exact absurd (hcreation (by decide)) (by decide)
  · exact hother.symm

end IsConfiguration

end Records

theorem Fetcher.isConfiguration_of_scalingConfiguration {f : Fetcher} {group : Attributes} {record : Attributes}
    (h : (f.scalingConfiguration group).result = .ok (some record)) : Records.IsConfiguration record := by
  unfold scalingConfiguration at h
  dsimp only at h
  split at h
  · obtain ⟨_, -, h⟩ := Traced.exists_of_bind h
    obtain ⟨config, hconfig, h⟩ := Traced.exists_of_bind h
    obtain rfl := Option.some.inj (Except.ok.inj h)
    exact Records.isConfiguration_launchConfiguration hconfig
  · split at h
    · cases h
    · obtain ⟨_, -, h⟩ := Traced.exists_of_bind h
      split at h
      · cases h
      · obtain ⟨_, -, h⟩ := Traced.exists_of_bind h
        obtain ⟨_, -, h⟩ := Traced.exists_of_bind h
        obtain ⟨config, hconfig, h⟩ := Traced.exists_of_bind h
        obtain rfl := Option.some.inj (Except.ok.inj h)
        exact Records.isConfiguration_templateVersion hconfig

namespace ClusterAgent

variable {account region : String}

theorem found_of_orLogged {α : Type} {agent : String} {x : Traced α} {other found : α}
    (h : (orLogged agent x other).result = .ok found) : x.result = .ok found ∨ found = other := by
  rcases Traced.ok_of_rescue h with hfound | ⟨fault, hfault⟩
  · exact .inl hfound
  · right
    split at hfault
    · obtain ⟨_, -, h⟩ := Traced.exists_of_bind hfault
      exact (Except.ok.inj h).symm
    · cases hfault

theorem isConfiguration_of_outcome {f : Fetcher} {group : Value} {item : GroupData × GroupKeys}
    (h : outcome f.provider account region group = .ok (some item)) {record : Attributes}
    (hrecord : item.1.configuration = some record) : Records.IsConfiguration record := by
  obtain ⟨members, -, hdata, -⟩ := of_prepare (prepare_of_outcome h)
  obtain ⟨-, found, hfound, hconfiguration⟩ := of_fetchGroup hdata
  rw [hrecord] at hconfiguration
  obtain ⟨rfl, -⟩ := Option.filter_eq_some_iff.1 hconfiguration.symm
  rcases found_of_orLogged hfound with hanswer | hnone
  · exact Fetcher.isConfiguration_of_scalingConfiguration hanswer
  · cases hnone

theorem isConfiguration_of_outcomes {f : Fetcher} {groups : List Value} {found : List (Option (GroupData × GroupKeys))}
    (h : groups.mapM (outcome f.provider account region) = .ok found) :
    ∀ item ∈ found.reduceOption, ∀ record, item.1.configuration = some record → Records.IsConfiguration record := by
  intro item hitem record hrecord
  obtain ⟨group, -, houtcome⟩ := Except.exists_of_mapM h (List.reduceOption_mem_iff.1 hitem)
  exact isConfiguration_of_outcome houtcome hrecord

theorem Derived.exists_configuration {data : GroupData} {keys : GroupKeys} (h : Derived account region data keys)
    {key : String} (hkey : keys.launchConfig = some key) : ∃ record, data.configuration = some record := by
  cases hconfiguration : data.configuration with
  | some record => exact ⟨record, rfl⟩
  | none =>
    have hname := h.configName
    rw [hconfiguration] at hname
    rcases h.launchConfig with ⟨-, hnone⟩ | ⟨_, hencoded, -⟩
    · rw [hkey] at hnone
      cases hnone
    · rw [hname] at hencoded
      have hfits : Key.Fits .launchConfigs (Key.kept 3 [.str account, .str region, .null]) :=
        Key.fits_of_encode hencoded
      exact absurd rfl (hfits.present .null (List.mem_of_getElem? (i := 2) rfl)).1

/-- The scaling configurations of the groups with the key of a launch config, in the order of the listing. -/
def configurationsOf (key : String) (items : List (GroupData × GroupKeys)) : List Attributes :=
  (items.filter (fun item => item.2.launchConfig = some key)).map (fun item => item.1.configuration.getD [])

theorem filter_contributionsOf_launchConfigs (account region : String) (item : GroupData × GroupKeys) (key : String) :
    ((contributionsOf account region item).filter (Contribution.isAbout Namespace.launchConfigs.name key)).map
        Contribution.attributes =
      if item.2.launchConfig = some key then [item.1.configuration.getD []] else [] := by
  have hother (contributions : List Contribution)
      (h : ∀ c ∈ contributions, (c.ns == Namespace.launchConfigs.name) = false) :
      contributions.filter (Contribution.isAbout Namespace.launchConfigs.name key) = [] := by
    refine List.filter_eq_nil_iff.2 (fun c hc => ?_)
    rw [Contribution.isAbout, h c hc]
    exact Bool.false_ne_true
  have hmain : ∀ c ∈ mainContributions account region item.1 item.2,
      (c.ns == Namespace.launchConfigs.name) = false := by
    simp only [mainContributions, List.mem_cons, List.not_mem_nil, or_false]
    rintro c (rfl | rfl | rfl) <;> rfl
  have hinstances : ∀ c ∈ instanceContributions item.1 item.2, (c.ns == Namespace.launchConfigs.name) = false := by
    intro c hc
    obtain ⟨_, -, rfl⟩ := List.mem_map.1 hc
    rfl
  have hbalancers : ∀ c ∈ balancerContributions item.1 item.2, (c.ns == Namespace.launchConfigs.name) = false := by
    intro c hc
    obtain ⟨_, -, hc⟩ := List.mem_filterMap.1 hc
    obtain ⟨_, -, rfl⟩ := Option.map_eq_some_iff.1 hc
    rfl
  rw [contributionsOf, List.filter_append, List.filter_append, List.filter_append, hother _ hmain, hother _ hinstances,
    hother _ hbalancers, List.nil_append, List.append_nil, List.append_nil, configContributions]
  cases item.2.launchConfig with
  | none => rfl
  | some found =>
    by_cases hfound : found = key <;> simp [Contribution.isAbout, hfound, Atom.str_beq_str]

theorem flatMap_configuration (items : List (GroupData × GroupKeys)) (key : String) :
    items.flatMap (fun item => if item.2.launchConfig = some key then [item.1.configuration.getD []] else []) =
      configurationsOf key items := by
  rw [configurationsOf]
  induction items with
  | nil => rfl
  | cons item rest ih => by_cases hitem : item.2.launchConfig = some key <;> simp [hitem, ih]

theorem attributes_launchConfig {items : List (GroupData × GroupKeys)} {key : String} {config : Entity}
    (h : withId key ((reportOf account region items).entities Namespace.launchConfigs.name) = [config]) :
    config.attributes = (configurationsOf key items).foldl Attributes.update [] := by
  rw [reportOf_eq, Report.withId_ofContributions] at h
  have hconfig := Option.mem_toList.1 (h ▸ List.mem_singleton_self config)
  rw [Contribution.attributes_entityOf hconfig, List.filter_flatMap, List.map_flatMap]
  simp only [filter_contributionsOf_launchConfigs]
  rw [flatMap_configuration]

theorem exists_attributes_serverGroup {items : List (GroupData × GroupKeys)} {group : Entity}
    (h : group ∈ (reportOf account region items).entities Namespace.serverGroups.name) :
    ∃ item ∈ items, group.attributes = groupAttributes account region item.1 item.2 := by
  rw [reportOf_eq] at h
  have hgroup := Report.entityOf_of_mem h BEq.rfl
  have hrecords : ∀ record ∈ ((items.flatMap (contributionsOf account region)).filter
      (Contribution.isAbout Namespace.serverGroups.name group.id)).map Contribution.attributes,
        ∃ item ∈ items, record = groupAttributes account region item.1 item.2 := by
    intro record hrecord
    obtain ⟨c, hc, rfl⟩ := List.mem_map.1 hrecord
    obtain ⟨hmem, habout⟩ := List.mem_filter.1 hc
    obtain ⟨item, hitem, hmem⟩ := List.mem_flatMap.1 hmem
    rw [Contribution.isAbout, Bool.and_eq_true] at habout
    have howns : Namespace.serverGroups ∈ mainNamespaces := by decide
    exact ⟨item, hitem, (attributes_of_mem_contributionsOf hmem howns habout.1).1⟩
  have hnames (item : GroupData × GroupKeys) : Attributes.names (groupAttributes account region item.1 item.2) =
      ["name", "application", "cluster", "stack", "detail", "account", "region", "provider", "scalingGroup",
        "scalingConfiguration", "launchConfigName", "instances", "loadBalancers"] := rfl
  obtain ⟨c, hc, habout⟩ := (Contribution.entityOf_isSome _ _ _).1 (Option.isSome_of_mem hgroup)
  have hmem := List.mem_map_of_mem (f := Contribution.attributes) (List.mem_filter.2 ⟨hc, habout⟩)
  rw [Contribution.attributes_entityOf hgroup]
  generalize ((items.flatMap (contributionsOf account region)).filter
    (Contribution.isAbout Namespace.serverGroups.name group.id)).map Contribution.attributes = records at *
  obtain ⟨item, hitem, hlast⟩ := hrecords _ (List.getLast_mem (List.ne_nil_of_mem hmem))
  refine ⟨item, hitem, ?_⟩
  rw [← List.dropLast_concat_getLast (List.ne_nil_of_mem hmem), hlast]
  refine Attributes.foldl_update_concat (distinctNames_mainAttributes account region item .serverGroups) ?_
  intro record hrecord
  obtain ⟨other, -, rfl⟩ := hrecords record (List.dropLast_subset _ hrecord)
  rw [hnames, hnames]

theorem exists_launchConfig_of_related {items : List (GroupData × GroupKeys)}
    (hderived : AllDerived account region items) {group : Entity}
    (hgroup : group ∈ (reportOf account region items).entities Namespace.serverGroups.name) {id : Atom}
    (hid : id ∈ group.related Namespace.launchConfigs.name) :
    ∃ (key : String) (config : Entity), id = .str key ∧ configurationsOf key items ≠ [] ∧
      withId id ((reportOf account region items).entities Namespace.launchConfigs.name) = [config] := by
  have hlinked : (reportOf account region items).Linked Namespace.serverGroups.name group.id
      Namespace.launchConfigs.name id := ⟨group, hgroup, BEq.rfl, hid⟩
  rw [reportOf_eq, Report.linked_joined_iff (draws_of_derived hderived) (by decide)] at hlinked
  obtain ⟨item, hitem, -, key, hkey, rfl⟩ := hlinked
  have hhas : (reportOf account region items).Has Namespace.launchConfigs.name key := by
    rw [reportOf_eq]
    exact (Report.has_iff (draws_of_derived hderived) _ _).2 ⟨item, hitem, .launchConfigs, rfl, key, hkey, rfl⟩
  rw [reportOf_eq] at hhas ⊢
  obtain ⟨config, hconfig⟩ := Report.exists_withId_of_has hhas
  refine ⟨key, config, rfl, List.ne_nil_of_mem (List.mem_map_of_mem (List.mem_filter.2 ⟨hitem, ?_⟩)), hconfig⟩
  exact decide_eq_true (Option.mem_toList.1 hkey)

theorem isConfiguration_of_mem_configurationsOf {items : List (GroupData × GroupKeys)}
    (hderived : AllDerived account region items)
    (hfetched : ∀ item ∈ items, ∀ record, item.1.configuration = some record → Records.IsConfiguration record)
    (key : String) : ∀ record ∈ configurationsOf key items, Records.IsConfiguration record := by
  intro record hrecord
  obtain ⟨item, hitem, rfl⟩ := List.mem_map.1 hrecord
  obtain ⟨hitem, hsame⟩ := List.mem_filter.1 hitem
  obtain ⟨record, hrecord⟩ :=
    (derived_of_deriveKeys (hderived item hitem)).exists_configuration (of_decide_eq_true hsame)
  rw [hrecord]
  exact hfetched item hitem record hrecord

/-- A server group agrees with a launch config that it leads to just if the last group with the key of that has the same
configuration and all groups with the key have configurations of the same kind. -/
theorem group_agrees_iff_last_alike {f : Fetcher} {workers : Int} {report : Report}
    (h : (load f.provider account region workers).result = .ok report) :
    ∃ groups found, f.provider.scalingGroups.collect.result = .ok groups ∧
      List.Forall₂ (fun group result => outcome f.provider account region group = .ok result) groups found ∧
      ∀ group ∈ report.entities Namespace.serverGroups.name, ∀ id ∈ group.related Namespace.launchConfigs.name,
        ∃ (key : String) (own : Attributes) (config : Entity), id = .str key ∧
          group.attributes.get "scalingConfiguration" = .object own ∧
          withId id (report.entities Namespace.launchConfigs.name) = [config] ∧
          ((Value.object config.attributes == .object own) = true ↔
            (∃ last ∈ (configurationsOf key found.reduceOption).getLast?,
              (Value.object last == .object own) = true) ∧
            ∀ other ∈ configurationsOf key found.reduceOption, other.names = own.names) := by
  obtain ⟨groups, found, hgroups, hfound, rfl⟩ := exists_outcomes_of_load h
  have hderived := allDerived_of_outcomes hfound
  have hfetched := isConfiguration_of_outcomes hfound
  refine ⟨groups, found, hgroups, Except.forall₂_of_mapM hfound, fun group hgroup id hid => ?_⟩
  obtain ⟨key, config, rfl, hconfigurations, hconfig⟩ := exists_launchConfig_of_related hderived hgroup hid
  obtain ⟨shown, hshown, hattributes⟩ := exists_attributes_serverGroup hgroup
  have hown : shown.1.configuration.getD [] = [] ∨ Records.IsConfiguration (shown.1.configuration.getD []) := by
    cases hrecord : shown.1.configuration with
    | none => exact .inl rfl
    | some record => exact .inr (hfetched shown hshown record hrecord)
  have hall := isConfiguration_of_mem_configurationsOf hderived hfetched key
  refine ⟨key, shown.1.configuration.getD [], config, rfl, by rw [hattributes]; rfl, hconfig, ?_⟩
  rw [attributes_launchConfig hconfig]
  exact Attributes.foldl_update_same_iff hconfigurations (fun record hrecord => (hall record hrecord).distinctNames)
    (fun record hrecord => (hall record hrecord).names_eq hown)

def versionsCloud : Cloud :=
  let group (name version : String) : Value :=
    .object [("AutoScalingGroupName", name),
      ("LaunchTemplate", .object [("LaunchTemplateId", "lt-1"), ("LaunchTemplateName", "web"), ("Version", version)])]
  let answer (number : Int) (image : String) : Value :=
    .object [("LaunchTemplateVersions", .list [.object [("LaunchTemplateName", "web"), ("VersionNumber", .int number),
      ("LaunchTemplateData", .object [("ImageId", image)])]])]
  let describe (version : String) (number : Int) (image : String) : Cloud.Reply :=
    ⟨"ec2.describe_launch_template_versions", [("Versions", .strings [version])], .ok (answer number image), []⟩
  .ofReplies
    [⟨"autoscaling.describe_auto_scaling_groups", [], .ok (.object []),
      [.ok (.object [("AutoScalingGroups", .list [group "web-v001" "1", group "web-v002" "2"])])]⟩,
      describe "1" 1 "ami-1", describe "2" 2 "ami-2"] []

def versionsFetcher : Fetcher :=
  ⟨versionsCloud, "prod", "eu", .int defaultPageSize⟩

theorem group_agrees_iff_last_alike_versions :
    ∃ report found, (load versionsFetcher.provider "prod" "eu" 1).result = .ok report ∧
      ∃ group ∈ report.entities Namespace.serverGroups.name, ∃ (key : String) (own : Attributes) (config : Entity),
        .str key ∈ group.related Namespace.launchConfigs.name ∧
          group.attributes.get "scalingConfiguration" = .object own ∧
          withId key (report.entities Namespace.launchConfigs.name) = [config] ∧
          ((Value.object config.attributes == .object own) = true ↔
            (∃ last ∈ (configurationsOf key found).getLast?, (Value.object last == .object own) = true) ∧
            ∀ other ∈ configurationsOf key found, other.names = own.names) := by
  have hlinked : (load versionsFetcher.provider "prod" "eu" 1).result.toOption.map (fun report =>
      (report.entities Namespace.serverGroups.name).any (fun group =>
        (group.related Namespace.launchConfigs.name).contains "aws:launchConfig:prod:eu:web")) = some true := by
    decide +kernel
  obtain ⟨report, hreport, hlinked⟩ := Option.map_eq_some_iff.1 hlinked
  have hloaded := ok_of_toOption hreport
  obtain ⟨group, hgroup, hid⟩ := List.any_eq_true.1 hlinked
  obtain ⟨_, found, -, -, hagrees⟩ := group_agrees_iff_last_alike hloaded
  obtain ⟨key, own, config, hkey, hown, hconfig, hiff⟩ := hagrees group hgroup _ hid
  obtain rfl := Atom.str.inj hkey
  exact ⟨report, found.reduceOption, hloaded, group, hgroup, _, own, config, hid, hown, hconfig, hiff⟩

/-- Versions of a launch template go by one key, and not every group agrees with what is under it. -/
theorem versions_share_launch_config : ¬ ∀ (f : Fetcher) (account region : String) (workers : Int) (report : Report),
    (load f.provider account region workers).result = .ok report →
      ∀ group ∈ report.entities Namespace.serverGroups.name, ∀ config ∈ report.entities Namespace.launchConfigs.name,
        config.id ∈ group.related Namespace.launchConfigs.name →
          (group.attributes.get "scalingConfiguration" == .object config.attributes) = true := by
  intro hagrees
  have hdiffers : (load versionsFetcher.provider "prod" "eu" 1).result.toOption.map (fun report =>
      (report.entities Namespace.serverGroups.name).all (fun group =>
        (report.entities Namespace.launchConfigs.name).all (fun config =>
          !(group.related Namespace.launchConfigs.name).contains config.id ||
            (group.attributes.get "scalingConfiguration" == .object config.attributes)))) = some false := by
    decide +kernel
  obtain ⟨report, hreport, hdiffers⟩ := Option.map_eq_some_iff.1 hdiffers
  have hall := hagrees versionsFetcher "prod" "eu" 1 report (ok_of_toOption hreport)
  refine Bool.false_ne_true (hdiffers.symm.trans ?_)
  simp only [List.all_eq_true, Bool.or_eq_true, Bool.not_eq_true']
  intro group hgroup config hconfig
  cases hid : (group.related Namespace.launchConfigs.name).contains config.id with
  | false => exact .inl rfl
  | true => exact .inr (hall group hgroup config hconfig hid)

end ClusterAgent

end FleetCache
