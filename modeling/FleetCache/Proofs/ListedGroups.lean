import FleetCache.Proofs.FetchedGroups

set_option autoImplicit false

namespace FleetCache

open FleetCache.Partition (withId)

namespace Listing

variable {α β γ : Type}

theorem takeGood_forall₂ {f : α → Except Fault β} {items : List α} {results : List β}
    (h : List.Forall₂ (fun a b => f a = .ok b) items results) :
    takeGood (fun a => (f a).map (fun b => [b])) items = (results, none) := by
  induction h with
  | nil => rfl
  | cons hhead _ ih =>
    rw [takeGood, hhead, ih]
    rfl

theorem convert_eq {f : α → Except Fault β} {listing : Listing α} {results : List β}
    (h : List.Forall₂ (fun a b => f a = .ok b) listing.items results) :
    listing.convert f = ⟨listing.opening, results, listing.ending⟩ := by
  unfold convert expand
  rw [takeGood_forall₂ h]

theorem collect_ok {listing : Listing α} (h : listing.ending.result = .ok ()) :
    listing.collect.result = .ok listing.items := by
  unfold collect
  rw [Traced.result_bind rfl, Traced.result_bind h]
  rfl

end Listing

namespace ClusterAgent

variable {provider : Provider} {account region : String}

structure Lists (provider : Provider) (account region : String) (v : Value) (d : GroupDescription) : Prop where
  describes : ∃ members, v = .object members ∧ d.Describes members
  answers : ∀ record, Records.scalingGroup v = .ok record → provider.AnswersAbout account region d record

structure Prepared (provider : Provider) (account region : String) (d : GroupDescription)
    (item : GroupData × GroupKeys) : Prop where
  fetched : ∃ record, Records.IsRecord record d ∧ Fetched provider account region d record item.1
  derived : deriveKeys account region item.1 = .ok item.2
  named : item.2.names.group = d.name

def IsGroupName (name : String) : Prop :=
  name ≠ "" ∧ name.length ≤ 255

theorem prepare_ok (haccount : account ≠ "") (hregion : region ≠ "") {d : GroupDescription} {record : Attributes}
    (hrecord : Records.IsRecord record d) (hname : IsGroupName d.name)
    (hanswers : provider.AnswersAbout account region d record) :
    ∃ item, (prepare provider account region (.object record)).result = .ok item ∧
      Prepared provider account region d item := by
  obtain ⟨data, hdata, hfetched⟩ := fetchGroup_ok hrecord hanswers (agentType account region name)
  obtain ⟨keys, hkeys, hnamed⟩ := deriveKeys_ok haccount hregion hrecord hname.1 hname.2 hfetched
  unfold prepare
  refine Traced.exists_bind_ok (a := record) rfl (Traced.exists_bind_ok hdata (Traced.exists_bind_ok hkeys ?_))
  exact ⟨(data, keys), rfl, ⟨record, hrecord, hfetched⟩, hkeys, hnamed⟩

theorem step_ok {group : Value} {item : GroupData × GroupKeys}
    (h : (prepare provider account region group).result = .ok item) (builder : ReportBuilder) :
    (step provider account region builder group).result = .ok (addGroup account region item.1 item.2 builder) := by
  unfold step
  exact Traced.result_rescue (Traced.result_bind h _) _

def asked (provider : Provider) : Listing (Provider × Value) :=
  { provider.scalingGroups with items := provider.scalingGroups.items.map (Prod.mk provider) }

/-- A run that asks a provider of its own about each listed group, so a lookup that goes well for one group can fail for
the next. -/
def loadEach (listing : Listing (Provider × Value)) (account region : String) (workers : Int) : Traced Report := do
  let groups ← listing.collect
  Traced.info (agentType account region name ++ ": caching " ++ Text.natText groups.length ++ " scaling groups")
  if workers ≤ 0 then Traced.fail .noWorkers
  else
    let builder ← groups.foldlM (fun builder (provider, group) => step provider account region builder group)
      ReportBuilder.empty
    return builder.build types false

theorem collect_asked (provider : Provider) :
    (asked provider).collect = List.map (Prod.mk provider) <$> provider.scalingGroups.collect := by
  simp only [Listing.collect, asked, map_bind, map_pure]

theorem load_eq_loadEach (provider : Provider) (account region : String) (workers : Int) :
    load provider account region workers = loadEach (asked provider) account region workers := by
  unfold load loadEach
  rw [collect_asked, bind_map_left]
  simp only [List.length_map, List.foldlM_map]

theorem foldlM_step_ok {entries : List (Provider × Value)} {items : List (GroupData × GroupKeys)}
    (h : List.Forall₂ (fun entry item => (prepare entry.1 account region entry.2).result = .ok item) entries items)
    (builder : ReportBuilder) :
    (entries.foldlM (fun builder entry => step entry.1 account region builder entry.2) builder).result =
      .ok (items.foldl (fun builder item => addGroup account region item.1 item.2 builder) builder) := by
  induction h generalizing builder with
  | nil => rfl
  | cons hhead _ ih =>
    rw [List.foldlM_cons, Traced.result_bind (step_ok hhead builder)]
    exact ih _

/-- A group that the cloud lists with its description, and the provider that answers the lookups about it. -/
structure Described (account region : String) where
  provider : Provider
  value : Value
  description : GroupDescription
  lists : Lists provider account region value description

def Described.entry (group : Described account region) : Except Fault (Provider × Value) :=
  (Records.scalingGroup group.value).map (fun record => (group.provider, .object record))

theorem Described.exists_record (group : Described account region) :
    ∃ record, Records.scalingGroup group.value = .ok record ∧ Records.IsRecord record group.description ∧
      group.entry = .ok (group.provider, .object record) := by
  obtain ⟨members, hvalue, hdescribes⟩ := group.lists.describes
  obtain ⟨record, hscaling, hrecord⟩ := Records.scalingGroup_ok hdescribes
  rw [← hvalue] at hscaling
  exact ⟨record, hscaling, hrecord, by rw [Described.entry, hscaling]; rfl⟩

abbrev Described.Known (group : Described account region) (item : GroupData × GroupKeys) : Prop :=
  Prepared group.provider account region group.description item

theorem exists_prepared (haccount : account ≠ "") (hregion : region ≠ "") {groups : List (Described account region)}
    (hnames : ∀ group ∈ groups, IsGroupName group.description.name) :
    ∃ entries items, List.Forall₂ (fun group entry => group.entry = .ok entry) groups entries ∧
      List.Forall₂ (fun entry item => (prepare entry.1 account region entry.2).result = .ok item) entries items ∧
      List.Forall₂ Described.Known groups items := by
  induction groups with
  | nil => exact ⟨[], [], .nil, .nil, .nil⟩
  | cons group rest ih =>
    obtain ⟨hname, hnames⟩ := List.forall_mem_cons.1 hnames
    obtain ⟨entries, items, hentries, hprepared, hitems⟩ := ih hnames
    obtain ⟨record, hscaling, hrecord, hentry⟩ := group.exists_record
    obtain ⟨item, hitem, hknown⟩ := prepare_ok haccount hregion hrecord hname (group.lists.answers record hscaling)
    exact ⟨_ :: entries, item :: items, .cons hentry hentries, .cons hitem hprepared, .cons hknown hitems⟩

theorem loadEach_ok (haccount : account ≠ "") (hregion : region ≠ "") {workers : Int} (hworkers : 0 < workers)
    {listing : Listing (Described account region)} (hends : listing.ending.result = .ok ())
    (hnames : ∀ group ∈ listing.items, IsGroupName group.description.name) :
    ∃ items, (loadEach (listing.convert Described.entry) account region workers).result =
        .ok (reportOf account region items) ∧ List.Forall₂ Described.Known listing.items items := by
  obtain ⟨entries, items, hentries, hprepared, hitems⟩ := exists_prepared haccount hregion hnames
  have hcollected : (listing.convert Described.entry).collect.result = .ok entries := by
    rw [Listing.convert_eq hentries]
    exact Listing.collect_ok hends
  have hsteps := foldlM_step_ok hprepared ReportBuilder.empty
  unfold loadEach
  refine ⟨items, ?_, hitems⟩
  rw [Traced.result_bind hcollected, Traced.result_bind rfl, if_neg (by omega), Traced.result_bind hsteps]
  rfl

def ListsGroups (provider : Provider) (listing : Listing Value) : Prop :=
  provider.scalingGroups = (listing.convert Records.scalingGroup).convert (fun group => .ok (.object group))

theorem listsGroups_fetcher (fetcher : Fetcher) : ListsGroups fetcher.provider
    (fetcher.paginate "autoscaling.describe_auto_scaling_groups" "AutoScalingGroups" []) := rfl

theorem exists_records {provider : Provider} {groups : List (Described account region)}
    (hprovider : ∀ group ∈ groups, group.provider = provider) :
    ∃ records, List.Forall₂ (fun v record => Records.scalingGroup v = .ok record) (groups.map Described.value) records ∧
      List.Forall₂ (fun group entry => group.entry = .ok entry) groups
        (records.map (fun record => (provider, Value.object record))) := by
  induction groups with
  | nil => exact ⟨[], .nil, .nil⟩
  | cons group rest ih =>
    obtain ⟨rfl, hrest⟩ := List.forall_mem_cons.1 hprovider
    obtain ⟨records, hrecords, hentries⟩ := ih hrest
    obtain ⟨record, hscaling, -, hentry⟩ := group.exists_record
    exact ⟨record :: records, .cons hscaling hrecords, .cons hentry hentries⟩

/-- A provider lists described groups and answers the lookups about every one of them itself. -/
structure ListsDescribed (provider : Provider) (listing : Listing (Described account region)) : Prop where
  lists : ListsGroups provider { listing with items := listing.items.map Described.value }
  answers : ∀ group ∈ listing.items, group.provider = provider

theorem load_of_described {provider : Provider} {listing : Listing (Described account region)}
    (h : ListsDescribed provider listing) (workers : Int) :
    load provider account region workers = loadEach (listing.convert Described.entry) account region workers := by
  obtain ⟨records, hrecords, hentries⟩ := exists_records h.answers
  have hobjects : List.Forall₂ (fun record v => Except.ok (Value.object record) = (.ok v : Except Fault Value)) records
      (records.map .object) :=
    List.forall₂_map_right_iff.2 (List.forall₂_same.2 (fun _ _ => rfl))
  have hraw : ({ listing with items := listing.items.map Described.value } : Listing Value).convert
      Records.scalingGroup = ⟨listing.opening, records, listing.ending⟩ := Listing.convert_eq hrecords
  have hgroups : (⟨listing.opening, records, listing.ending⟩ : Listing Attributes).convert
      (fun group => .ok (Value.object group)) = ⟨listing.opening, records.map Value.object, listing.ending⟩ :=
    Listing.convert_eq hobjects
  have hasked : asked provider = listing.convert Described.entry := by
    rw [asked, h.lists, hraw, hgroups, Listing.convert_eq hentries, List.map_map]
    rfl
  rw [load_eq_loadEach, hasked]

theorem allDerived_of_known {groups : List (Described account region)} {items : List (GroupData × GroupKeys)}
    (h : List.Forall₂ Described.Known groups items) : AllDerived account region items := by
  intro item hitem
  obtain ⟨_, -, hprepared⟩ := exists_mem_of_forall₂ h.flip hitem
  exact hprepared.derived

theorem names_of_known {groups : List (Described account region)} {items : List (GroupData × GroupKeys)}
    (h : List.Forall₂ Described.Known groups items) :
    items.map (fun item => item.2.names.group) = groups.map (fun group => group.description.name) := by
  rw [← List.forall₂_eq_eq_eq, List.forall₂_map_left_iff, List.forall₂_map_right_iff]
  exact (h.imp (fun _ _ hprepared => hprepared.named)).flip

theorem serverGroup_injective {items : List (GroupData × GroupKeys)} (hderived : AllDerived account region items)
    {item other : GroupData × GroupKeys} (hitem : item ∈ items) (hother : other ∈ items)
    (h : item.2.serverGroup = other.2.serverGroup) : item.2.names.group = other.2.names.group :=
  congrArg Names.group ((derived_of_deriveKeys (hderived item hitem)).names_eq_of_serverGroup_eq
    (derived_of_deriveKeys (hderived other hother)) h)

def groupContribution (account region : String) (item : GroupData × GroupKeys) : Contribution :=
  ⟨Namespace.serverGroups.name, item.2.serverGroup, groupAttributes account region item.1 item.2, groupEdges item.2⟩

theorem filter_contributionsOf (account region : String) (item : GroupData × GroupKeys) (key : String) :
    (contributionsOf account region item).filter (Contribution.isAbout Namespace.serverGroups.name key) =
      if item.2.serverGroup = key then [groupContribution account region item] else [] := by
  have hrest : (configContributions item.1 item.2 ++ (instanceContributions item.1 item.2 ++
      balancerContributions item.1 item.2)).filter (Contribution.isAbout Namespace.serverGroups.name key) = [] := by
    refine List.filter_eq_nil_iff.2 (fun c hc => ?_)
    simp only [configContributions, instanceContributions, balancerContributions, List.mem_append, List.mem_map,
      List.mem_filterMap, Option.map_eq_some_iff] at hc
    obtain ⟨_, -, rfl⟩ | ⟨_, -, rfl⟩ | ⟨_, -, _, -, rfl⟩ := hc <;> exact Bool.false_ne_true
  rw [contributionsOf, List.filter_append, hrest, List.append_nil]
  have happlication : (Namespace.applications.name == Namespace.serverGroups.name) = false := rfl
  have hcluster : (Namespace.clusters.name == Namespace.serverGroups.name) = false := rfl
  simp only [mainContributions, List.filter_cons, List.filter_nil, Contribution.isAbout, Atom.str_beq_str, happlication,
    hcluster, Bool.false_and, Bool.false_eq_true, if_false, beq_self_eq_true, Bool.true_and, beq_iff_eq]
  rfl

theorem flatMap_groupContribution {items : List (GroupData × GroupKeys)}
    (hderived : AllDerived account region items)
    (hnodup : (items.map (fun item => item.2.names.group)).Nodup) {item : GroupData × GroupKeys}
    (hitem : item ∈ items) :
    items.flatMap (fun other => if other.2.serverGroup = item.2.serverGroup
      then [groupContribution account region other] else []) = [groupContribution account region item] := by
  obtain ⟨front, back, rfl⟩ := List.append_of_mem hitem
  rw [List.map_append, List.map_cons] at hnodup
  obtain ⟨-, hrest, hapart⟩ := List.nodup_append.1 hnodup
  have hother (other) (hmem : other ∈ front ++ item :: back) (hne : other.2.names.group ≠ item.2.names.group) :
      (if other.2.serverGroup = item.2.serverGroup then [groupContribution account region other] else []) = [] :=
    if_neg (fun hsame => hne (serverGroup_injective hderived hmem hitem hsame))
  -- the items before and behind this one have other names, and so other keys
  have hfront (other) (hmem : other ∈ front) : other.2.names.group ≠ item.2.names.group :=
    hapart _ (List.mem_map_of_mem hmem) _ List.mem_cons_self
  have hback (other) (hmem : other ∈ back) : other.2.names.group ≠ item.2.names.group :=
    fun hsame => (List.nodup_cons.1 hrest).1 (hsame ▸ List.mem_map_of_mem hmem)
  rw [List.flatMap_append, List.flatMap_cons, if_pos rfl,
    List.flatMap_eq_nil_iff.2 (fun other hmem => hother other (List.mem_append_left _ hmem) (hfront other hmem)),
    List.flatMap_eq_nil_iff.2 (fun other hmem =>
      hother other (List.mem_append_right _ (List.mem_cons_of_mem _ hmem)) (hback other hmem))]
  rfl

theorem update_groupAttributes (account region : String) (data : GroupData) (keys : GroupKeys) :
    Attributes.update [] (groupAttributes account region data keys) = groupAttributes account region data keys := rfl

theorem withId_reportOf {items : List (GroupData × GroupKeys)} (hderived : AllDerived account region items)
    (hnodup : (items.map (fun item => item.2.names.group)).Nodup) {item : GroupData × GroupKeys}
    (hitem : item ∈ items) : ∃ entity,
      withId item.2.serverGroup ((reportOf account region items).entities Namespace.serverGroups.name) = [entity] ∧
        entity.attributes = groupAttributes account region item.1 item.2 := by
  have hfilter : (items.flatMap (contributionsOf account region)).filter
      (Contribution.isAbout Namespace.serverGroups.name item.2.serverGroup) =
        [groupContribution account region item] := by
    rw [List.filter_flatMap]
    simp only [filter_contributionsOf]
    exact flatMap_groupContribution hderived hnodup hitem
  rw [reportOf_eq, Report.withId_ofContributions, Contribution.entityOf, hfilter]
  exact ⟨_, rfl, update_groupAttributes account region item.1 item.2⟩

end ClusterAgent

end FleetCache
