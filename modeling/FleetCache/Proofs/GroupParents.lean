import FleetCache.Proofs.ClusterHistories
import FleetCache.Proofs.PushNames
import FleetCache.Proofs.ReportFrames

set_option autoImplicit false

namespace FleetCache

open FleetCache.ClusterAgent FleetCache.Partition

namespace AgentResult

def cache (history : List AgentResult) : Memory :=
  history.foldl put Memory.empty

def operations (result : AgentResult) : List Operation :=
  result.report.operations result.agent.type result.agent.types

theorem put_eq (store : Memory) (result : AgentResult) : result.put store = store.applyAll result.operations :=
  (CacheStore.putReport_yields _ _ _ store).state_eq

theorem cache_eq (history : List AgentResult) : cache history = Memory.after (history.flatMap operations) :=
  Memory.foldl_applyAll (fun store result => put_eq store result) history Memory.empty

def cluster? : AgentResult → Option ClusterResult
  | groups (.cluster provider account region workers report loaded) =>
    some ⟨provider, account, region, workers, report, loaded⟩
  | _ => none

theorem of_cluster? {result : AgentResult} {listed : ClusterResult} (h : result.cluster? = some listed) :
    result.agent.region = listed.region ∧ ∀ store, result.put store = listed.put store := by
  cases result with
  | groups result =>
    cases result with
    | cluster =>
      obtain rfl := Option.some.inj h
      exact ⟨rfl, fun store => rfl⟩
    | instances => cases h
  | loadBalancers => cases h
  | images => cases h
  | instanceTypes => cases h

def latestOf (account region : String) (history : List AgentResult) : Option ClusterResult :=
  ((history.filterMap cluster?).filter (fun result => result.account = account ∧ result.region = region)).getLast?

def Lists (account region key : String) (history : List AgentResult) : Prop :=
  ∃ result ∈ latestOf account region history, result.report.Has Namespace.serverGroups.name key

instance (account region key : String) (history : List AgentResult) : Decidable (Lists account region key history) :=
  inferInstanceAs (Decidable (∃ result ∈ latestOf account region history,
    ∃ entity ∈ result.report.entities Namespace.serverGroups.name, (entity.id == Atom.str key) = true))

end AgentResult

def ClusterAgent.GroupKeys.parent (keys : GroupKeys) : Namespace → String
  | .applications => keys.application
  | _ => keys.cluster

theorem ClusterAgent.GroupKeys.ids_of_isUpper {ns : Namespace} (h : IsUpper ns) (keys : GroupKeys) :
    keys.ids ns = [keys.parent ns] := by
  rcases h with rfl | rfl <;> rfl

theorem ClusterAgent.Derived.parent_eq {account region account' region' : String} {data data' : GroupData}
    {keys keys' : GroupKeys} (h : Derived account region data keys) (h' : Derived account' region' data' keys')
    (hsame : keys.serverGroup = keys'.serverGroup) {ns : Namespace} (hns : IsUpper ns) :
    keys.parent ns = keys'.parent ns := by
  obtain ⟨rfl, rfl⟩ := Key.account_region_of_serverGroup h.serverGroup (hsame ▸ h'.serverGroup)
  rcases hns with rfl | rfl
  · exact h.application_eq_of_serverGroup_eq h' hsame
  · exact h.cluster_eq_of_serverGroup_eq h' hsame

namespace AgentResult

theorem exists_item_of_written {result : AgentResult} {op : Operation} (hop : op ∈ result.operations) {id : Atom}
    {entity : Entity} (hentity : entity ∈ op.written Namespace.serverGroups.name id) {target : Namespace}
    (htarget : IsUpper target) {other : Atom} (h : other ∈ entity.related target.name) :
    ∃ listed, result.cluster? = some listed ∧ ∃ item, listed.Reports item ∧ id = .str item.2.serverGroup ∧
      other = .str (item.2.parent target) := by
  obtain ⟨⟨dt, hdt, hns⟩, hmem⟩ := Report.mem_of_written hop hentity
  obtain ⟨hmem, hid⟩ := List.mem_filter.1 hmem
  have hlinked : result.report.Linked Namespace.serverGroups.name id target.name other := ⟨entity, hmem, hid, h⟩
  have hundeclared (types : List DataType) (htypes : result.agent.types = types)
      (hnone : ∀ dt ∈ declared types, (dt.ns == Namespace.serverGroups.name) = false) : False := by
    rw [htypes] at hdt
    rw [hnone dt hdt] at hns
    cases hns
  cases result with
  | groups result =>
    cases result with
    | cluster provider account region workers report loaded =>
      have hjoined : target ∈ joined .serverGroups := by
        rcases htarget with rfl | rfl <;> decide
      refine ⟨_, rfl, ?_⟩
      exact (ClusterResult.linked_iff hjoined (fun keys => rfl) (GroupKeys.ids_of_isUpper htarget) _ id other).1 hlinked
    | instances provider account region report loaded =>
      -- an instance agent only leads from server groups to instances
      obtain ⟨items, -, rfl⟩ := InstanceAgent.exists_items_of_load loaded
      obtain ⟨_, -, ns, hns, -, m, hm, hsame, -⟩ :=
        (Report.linked_iff (fun item _ => InstanceAgent.draws_contributionsOf account item) _ _ _ _).1 hlinked
      obtain rfl := Namespace.name_injective (Atom.str.inj hns)
      obtain rfl := Namespace.name_injective (Atom.str.inj hsame)
      rcases htarget with rfl | rfl <;> exact absurd hm (by decide)
  | loadBalancers => exact (hundeclared LoadBalancerAgent.types rfl (by decide)).elim
  | images => exact (hundeclared ImageAgent.types rfl (by decide)).elim
  | instanceTypes => exact (hundeclared InstanceTypeAgent.types rfl (by decide)).elim

theorem exists_derived_of_related {history : List AgentResult} {id : Atom} {group : Entity}
    (hgroup : (cache history).get Namespace.serverGroups.name id = some group) {target : Namespace}
    (htarget : IsUpper target) {other : Atom} (h : other ∈ group.related target.name) :
    ∃ account region data keys, Derived account region data keys ∧ id = .str keys.serverGroup ∧
      other = .str (keys.parent target) := by
  rw [cache_eq] at hgroup
  obtain ⟨op, hop, entity, hentity, hrelated⟩ := Memory.exists_written_of_related hgroup h
  obtain ⟨result, -, hop⟩ := List.mem_flatMap.1 hop
  obtain ⟨listed, -, item, hitem, hid, hother⟩ := exists_item_of_written hop hentity htarget hrelated
  exact ⟨listed.account, listed.region, item.1, item.2, hitem.derived, hid, hother⟩

end AgentResult

namespace Stored

structure Holds (owner : Atom) (relations : Relations) (old : Option Stored) : Prop where
  owned : owner ∈ ownersOf old
  recorded : (contributionsOf old)[owner]? = some relations

variable {owner source : Atom} {relations : Relations} {old new : Option Stored}

theorem Holds.of_sameForOthers (h : Holds owner relations old) (hsame : SameForOthers source old new)
    (hne : (source == owner) = false) : Holds owner relations new where
  owned := (hsame.owners owner hne).2 h.owned
  recorded := (hsame.contributions owner hne).trans h.recorded

theorem exists_holds_replaced (owner : Atom) (old : Option Stored) (entity : Entity) :
    ∃ relations, Holds owner relations (Partition.replaced owner .authoritative old [entity]) ∧
      ∀ target other, other ∈ entity.related target → other ∈ relations.related target := by
  obtain ⟨before, hreplaced⟩ : ∃ before, Partition.replaced owner .authoritative old [entity] =
      some (Partition.stored before entity owner .authoritative) := ⟨_, rfl⟩
  refine ⟨((contributionsOf before).getD owner ∅).union entity.relations,
    ⟨(ownedBy_replaced old owner entity).owned, ?_⟩, fun target other h => ?_⟩
  · rw [hreplaced, contributionsOf_stored, Contributions.contribute, Table.getElem?_put, if_pos BEq.rfl]
  · exact (Relations.mem_related_union _ _ _ _).2 (.inr h)

theorem Holds.exists_kept (h : Holds owner relations old) :
    ∃ kept, old = some kept ∧
      ∀ target other, other ∈ relations.related target → other ∈ kept.contributions.merged.related target := by
  cases old with
  | none => exact absurd h.owned Std.ExtTreeSet.not_mem_empty
  | some kept =>
    refine ⟨kept, rfl, fun target other hother => (Contributions.mem_related_merged _ _ _).2 ⟨owner, ?_⟩⟩
    have hrecorded : kept.contributions[owner]? = some relations := h.recorded
    rw [Contributions.edgesOf_eq, hrecorded]
    exact hother

end Stored

namespace AgentResult

theorem latestOf_concat (account region : String) (history : List AgentResult) (result : AgentResult) :
    latestOf account region (history ++ [result]) =
      ((result.cluster?.filter (fun found => found.account = account ∧ found.region = region)).or
        (latestOf account region history)) := by
  unfold latestOf
  rw [List.filterMap_append, List.filter_append, List.getLast?_append]
  cases hresult : result.cluster? with
  | none => simp [hresult]
  | some found =>
    by_cases hfound : found.account = account ∧ found.region = region <;> simp [hresult, hfound, Option.filter]

theorem exists_of_latestOf {account region : String} {history : List AgentResult} {listed : ClusterResult}
    (h : latestOf account region history = some listed) :
    ∃ before result later, history = before ++ result :: later ∧ result.cluster? = some listed ∧
      (listed.account = account ∧ listed.region = region) ∧ ∀ other ∈ later, ∀ found, other.cluster? = some found →
        ¬ (found.account = account ∧ found.region = region) := by
  -- on the last result, which is the latest one or comes later
  induction history using List.reverseRecOn with
  | nil => cases h
  | append_singleton history result ih =>
    rw [latestOf_concat, Option.or_eq_some_iff] at h
    rcases h with hlast | ⟨hother, hearlier⟩
    · obtain ⟨hresult, hlisted⟩ := Option.filter_eq_some_iff.1 hlast
      exact ⟨history, result, [], rfl, hresult, of_decide_eq_true hlisted, fun _ hnone => absurd hnone List.not_mem_nil⟩
    · obtain ⟨before, first, later, rfl, hfirst, hlisted, hlater⟩ := ih hearlier
      refine ⟨before, first, later ++ [result], by simp, hfirst, hlisted, fun other hmem found hfound => ?_⟩
      rcases List.mem_append.1 hmem with hold | hnew
      · exact hlater other hold found hfound
      · obtain rfl := List.mem_singleton.1 hnew
        rw [hfound] at hother
        simpa [Option.filter_eq_none_iff] using hother

theorem exists_cluster_of_source {result : AgentResult} (hresult : result.HasPlainRegion) {account region : String}
    (hregion : '/' ∉ region.toList) (h : result.agent.type = clusterSource account region) :
    ∃ found, result.cluster? = some found ∧ found.account = account ∧ found.region = region := by
  obtain ⟨haccount, hsame, hname⟩ :=
    agentType_injective hresult result.slash_not_mem_name hregion (by decide) h
  cases result with
  | groups result =>
    cases result with
    | cluster => exact ⟨_, rfl, haccount, hsame⟩
    | instances => exact absurd hname (show InstanceAgent.name ≠ ClusterAgent.name by decide)
  | loadBalancers => exact absurd hname (show LoadBalancerAgent.name ≠ ClusterAgent.name by decide)
  | images => exact absurd hname (show ImageAgent.name ≠ ClusterAgent.name by decide)
  | instanceTypes => exact absurd hname (show InstanceTypeAgent.name ≠ ClusterAgent.name by decide)

theorem holds_put {result : AgentResult} {store : Memory} (hsound : store.Sound) {ns id owner : Atom}
    {relations : Relations} (h : Stored.Holds owner relations (store.kept ns id))
    (hne : (Atom.str result.agent.type == owner) = false) :
    Stored.Holds owner relations ((result.put store).kept ns id) := by
  rw [put_eq]
  exact h.of_sameForOthers (Report.sameForOthers_of_owned hsound h.owned hne) hne

theorem holds_foldl_put {later : List AgentResult} {store : Memory} (hsound : store.Sound) {ns id owner : Atom}
    {relations : Relations} (h : Stored.Holds owner relations (store.kept ns id))
    (hothers : ∀ result ∈ later, (Atom.str result.agent.type == owner) = false) :
    Stored.Holds owner relations ((later.foldl put store).kept ns id) := by
  induction later generalizing store with
  | nil => exact h
  | cons result rest ih =>
    obtain ⟨hresult, hrest⟩ := List.forall_mem_cons.1 hothers
    exact ih (result.put_sound hsound) (holds_put hsound h hresult) hrest

end AgentResult

namespace ClusterResult

theorem exists_entity_of_reports {result : ClusterResult} {item : GroupData × GroupKeys} (h : result.Reports item) :
    ∃ entity, withId item.2.serverGroup (result.report.entities Namespace.serverGroups.name) = [entity] ∧
      ∀ target, IsUpper target → Atom.str (item.2.parent target) ∈ entity.related target.name := by
  have hlinked (target : Namespace) (htarget : IsUpper target) :
      result.report.Linked Namespace.serverGroups.name item.2.serverGroup target.name (item.2.parent target) := by
    have hjoined : target ∈ joined .serverGroups := by
      rcases htarget with rfl | rfl <;> decide
    exact (linked_iff hjoined (fun keys => rfl) (GroupKeys.ids_of_isUpper htarget) result _ _).2 ⟨item, h, rfl, rfl⟩
  obtain ⟨only, honly⟩ : ∃ only,
      withId item.2.serverGroup (result.report.entities Namespace.serverGroups.name) = [only] := by
    have hhas : result.report.Has Namespace.serverGroups.name item.2.serverGroup :=
      (has_iff (fun keys => rfl) result _).2 ⟨item, h, rfl⟩
    obtain ⟨items, -, hreport, -⟩ := h
    rw [hreport, reportOf_eq] at hhas ⊢
    exact Report.exists_withId_of_has hhas
  refine ⟨only, honly, fun target htarget => ?_⟩
  obtain ⟨found, hfound, hid, hrelated⟩ := hlinked target htarget
  have hmem : found ∈ withId item.2.serverGroup (result.report.entities Namespace.serverGroups.name) :=
    List.mem_filter.2 ⟨hfound, hid⟩
  rw [honly] at hmem
  obtain rfl := List.mem_singleton.1 hmem
  exact hrelated

theorem exists_holds_put {result : ClusterResult} {store : Memory} (hsound : store.Sound) {key : String}
    {entity : Entity} (h : withId key (result.report.entities Namespace.serverGroups.name) = [entity]) :
    ∃ relations, Stored.Holds result.source relations ((result.put store).kept Namespace.serverGroups.name key) ∧
      ∀ target other, other ∈ entity.related target → other ∈ relations.related target := by
  have hkept : (result.put store).kept Namespace.serverGroups.name key =
      replaced result.source .authoritative (store.kept Namespace.serverGroups.name key) [entity] :=
    h ▸ GroupResult.kept_put (.cluster result.provider result.account result.region result.workers result.report
      result.loaded) hsound key
  rw [hkept]
  exact Stored.exists_holds_replaced result.source _ entity

end ClusterResult

namespace AgentResult

theorem exists_group_of_lists {history : List AgentResult} (hregions : ∀ result ∈ history, result.HasPlainRegion)
    {account region key : String} (h : Lists account region key history) :
    ∃ data keys, Derived account region data keys ∧ keys.serverGroup = key ∧
      ∃ group, (cache history).get Namespace.serverGroups.name key = some group ∧
        ∀ target, IsUpper target → Atom.str (keys.parent target) ∈ group.related target.name := by
  obtain ⟨listed, hlatest, hhas⟩ := h
  obtain ⟨before, result, later, rfl, hresult, ⟨rfl, rfl⟩, hlater⟩ := exists_of_latestOf hlatest
  obtain ⟨item, hitem, hkey⟩ := (ClusterResult.has_iff (fun keys => rfl) listed key).1 hhas
  obtain rfl := Atom.str.inj hkey
  refine ⟨item.1, item.2, hitem.derived, rfl, ?_⟩
  obtain ⟨entity, hentity, hparents⟩ := ClusterResult.exists_entity_of_reports hitem
  have hbefore : (cache before).Sound := by
    rw [cache_eq]
    exact Memory.after_sound _
  obtain ⟨hplace, hput⟩ := of_cluster? hresult
  have hregion : '/' ∉ listed.region.toList :=
    hplace ▸ hregions result (List.mem_append_right before (List.mem_cons_self ..))
  have hothers (other : AgentResult) (hother : other ∈ later) :
      (Atom.str other.agent.type == .str listed.source) = false := by
    rw [Atom.str_beq_str, beq_eq_false_iff_ne]
    intro htype
    have hplain := hregions other (List.mem_append_right before (List.mem_cons_of_mem result hother))
    obtain ⟨found, hfound, hsame⟩ := exists_cluster_of_source hplain hregion htype
    exact hlater other hother found hfound hsame
  obtain ⟨relations, hholds, hrelations⟩ := ClusterResult.exists_holds_put hbefore hentity
  rw [← hput] at hholds
  have hlast := holds_foldl_put (AgentResult.put_sound hbefore result) hholds hothers
  have hcache : cache (before ++ result :: later) = later.foldl put (result.put (cache before)) :=
    List.foldl_append
  obtain ⟨kept, hkept, hmerged⟩ := hlast.exists_kept
  rw [hcache, Memory.get_eq, hkept]
  exact ⟨_, rfl, fun target htarget => hmerged _ _ (hrelations _ _ (hparents target htarget))⟩

end AgentResult

def AtomSet.AtMostOne (set : AtomSet) : Prop :=
  ∀ a ∈ set, ∀ b ∈ set, a = b

def AtomSet.ExactlyOne (set : AtomSet) : Prop :=
  ∃ a, ∀ b, b ∈ set ↔ b = a

namespace AgentResult

section

variable {history : List AgentResult} {account region key : String}

theorem atMostOne_parent {id : Atom} {group : Entity}
    (hgroup : (cache history).get Namespace.serverGroups.name id = some group) {target : Namespace}
    (htarget : IsUpper target) : (group.related target.name).AtMostOne := by
  intro a ha b hb
  obtain ⟨_, _, _, keys, hderived, hid, rfl⟩ := exists_derived_of_related hgroup htarget ha
  obtain ⟨_, _, _, keys', hderived', hid', rfl⟩ := exists_derived_of_related hgroup htarget hb
  rw [hderived.parent_eq hderived' (Atom.str.inj (hid.symm.trans hid')) htarget]

theorem exists_parent_of_lists (hregions : ∀ result ∈ history, result.HasPlainRegion)
    (h : Lists account region key history) {group : Entity}
    (hgroup : (cache history).get Namespace.serverGroups.name key = some group) :
    ∃ data keys, Derived account region data keys ∧ keys.serverGroup = key ∧
      ∀ target, IsUpper target → ∀ other, other ∈ group.related target.name ↔ other = .str (keys.parent target) := by
  obtain ⟨data, keys, hderived, hkey, found, hfound, hparents⟩ := exists_group_of_lists hregions h
  obtain rfl := Option.some.inj (hgroup.symm.trans hfound)
  refine ⟨data, keys, hderived, hkey, fun target htarget other => ⟨fun hother => ?_, ?_⟩⟩
  · exact atMostOne_parent hgroup htarget other hother _ (hparents target htarget)
  · rintro rfl
    exact hparents target htarget

end

end AgentResult

theorem ClusterAgent.Derived.cluster_eq_iff {account region region' : String} {data data' : GroupData}
    {keys keys' : GroupKeys} (h : Derived account region data keys) (h' : Derived account region' data' keys') :
    keys.cluster = keys'.cluster ↔ keys.names.cluster = keys'.names.cluster := by
  constructor
  · intro hsame
    have hfields := h.decode_cluster.symm.trans (hsame ▸ h'.decode_cluster)
    simp only [Except.ok.injEq, Key.mk.injEq, List.cons.injEq, true_and, and_true] at hfields
    exact hfields.2
  · intro hsame
    have happ := Names.app_eq_of_cluster_eq h.parse_group h'.parse_group hsame
    have hcluster := h.cluster
    rw [happ, hsame] at hcluster
    exact Except.ok.inj (hcluster.symm.trans h'.cluster)

theorem ClusterAgent.Derived.group_eq_of_serverGroup {account region name : String} {data : GroupData}
    {keys : GroupKeys} (h : Derived account region data keys)
    (hkey : Key.serverGroup (some name) (some account) (some region) = .ok keys.serverGroup) :
    keys.names.group = name := by
  have hread : Key.decode keys.serverGroup = .ok ⟨.serverGroups, [account, region, name]⟩ := Key.decode_of_texts hkey
  have hfields := h.decode_serverGroup.symm.trans hread
  simpa using hfields

namespace AgentResult

theorem share_cluster_iff {history : List AgentResult} (hregions : ∀ result ∈ history, result.HasPlainRegion)
    {account region region' name name' key key' : String} (hline : '\n' ∉ name.toList) (hline' : '\n' ∉ name'.toList)
    (hkey : Key.serverGroup (some name) (some account) (some region) = .ok key)
    (hkey' : Key.serverGroup (some name') (some account) (some region') = .ok key')
    (h : Lists account region key history) (h' : Lists account region' key' history) {group group' : Entity}
    (hgroup : (cache history).get Namespace.serverGroups.name key = some group)
    (hgroup' : (cache history).get Namespace.serverGroups.name key' = some group') :
    (∃ cluster ∈ group.related Namespace.clusters.name, cluster ∈ group'.related Namespace.clusters.name) ↔
      ∃ stem, Names.HasStem name stem ∧ Names.HasStem name' stem := by
  obtain ⟨data, keys, hderived, rfl, hparent⟩ := exists_parent_of_lists hregions h hgroup
  obtain ⟨data', keys', hderived', rfl, hparent'⟩ := exists_parent_of_lists hregions h' hgroup'
  obtain rfl := hderived.group_eq_of_serverGroup hkey
  obtain rfl := hderived'.group_eq_of_serverGroup hkey'
  calc (∃ cluster ∈ group.related Namespace.clusters.name, cluster ∈ group'.related Namespace.clusters.name)
    _ ↔ keys.cluster = keys'.cluster := by
      constructor
      · rintro ⟨cluster, hcluster, hcluster'⟩
        exact Atom.str.inj (((hparent _ (.inr rfl) _).1 hcluster).symm.trans ((hparent' _ (.inr rfl) _).1 hcluster'))
      · intro hsame
        exact ⟨.str keys.cluster, (hparent _ (.inr rfl) _).2 rfl, (hparent' _ (.inr rfl) _).2 (congrArg Atom.str hsame)⟩
    _ ↔ keys.names.cluster = keys'.names.cluster := hderived.cluster_eq_iff hderived'
    _ ↔ ∃ stem, Names.HasStem keys.names.group stem ∧ Names.HasStem keys'.names.group stem := by
      simp only [Names.hasStem_of_parse hderived.parse_group hline, Names.hasStem_of_parse hderived'.parse_group hline',
        exists_eq_left]

/-- After any results of the agents, a server group belongs to at most one application and to at most one cluster, and
to one of each if the latest result of the cluster agent of its account and region lists it. Of the groups that are so
listed, those of an account share their cluster whose names are the same up to their push sequences. -/
theorem listed_group_has_one_parent {history : List AgentResult}
    (hregions : ∀ result ∈ history, result.HasPlainRegion) :
    (∀ (id : Atom) (group : Entity), (cache history).get Namespace.serverGroups.name id = some group →
      (group.related Namespace.applications.name).AtMostOne ∧ (group.related Namespace.clusters.name).AtMostOne) ∧
    (∀ account region key : String, Lists account region key history →
      ∃ group : Entity, (cache history).get Namespace.serverGroups.name key = some group ∧
        (group.related Namespace.applications.name).ExactlyOne ∧ (group.related Namespace.clusters.name).ExactlyOne) ∧
    ∀ account region region' name name' key key' : String, '\n' ∉ name.toList → '\n' ∉ name'.toList →
      Key.serverGroup (some name) (some account) (some region) = .ok key →
      Key.serverGroup (some name') (some account) (some region') = .ok key' →
      Lists account region key history → Lists account region' key' history →
      ∀ group group' : Entity, (cache history).get Namespace.serverGroups.name key = some group →
        (cache history).get Namespace.serverGroups.name key' = some group' →
        ((∃ cluster ∈ group.related Namespace.clusters.name, cluster ∈ group'.related Namespace.clusters.name) ↔
          ∃ stem, Names.HasStem name stem ∧ Names.HasStem name' stem) := by
  refine ⟨fun id group hgroup => ⟨atMostOne_parent hgroup (.inl rfl), atMostOne_parent hgroup (.inr rfl)⟩,
    fun account region key h => ?_, fun _ _ _ _ _ _ _ hline hline' hkey hkey' h h' _ _ hgroup hgroup' =>
      share_cluster_iff hregions hline hline' hkey hkey' h h' hgroup hgroup'⟩
  obtain ⟨_, _, _, -, group, hgroup, -⟩ := exists_group_of_lists hregions h
  obtain ⟨_, keys, -, -, hparent⟩ := exists_parent_of_lists hregions h hgroup
  exact ⟨group, hgroup, ⟨_, hparent _ (.inl rfl)⟩, ⟨_, hparent _ (.inr rfl)⟩⟩

def rolledHistory : List AgentResult :=
  [.groups (.ofCluster (listingProvider [.object [("scalingGroupName", "api-v001")]] []) "prod" "eu" 1
    (by decide +kernel)),
    .groups (.ofInstances (listingProvider [] [[("instanceId", "i-1"),
      ("tags", .object [("aws:autoscaling:groupName", "api-v001")])]]) "prod" "eu" (by decide +kernel)),
    .groups (.ofCluster (listingProvider [.object [("scalingGroupName", "api-v002")]] []) "prod" "us" 1
      (by decide +kernel))]

theorem listed_group_has_one_parent_rolled :
    ∃ group group' : Entity,
      (cache rolledHistory).get Namespace.serverGroups.name "aws:serverGroup:prod:eu:api-v001" = some group ∧
      (cache rolledHistory).get Namespace.serverGroups.name "aws:serverGroup:prod:us:api-v002" = some group' ∧
      (group.related Namespace.applications.name).ExactlyOne ∧ (group.related Namespace.clusters.name).ExactlyOne ∧
      ∃ cluster ∈ group.related Namespace.clusters.name, cluster ∈ group'.related Namespace.clusters.name := by
  have hregions : ∀ result ∈ rolledHistory, result.HasPlainRegion := by
    have hplain : ∀ region ∈ ["eu", "eu", "us"], '/' ∉ region.toList := by decide
    intro result hresult
    exact hplain _ (List.mem_map_of_mem (f := fun result => result.agent.region) hresult)
  have hkey : Key.serverGroup (some "api-v001") (some "prod") (some "eu") = .ok "aws:serverGroup:prod:eu:api-v001" :=
    ok_of_toOption (by decide +kernel)
  have hkey' : Key.serverGroup (some "api-v002") (some "prod") (some "us") = .ok "aws:serverGroup:prod:us:api-v002" :=
    ok_of_toOption (by decide +kernel)
  have heu : Lists "prod" "eu" "aws:serverGroup:prod:eu:api-v001" rolledHistory := by
    decide +kernel
  have hus : Lists "prod" "us" "aws:serverGroup:prod:us:api-v002" rolledHistory := by
    decide +kernel
  obtain ⟨-, hone, hshared⟩ := listed_group_has_one_parent hregions
  obtain ⟨group, hgroup, happlication, hcluster⟩ := hone _ _ _ heu
  obtain ⟨group', hgroup', -, -⟩ := hone _ _ _ hus
  refine ⟨group, group', hgroup, hgroup', happlication, hcluster, ?_⟩
  refine (hshared _ _ _ _ _ _ _ (by decide) (by decide) hkey hkey' heu hus _ _ hgroup hgroup').2 ⟨"api", ?_, ?_⟩
  · have hpush : Names.IsPush "-v001" := ⟨['0', '0', '1'], by decide, by decide, List.all_eq_true.1 (by decide)⟩
    exact .pushed (by decide) hpush rfl
  · have hpush : Names.IsPush "-v002" := ⟨['0', '0', '2'], by decide, by decide, List.all_eq_true.1 (by decide)⟩
    exact .pushed (by decide) hpush rfl

end AgentResult

end FleetCache
