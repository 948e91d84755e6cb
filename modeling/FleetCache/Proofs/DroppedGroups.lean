import Mathlib.Data.List.Induction
import FleetCache.Proofs.GroupReports
import FleetCache.Proofs.GroupStandings
import FleetCache.Proofs.KeyRoundTrip
import FleetCache.Proofs.ReportWrites
import FleetCache.Views.Clusters
/-!
Server groups that the cluster agent reports no longer. At that moment the group goes, whoever links it. A later
report of the instance agent that links the group brings it back, without attributes, and it is served again.
-/
set_option autoImplicit false

namespace FleetCache

open FleetCache.Partition (withId)

theorem Key.account_region_of_serverGroup {name name' : Option String} {account region account' region' key : String}
    (h : Key.serverGroup name (some account) (some region) = .ok key)
    (h' : Key.serverGroup name' (some account') (some region') = .ok key) : account = account' ∧ region = region' := by
  have hfields (name : Option String) (account region : String) :
      [Value.str account, .str region, .ofOption name].map Value.field? = [some account, some region, name] := by
    cases name <;> rfl
  have hkept (name : Option String) (account region : String) :
      Key.kept Namespace.serverGroups.required [.str account, .str region, .ofOption name] =
        [.str account, .str region, .ofOption name] := by
    cases name <;> rfl
  unfold Key.serverGroup at h h'
  rw [← hfields] at h h'
  have hsame := (Key.decode_of_encode h).symm.trans (Key.decode_of_encode h')
  rw [hkept, hkept] at hsame
  simp only [List.map_cons, Except.ok.injEq, Key.mk.injEq, List.cons.injEq, true_and] at hsame
  exact ⟨hsame.1, hsame.2.1⟩

theorem agentType_cluster_ne_instance (account region account' region' : String) :
    agentType account region ClusterAgent.name ≠ agentType account' region' InstanceAgent.name := by
  have hend (front back : String) (n : Nat) (hn : n < back.toList.length) :
      (front ++ back).toList.reverse[n]? = back.toList.reverse[n]? := by
    rw [String.toList_append, List.reverse_append, List.getElem?_append_left]
    rw [List.length_reverse]
    exact hn
  intro h
  -- the two names end alike in twelve letters
  have hletter := congrArg (fun text : String => text.toList.reverse[12]?) h
  simp only [agentType] at hletter
  rw [hend _ _ 12 (by decide), hend _ _ 12 (by decide)] at hletter
  revert hletter
  decide

theorem CacheStore.kept_putReport_full {source ns : Atom} {types : List DataType} {dt : DataType} {report : Report}
    (hfull : report.incremental = false) (hdeclared : (declared types).filter (fun dt => dt.ns == ns) = [dt])
    {store : Memory} (h : store.Sound) (id : Atom) :
    ((CacheStore.putReport source types report : Change Memory _) store).2.kept ns id =
      Partition.replaced source dt.authority (store.kept ns id) (withId id (report.entities dt.ns)) := by
  have hoperation (dt : DataType) : report.operation source dt =
      .replaceSource dt.ns source (report.entities dt.ns) dt.authority := by
    rw [Report.operation, hfull]
    rfl
  have hfilter : (report.operations source types).filter (fun op => op.ns == ns) = [report.operation source dt] := by
    rw [Report.operations, List.filter_map]
    have hns : (fun op : Operation => op.ns == ns) ∘ report.operation source = fun dt => dt.ns == ns := by
      funext dt
      rw [Function.comp_apply, hoperation]
      rfl
    rw [hns, hdeclared]
    rfl
  rw [(CacheStore.putReport_yields source types report store).state_eq, Memory.kept_applyAll h, hfilter, hoperation]
  rfl

theorem ClusterAgent.filter_types :
    (declared ClusterAgent.types).filter (fun dt => dt.ns == .str Namespace.serverGroups.name) = [owns .serverGroups] := rfl

theorem InstanceAgent.filter_types :
    (declared InstanceAgent.types).filter (fun dt => dt.ns == .str Namespace.serverGroups.name) =
      [contributesTo .serverGroups] := rfl

inductive GroupResult where
  | cluster (provider : Provider) (account region : String) (workers : Int) (report : Report)
      (loaded : (ClusterAgent.load provider account region workers).result = .ok report)
  | instances (provider : Provider) (account region : String) (report : Report)
      (loaded : (InstanceAgent.load provider account region).result = .ok report)

namespace GroupResult

def agent : GroupResult → Agent
  | cluster provider account region workers _ _ => clusterAgent provider account region workers
  | instances provider account region _ _ => instanceAgent provider account region

def report : GroupResult → Report
  | cluster _ _ _ _ report _ => report
  | instances _ _ _ report _ => report

theorem eq_ok_get {x : Except Fault Report} (h : x.toOption.isSome = true) : x = .ok (x.toOption.get h) :=
  ok_of_toOption (Option.some_get h).symm

def ofCluster (provider : Provider) (account region : String) (workers : Int)
    (h : (ClusterAgent.load provider account region workers).result.toOption.isSome = true) : GroupResult :=
  cluster provider account region workers _ (eq_ok_get h)

def ofInstances (provider : Provider) (account region : String)
    (h : (InstanceAgent.load provider account region).result.toOption.isSome = true) : GroupResult :=
  instances provider account region _ (eq_ok_get h)

def source (result : GroupResult) : String :=
  result.agent.type

def about (key : String) (result : GroupResult) : List Entity :=
  withId key (result.report.entities Namespace.serverGroups.name)

def has (key : String) (result : GroupResult) : Bool :=
  !(result.about key).isEmpty

def authority : GroupResult → Authority
  | cluster .. => .authoritative
  | instances .. => .informative

def put (store : Memory) (result : GroupResult) : Memory :=
  ((CacheStore.putReport result.source result.agent.types result.report : Change Memory _) store).2

theorem put_eq (store : Memory) (result : GroupResult) :
    result.put store = store.applyAll (result.report.operations result.source result.agent.types) :=
  (CacheStore.putReport_yields _ _ _ store).state_eq

theorem put_sound {store : Memory} (h : store.Sound) (result : GroupResult) : (result.put store).Sound := by
  rw [put_eq]
  exact Memory.applyAll_sound h _

theorem full (result : GroupResult) : result.report.incremental = false := by
  cases result with
  | cluster provider account region workers report loaded => exact (ClusterAgent.load_reports_groups loaded).1
  | instances provider account region report loaded => exact (InstanceAgent.load_reports_groups loaded).1

theorem kept_put (result : GroupResult) {store : Memory} (h : store.Sound) (key : String) :
    (result.put store).kept Namespace.serverGroups.name key =
      Partition.replaced result.source result.authority (store.kept Namespace.serverGroups.name key)
        (result.about key) := by
  cases result with
  | cluster provider account region workers report loaded =>
    exact CacheStore.kept_putReport_full (full (.cluster provider account region workers report loaded))
      ClusterAgent.filter_types h key
  | instances provider account region report loaded =>
    exact CacheStore.kept_putReport_full (full (.instances provider account region report loaded))
      InstanceAgent.filter_types h key

end GroupResult

section

variable {account region key : String} {name : Option String}

def clusterSource (account region : String) : String :=
  agentType account region ClusterAgent.name

def instanceSource (account region : String) : String :=
  agentType account region InstanceAgent.name

theorem sources_differ (account region account' region' : String) :
    (Atom.str (instanceSource account region) == .str (clusterSource account' region')) = false := by
  rw [Atom.str_beq_str, beq_eq_false_iff_ne]
  exact (agentType_cluster_ne_instance _ _ _ _).symm

namespace GroupResult

theorem authority_of_clusterSource {result : GroupResult} (h : result.source = clusterSource account region) :
    result.authority = .authoritative := by
  cases result with
  | cluster => rfl
  | instances => exact absurd h.symm (agentType_cluster_ne_instance _ _ _ _)

theorem authority_of_instanceSource {result : GroupResult} (h : result.source = instanceSource account region) :
    result.authority = .informative := by
  cases result with
  | cluster => exact absurd h (agentType_cluster_ne_instance _ _ _ _)
  | instances => rfl

theorem blank_of_instanceSource {result : GroupResult} (h : result.source = instanceSource account region) :
    ∀ entity ∈ result.about key, entity.attributes = [] := by
  intro entity hentity
  cases result with
  | cluster => exact absurd h (agentType_cluster_ne_instance _ _ _ _)
  | instances provider account' region' report loaded =>
    exact ((InstanceAgent.load_reports_groups loaded).2 entity (List.mem_filter.1 hentity).1).2

theorem about_eq_nil (hkey : Key.serverGroup name (some account) (some region) = .ok key) {result : GroupResult}
    (hcluster : result.source ≠ clusterSource account region)
    (hinstance : result.source ≠ instanceSource account region) : result.about key = [] := by
  rw [List.eq_nil_iff_forall_not_mem]
  intro entity hentity
  obtain ⟨hmem, hid⟩ := List.mem_filter.1 hentity
  have hplace {account' region' : String} (h : IsGroupOf account' region' entity) :
      account = account' ∧ region = region' := by
    obtain ⟨name', key', hkey', hid'⟩ := h
    rw [hid', Atom.str_beq_str, beq_iff_eq] at hid
    exact Key.account_region_of_serverGroup hkey (hid ▸ hkey')
  cases result with
  | cluster provider account' region' workers report loaded =>
    obtain ⟨rfl, rfl⟩ := hplace ((ClusterAgent.load_reports_groups loaded).2 entity hmem)
    exact hcluster rfl
  | instances provider account' region' report loaded =>
    obtain ⟨rfl, rfl⟩ := hplace ((InstanceAgent.load_reports_groups loaded).2 entity hmem).1
    exact hinstance rfl

end GroupResult

def cacheAfter (history : List GroupResult) : Memory :=
  history.foldl GroupResult.put Memory.empty

theorem cacheAfter_concat (history : List GroupResult) (result : GroupResult) :
    cacheAfter (history ++ [result]) = result.put (cacheAfter history) := by
  rw [cacheAfter, List.foldl_append]
  rfl

theorem cacheAfter_sound (history : List GroupResult) : (cacheAfter history).Sound := by
  induction history using List.reverseRecOn with
  | nil => exact Memory.empty_sound
  | append_singleton history result ih =>
    rw [cacheAfter_concat]
    exact GroupResult.put_sound ih result

def latestHas (source key : String) (history : List GroupResult) : Bool :=
  (history.filter (fun result => result.source = source)).getLast?.any (GroupResult.has key)

theorem latestHas_concat (source key : String) (history : List GroupResult) (result : GroupResult) :
    latestHas source key (history ++ [result]) =
      if result.source = source then result.has key else latestHas source key history := by
  unfold latestHas
  rw [List.filter_append]
  by_cases h : result.source = source <;> simp [h]

abbrev Stands (account region key : String) (listed linked : Bool) (store : Memory) : Prop :=
  Stored.Standing (clusterSource account region) (instanceSource account region) listed linked
    (store.kept Namespace.serverGroups.name key)

/-- One result: what the cluster agent reports counts for both agents, what the instance agent reports only for
itself, and all other results count for nothing. -/
theorem stands_put (hkey : Key.serverGroup name (some account) (some region) = .ok key) {store : Memory}
    (hsound : store.Sound) {listed linked : Bool} (h : Stands account region key listed linked store)
    (result : GroupResult) :
    Stands account region key
      (if result.source = clusterSource account region then result.has key else listed)
      (if result.source = clusterSource account region then linked && (!listed || result.has key)
        else if result.source = instanceSource account region then result.has key else linked)
      (result.put store) := by
  have hkept (kept : Stored) (hstored : store.kept Namespace.serverGroups.name key = some kept) : kept.Sound :=
    hsound.kept hstored
  have hdiffer := sources_differ account region account region
  unfold Stands
  rw [GroupResult.kept_put result hsound]
  by_cases hcluster : result.source = clusterSource account region
  · rw [if_pos hcluster, if_pos hcluster, GroupResult.authority_of_clusterSource hcluster, hcluster]
    exact h.replaced_owner hkept hdiffer _
  · rw [if_neg hcluster, if_neg hcluster]
    by_cases hinstance : result.source = instanceSource account region
    · rw [if_pos hinstance, GroupResult.authority_of_instanceSource hinstance, hinstance]
      exact h.replaced_linker hkept hdiffer (GroupResult.blank_of_instanceSource hinstance)
    · have howner : (Atom.str (clusterSource account region) == .str result.source) = false := by
        rw [Atom.str_beq_str, beq_eq_false_iff_ne]
        exact Ne.symm hcluster
      have hlinker : (Atom.str (instanceSource account region) == .str result.source) = false := by
        rw [Atom.str_beq_str, beq_eq_false_iff_ne]
        exact Ne.symm hinstance
      rw [if_neg hinstance, GroupResult.about_eq_nil hkey hcluster hinstance,
        h.replaced_other hkept howner hlinker]
      exact h

theorem exists_stands (hkey : Key.serverGroup name (some account) (some region) = .ok key)
    (history : List GroupResult) :
    ∃ linked, Stands account region key (latestHas (clusterSource account region) key history) linked
      (cacheAfter history) := by
  induction history using List.reverseRecOn with
  | nil =>
    refine ⟨false, ?_⟩
    unfold Stands
    rw [cacheAfter, List.foldl_nil, Memory.kept_empty]
    exact Stored.standing_none _ _
  | append_singleton history result ih =>
    obtain ⟨linked, hstands⟩ := ih
    rw [cacheAfter_concat, latestHas_concat]
    exact ⟨_, stands_put hkey (cacheAfter_sound history) hstands result⟩

/-- A history after which a server group is gone: nothing has been written yet, or the latest result is the first one
of the cluster agent without the group. -/
inductive Gone (account region key : String) : List GroupResult → Prop
  | unwritten : Gone account region key []
  | withdrawn {earlier : List GroupResult} {result : GroupResult}
      (listed : latestHas (clusterSource account region) key earlier = true)
      (source : result.source = clusterSource account region) (without : result.has key = false) :
      Gone account region key (earlier ++ [result])

theorem Gone.stands (hkey : Key.serverGroup name (some account) (some region) = .ok key)
    {history : List GroupResult} (h : Gone account region key history) :
    Stands account region key false false (cacheAfter history) := by
  cases h with
  | unwritten =>
    unfold Stands
    rw [cacheAfter, List.foldl_nil, Memory.kept_empty]
    exact Stored.standing_none _ _
  | @withdrawn earlier result listed source without =>
    obtain ⟨linked, hstands⟩ := exists_stands hkey earlier
    have hput := stands_put hkey (cacheAfter_sound earlier) hstands result
    rw [listed, if_pos source, if_pos source, without] at hput
    rw [cacheAfter_concat]
    simpa using hput

/-- A history whose latest result of the cluster agent is without a server group has a point at which the group was
gone, and behind it the cluster agent never has the group. -/
theorem exists_gone {history : List GroupResult}
    (h : latestHas (clusterSource account region) key history = false) :
    ∃ before after, history = before ++ after ∧ Gone account region key before ∧
      ∀ result ∈ after, result.source = clusterSource account region → result.has key = false := by
  induction history using List.reverseRecOn with
  | nil => exact ⟨[], [], rfl, .unwritten, by simp⟩
  | append_singleton history result ih =>
    rw [latestHas_concat] at h
    have hlater (hbefore : latestHas (clusterSource account region) key history = false)
        (hresult : result.source = clusterSource account region → result.has key = false) :
        ∃ before after, history ++ [result] = before ++ after ∧ Gone account region key before ∧
          ∀ result ∈ after, result.source = clusterSource account region → result.has key = false := by
      obtain ⟨before, after, rfl, hgone, hafter⟩ := ih hbefore
      refine ⟨before, after ++ [result], List.append_assoc _ _ _, hgone, ?_⟩
      intro other hother
      rcases List.mem_append.1 hother with hold | hnew
      · exact hafter other hold
      · obtain rfl := List.mem_singleton.1 hnew
        exact hresult
    by_cases hsource : result.source = clusterSource account region
    · rw [if_pos hsource] at h
      cases hlisted : latestHas (clusterSource account region) key history with
      | true =>
        exact ⟨history ++ [result], [], (List.append_nil _).symm, .withdrawn hlisted hsource h, by simp⟩
      | false => exact hlater hlisted (fun _ => h)
    · rw [if_neg hsource] at h
      exact hlater h (fun hsame => absurd hsame hsource)

theorem stands_after_gone (hkey : Key.serverGroup name (some account) (some region) = .ok key)
    {before after : List GroupResult} (hgone : Gone account region key before)
    (hafter : ∀ result ∈ after, result.source = clusterSource account region → result.has key = false) :
    Stands account region key false (latestHas (instanceSource account region) key after)
      (cacheAfter (before ++ after)) := by
  induction after using List.reverseRecOn with
  | nil =>
    rw [List.append_nil]
    exact hgone.stands hkey
  | append_singleton after result ih =>
    have hstands := ih (fun other hother => hafter other (List.mem_append_left _ hother))
    have hput := stands_put hkey (cacheAfter_sound _) hstands result
    rw [← List.append_assoc, cacheAfter_concat, latestHas_concat]
    by_cases hcluster : result.source = clusterSource account region
    · have hwithout := hafter result (by simp) hcluster
      have hother : result.source ≠ instanceSource account region :=
        fun hsame => agentType_cluster_ne_instance _ _ _ _ (hcluster.symm.trans hsame)
      rw [if_pos hcluster, if_pos hcluster, hwithout] at hput
      rw [if_neg hother]
      simpa using hput
    · rw [if_neg hcluster, if_neg hcluster] at hput
      exact hput

theorem findServerGroup_eq {group : String}
    (hkey : Key.serverGroup (some group) (some account) (some region) = .ok key) (store : Memory) :
    (Views.findServerGroup store (.str account) (.str region) (.str group)).result =
      match store.get Namespace.serverGroups.name key with
      | none => .ok none
      | some entity => (Views.usableServerGroup entity).result := by
  have hlift : liftKey (Key.serverGroup (Value.str group).field? (Value.str account).field? (Value.str region).field?) =
      .ok key := congrArg liftKey hkey
  unfold Views.findServerGroup
  rw [hlift]
  have hget : (CacheStore.get store Namespace.serverGroups.name key : Traced (Option Entity)).result =
      .ok (store.get Namespace.serverGroups.name key) := rfl
  refine (Traced.result_bind rfl _).trans ((Traced.result_bind hget _).trans ?_)
  cases store.get Namespace.serverGroups.name key with
  | none => rfl
  | some entity => rfl

theorem usableServerGroup_blank (ns id : Atom) (relations : Relations) :
    ∃ found, (Views.usableServerGroup ⟨ns, id, [], relations⟩).result = .ok (some found) ∧ found.attributes = [] :=
  ⟨_, rfl, rfl⟩

/-- A server group that the cluster agent of its account and region does not have in its latest result is served
exactly when the instance agent has it in its latest result since the group was gone. What is served then has no
attributes. -/
theorem unlisted_group_served_iff_linked_since_gone {group : String}
    (hkey : Key.serverGroup (some group) (some account) (some region) = .ok key) {history : List GroupResult}
    (hlatest : latestHas (clusterSource account region) key history = false) :
    ∃ before after, history = before ++ after ∧ Gone account region key before ∧
      (∀ result ∈ after, result.source = clusterSource account region → result.has key = false) ∧
      if latestHas (instanceSource account region) key after then
        ∃ found, (Views.findServerGroup (cacheAfter history) (.str account) (.str region) (.str group)).result =
          .ok (some found) ∧ found.attributes = []
      else (Views.findServerGroup (cacheAfter history) (.str account) (.str region) (.str group)).result =
        .ok none := by
  obtain ⟨before, after, rfl, hgone, hafter⟩ := exists_gone hlatest
  refine ⟨before, after, rfl, hgone, hafter, ?_⟩
  have hstands := stands_after_gone hkey hgone hafter
  have hsound (kept : Stored)
      (hkept : (cacheAfter (before ++ after)).kept Namespace.serverGroups.name key = some kept) : kept.Sound :=
    (cacheAfter_sound _).kept hkept
  have hblank := hstands.blank rfl
  rw [findServerGroup_eq hkey, Memory.get_eq]
  cases hkept : (cacheAfter (before ++ after)).kept Namespace.serverGroups.name key with
  | none =>
    rw [hkept] at hblank
    split
    · rename_i hlinked
      rw [if_pos hlinked] at hblank
      cases hblank
    · rfl
  | some kept =>
    rw [hkept] at hblank
    split
    · rename_i hlinked
      obtain ⟨attributes, contributions, owners⟩ := kept
      rw [if_pos hlinked] at hblank
      obtain rfl : attributes = [] := Option.some.inj hblank
      exact usableServerGroup_blank _ _ _
    · rename_i hunlinked
      rw [if_neg hunlinked] at hblank
      cases hblank

end

def listingProvider (groups : List Value) (instances : List Attributes) : Provider where
  scalingGroups := .ofList groups
  scalingConfiguration _ := pure none
  loadBalancer _ := pure []
  details _ := pure []
  instances := .ofList instances
  images _ := .ofList []
  zones := .ofList []
  loadBalancers := .ofList []

/-- A server group that the cluster agent lists and then takes back, before the instance agent links it. -/
def relinkedHistory : List GroupResult :=
  [.ofCluster (listingProvider [.object [("scalingGroupName", "web-v001")]] []) "prod" "eu" 1 (by decide +kernel),
    .ofCluster (listingProvider [] []) "prod" "eu" 1 (by decide +kernel),
    .ofInstances (listingProvider []
      [[("instanceId", "i-1"), ("tags", .object [("aws:autoscaling:groupName", "web-v001")])]]) "prod" "eu"
      (by decide +kernel)]

theorem relinkedHistory_unlisted :
    latestHas (clusterSource "prod" "eu") "aws:serverGroup:prod:eu:web-v001" relinkedHistory = false := by
  decide +kernel

theorem relinkedHistory_served :
    (Views.findServerGroup (cacheAfter relinkedHistory) (.str "prod") (.str "eu") (.str "web-v001")).result ≠
      .ok none := by
  have hserved : ((Views.findServerGroup (cacheAfter relinkedHistory) (.str "prod") (.str "eu")
      (.str "web-v001")).result.toOption.bind id).isSome = true := by decide +kernel
  intro hnone
  rw [hnone] at hserved
  cases hserved

theorem unlisted_group_served_iff_linked_since_gone_relinked :
    Key.serverGroup (some "web-v001") (some "prod") (some "eu") = .ok "aws:serverGroup:prod:eu:web-v001" ∧
      latestHas (clusterSource "prod" "eu") "aws:serverGroup:prod:eu:web-v001" relinkedHistory = false ∧
      ∃ found, (Views.findServerGroup (cacheAfter relinkedHistory) (.str "prod") (.str "eu")
        (.str "web-v001")).result = .ok (some found) ∧ found.attributes = [] := by
  have hkey : Key.serverGroup (some "web-v001") (some "prod") (some "eu") = .ok "aws:serverGroup:prod:eu:web-v001" :=
    ok_of_toOption (by decide +kernel)
  refine ⟨hkey, relinkedHistory_unlisted, ?_⟩
  obtain ⟨_, _, -, -, -, hdecided⟩ := unlisted_group_served_iff_linked_since_gone hkey relinkedHistory_unlisted
  split at hdecided
  · exact hdecided
  · exact absurd hdecided relinkedHistory_served

/-- Not every server group that its cluster agent has taken back is out of sight. -/
theorem withdrawn_group_served : ¬ ∀ history : List GroupResult,
    history.any (fun result => result.source = clusterSource "prod" "eu") = true →
      latestHas (clusterSource "prod" "eu") "aws:serverGroup:prod:eu:web-v001" history = false →
        (Views.findServerGroup (cacheAfter history) (.str "prod") (.str "eu") (.str "web-v001")).result = .ok none := by
  intro hnever
  have hwritten : relinkedHistory.any (fun result => result.source = clusterSource "prod" "eu") = true := by
    decide +kernel
  exact relinkedHistory_served (hnever relinkedHistory hwritten relinkedHistory_unlisted)

end FleetCache
