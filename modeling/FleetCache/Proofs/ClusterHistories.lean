import FleetCache.Proofs.ClusterReports
import FleetCache.Proofs.CurrentReports
import FleetCache.Proofs.DroppedGroups
import FleetCache.Proofs.TextNames
import FleetCache.Proofs.WrittenEntities

set_option autoImplicit false

namespace FleetCache

open FleetCache.ClusterAgent FleetCache.Partition

theorem Report.mem_of_written {source : Atom} {types : List DataType} {report : Report} {op : Operation}
    (hop : op ∈ report.operations source types) {ns id : Atom} {entity : Entity} (h : entity ∈ op.written ns id) :
    (∃ dt ∈ declared types, (dt.ns == ns) = true) ∧ entity ∈ withId id (report.entities ns) := by
  obtain ⟨dt, hdt, rfl⟩ := List.mem_map.1 hop
  have hwritten : (report.operation source dt).written ns id =
      if dt.ns == ns then withId id (report.entities dt.ns) else [] := by
    unfold operation
    split <;> rfl
  rw [hwritten] at h
  split at h
  · rename_i hns
    refine ⟨⟨dt, hdt, hns⟩, ?_⟩
    rwa [entities, lookup_congr _ hns, ← entities] at h
  · cases h

structure ClusterResult where
  provider : Provider
  account : String
  region : String
  workers : Int
  report : Report
  loaded : (ClusterAgent.load provider account region workers).result = .ok report

namespace ClusterResult

def source (result : ClusterResult) : String :=
  clusterSource result.account result.region

def put (store : Memory) (result : ClusterResult) : Memory :=
  ((CacheStore.putReport result.source ClusterAgent.types result.report : Change Memory _) store).2

def operations (result : ClusterResult) : List Operation :=
  result.report.operations result.source ClusterAgent.types

theorem put_eq (store : Memory) (result : ClusterResult) : result.put store = store.applyAll result.operations :=
  (CacheStore.putReport_yields _ _ _ store).state_eq

theorem operation_eq (result : ClusterResult) (dt : DataType) : result.report.operation result.source dt =
    .replaceSource dt.ns result.source (result.report.entities dt.ns) dt.authority := by
  rw [Report.operation, (ClusterAgent.load_reports_groups result.loaded).1]
  rfl

def Reports (result : ClusterResult) (item : GroupData × GroupKeys) : Prop :=
  ∃ items, AllDerived result.account result.region items ∧
    result.report = reportOf result.account result.region items ∧ item ∈ items

theorem Reports.derived {result : ClusterResult} {item : GroupData × GroupKeys} (h : result.Reports item) :
    Derived result.account result.region item.1 item.2 := by
  obtain ⟨items, hderived, -, hitem⟩ := h
  exact derived_of_deriveKeys (hderived item hitem)

section

variable {ns target : Namespace} {key other : GroupKeys → String}

theorem has_iff (hids : ∀ keys : GroupKeys, keys.ids ns = [key keys]) (result : ClusterResult) (id : Atom) :
    result.report.Has ns.name id ↔ ∃ item, result.Reports item ∧ id = .str (key item.2) := by
  constructor
  · intro hhas
    obtain ⟨items, hderived, hreport⟩ := exists_items_of_load result.loaded
    rw [hreport, reportOf_eq, Report.has_iff (draws_of_derived hderived)] at hhas
    obtain ⟨item, hitem, m, hm, s, hs, rfl⟩ := hhas
    obtain rfl := Namespace.name_injective (Atom.str.inj hm)
    rw [hids, List.mem_singleton] at hs
    exact ⟨item, ⟨items, hderived, hreport, hitem⟩, congrArg Atom.str hs⟩
  · rintro ⟨item, ⟨items, hderived, hreport, hitem⟩, rfl⟩
    rw [hreport, reportOf_eq, Report.has_iff (draws_of_derived hderived)]
    refine ⟨item, hitem, ns, rfl, _, ?_, rfl⟩
    rw [hids]
    exact List.mem_singleton_self _

theorem linked_iff (hjoined : target ∈ joined ns) (hids : ∀ keys : GroupKeys, keys.ids ns = [key keys])
    (hothers : ∀ keys : GroupKeys, keys.ids target = [other keys]) (result : ClusterResult) (id id' : Atom) :
    result.report.Linked ns.name id target.name id' ↔
      ∃ item, result.Reports item ∧ id = .str (key item.2) ∧ id' = .str (other item.2) := by
  constructor
  · intro hlinked
    obtain ⟨items, hderived, hreport⟩ := exists_items_of_load result.loaded
    rw [hreport, reportOf_eq, Report.linked_joined_iff (draws_of_derived hderived) hjoined] at hlinked
    obtain ⟨item, hitem, ⟨s, hs, rfl⟩, t, ht, rfl⟩ := hlinked
    rw [hids, List.mem_singleton] at hs
    rw [hothers, List.mem_singleton] at ht
    exact ⟨item, ⟨items, hderived, hreport, hitem⟩, congrArg Atom.str hs, congrArg Atom.str ht⟩
  · rintro ⟨item, ⟨items, hderived, hreport, hitem⟩, rfl, rfl⟩
    rw [hreport, reportOf_eq, Report.linked_joined_iff (draws_of_derived hderived) hjoined]
    refine ⟨item, hitem, ⟨_, ?_, rfl⟩, _, ?_, rfl⟩
    · rw [hids]
      exact List.mem_singleton_self _
    · rw [hothers]
      exact List.mem_singleton_self _

end

end ClusterResult

def clusterCache (history : List ClusterResult) : Memory :=
  history.foldl ClusterResult.put Memory.empty

def clusterOperations (history : List ClusterResult) : List Operation :=
  history.flatMap ClusterResult.operations

theorem clusterCache_eq (history : List ClusterResult) :
    clusterCache history = Memory.after (clusterOperations history) :=
  Memory.foldl_applyAll (fun store result => result.put_eq store) history Memory.empty

def latestResults (history : List ClusterResult) : List ClusterResult :=
  history.foldl (fun latest result => latest.filter (fun old => old.source ≠ result.source) ++ [result]) []

theorem latestResults_concat (history : List ClusterResult) (result : ClusterResult) :
    latestResults (history ++ [result]) =
      (latestResults history).filter (fun old => old.source ≠ result.source) ++ [result] := by
  rw [latestResults, List.foldl_append]
  rfl

def IsUpper (ns : Namespace) : Prop :=
  ns = .applications ∨ ns = .clusters

theorem currentReport_operations {ns : Namespace} (hns : IsUpper ns) (source : Atom) (history : List ClusterResult)
    (result : ClusterResult) : currentReport ns.name source (clusterOperations (history ++ [result])) =
      if Atom.str result.source == source then result.report.entities ns.name
      else currentReport ns.name source (clusterOperations history) := by
  rw [clusterOperations, List.flatMap_append, List.flatMap_singleton, ClusterResult.operations, Report.operations,
    funext result.operation_eq, currentReport, List.foldl_append]
  rcases hns with rfl | rfl <;> rfl

theorem mem_currentReport {ns : Namespace} (hns : IsUpper ns) (source : Atom) (history : List ClusterResult)
    (entity : Entity) : entity ∈ currentReport ns.name source (clusterOperations history) ↔
      ∃ result ∈ latestResults history, (Atom.str result.source == source) = true ∧
        entity ∈ result.report.entities ns.name := by
  -- on the last result, which counts for its source
  induction history using List.reverseRecOn with
  | nil => exact iff_of_false List.not_mem_nil (fun ⟨_, hnone, _⟩ => List.not_mem_nil hnone)
  | append_singleton history result ih =>
    rw [currentReport_operations hns, latestResults_concat]
    constructor
    · intro h
      split at h
      · rename_i hsource
        exact ⟨result, List.mem_append_right _ List.mem_cons_self, hsource, h⟩
      · rename_i hother
        obtain ⟨old, hold, hsource, hentity⟩ := ih.1 h
        have hne : old.source ≠ result.source := fun hsame => hother (hsame ▸ hsource)
        exact ⟨old, List.mem_append_left _ (List.mem_filter.2 ⟨hold, by simpa using hne⟩), hsource, hentity⟩
    · rintro ⟨old, hold, hsource, hentity⟩
      rcases List.mem_append.1 hold with hearlier | hlast
      · obtain ⟨hmem, hne⟩ := List.mem_filter.1 hearlier
        have hother : ¬ (Atom.str result.source == source) = true := by
          intro hresult
          have hsame := BEq.trans hsource (BEq.symm hresult)
          rw [Atom.str_beq_str, beq_iff_eq] at hsame
          simp [hsame] at hne
        rw [if_neg hother]
        exact ih.2 ⟨old, hmem, hsource, hentity⟩
      · obtain rfl := List.mem_singleton.1 hlast
        rw [if_pos hsource]
        exact hentity

theorem authoritative_of_upper {ns : Namespace} (hns : IsUpper ns) (history : List ClusterResult) :
    ∀ op ∈ clusterOperations history, (op.ns == .str ns.name) = true → op.Authoritative := by
  have hdeclared : ∀ dt ∈ declared ClusterAgent.types,
      (dt.ns == .str ns.name) = true → dt.authority = .authoritative := by
    rcases hns with rfl | rfl <;> decide
  intro op hop hsame
  obtain ⟨result, -, hmem⟩ := List.mem_flatMap.1 hop
  obtain ⟨dt, hdt, rfl⟩ := List.mem_map.1 hmem
  rw [result.operation_eq] at hsame ⊢
  exact hdeclared dt hdt hsame

theorem mem_withId_currentReport {ns : Namespace} (hns : IsUpper ns) (history : List ClusterResult) (id : Atom)
    (P : Entity → Prop) :
    (∃ source, ∃ entity ∈ withId id (currentReport ns.name source (clusterOperations history)), P entity) ↔
      ∃ result ∈ latestResults history, ∃ entity ∈ result.report.entities ns.name,
        (entity.id == id) = true ∧ P entity := by
  simp only [withId, List.mem_filter, mem_currentReport hns]
  constructor
  · rintro ⟨source, entity, ⟨⟨result, hresult, -, hentity⟩, hid⟩, hP⟩
    exact ⟨result, hresult, entity, hentity, hid, hP⟩
  · rintro ⟨result, hresult, entity, hentity, hid, hP⟩
    exact ⟨result.source, entity, ⟨⟨result, hresult, BEq.rfl, hentity⟩, hid⟩, hP⟩

theorem get_isSome_iff_latest {ns : Namespace} (hns : IsUpper ns) (history : List ClusterResult) (id : Atom) :
    ((clusterCache history).get ns.name id).isSome = true ↔
      ∃ result ∈ latestResults history, result.report.Has ns.name id := by
  have hfollows := follows_currentReport (authoritative_of_upper hns history) id
  have hlatest := mem_withId_currentReport hns history id (fun _ => True)
  simp only [and_true] at hlatest
  rw [clusterCache_eq, Memory.get_eq, Option.isSome_map]
  -- what is kept follows the current reports of the sources, and these are in the latest results
  refine Iff.trans ?_ hlatest
  cases hkept : (Memory.after (clusterOperations history)).kept ns.name id with
  | none =>
    rw [hkept] at hfollows
    refine iff_of_false (by simp) (fun ⟨source, entity, hentity⟩ => ?_)
    rw [hfollows.eq_nil source] at hentity
    cases hentity
  | some kept =>
    rw [hkept] at hfollows
    obtain ⟨source, hsource⟩ := ((Memory.after_sound _).kept hkept).contributed
    refine iff_of_true rfl ⟨source, ?_⟩
    obtain ⟨entity, hentity⟩ := List.exists_mem_of_ne_nil _ ((hfollows.contributed source).1 hsource)
    exact ⟨entity, hentity⟩

theorem mem_related_iff_latest {ns : Namespace} (hns : IsUpper ns) {history : List ClusterResult} {id : Atom}
    {found : Entity} (hfound : (clusterCache history).get ns.name id = some found) (target other : Atom) :
    other ∈ found.related target ↔ ∃ result ∈ latestResults history, result.report.Linked ns.name id target other := by
  have hfollows := follows_currentReport (authoritative_of_upper hns history) id
  rw [clusterCache_eq, Memory.get_eq, Option.map_eq_some_iff] at hfound
  obtain ⟨kept, hkept, rfl⟩ := hfound
  rw [hkept] at hfollows
  refine Iff.trans ?_ (mem_withId_currentReport hns history id (fun entity => other ∈ entity.related target))
  change other ∈ kept.contributions.merged.related target ↔ _
  rw [Contributions.mem_related_merged]
  exact exists_congr fun source => hfollows.related source target other

/-- A cluster of an application that one of the latest results of an account has, with its key. -/
def HasCluster (history : List ClusterResult) (account application key : String) : Prop :=
  ∃ result ∈ latestResults history, result.account = account ∧
    ∃ item, result.Reports item ∧ item.2.names.app = application ∧ item.2.cluster = key

theorem HasCluster.encode {history : List ClusterResult} {account application key : String}
    (h : HasCluster history account application key) :
    ∃ name, Key.encode .clusters ([account, application, name].map some) = .ok key := by
  obtain ⟨result, -, rfl, item, hitem, rfl, rfl⟩ := h
  exact ⟨_, hitem.derived.cluster⟩

theorem cluster_stored_iff (history : List ClusterResult) (id : Atom) :
    ((clusterCache history).get Namespace.clusters.name id).isSome = true ↔
      ∃ account application key, HasCluster history account application key ∧ id = .str key := by
  rw [get_isSome_iff_latest (.inr rfl)]
  simp only [ClusterResult.has_iff (fun keys => (rfl : keys.ids .clusters = [keys.cluster]))]
  constructor
  · rintro ⟨result, hresult, item, hitem, rfl⟩
    exact ⟨_, _, _, ⟨result, hresult, rfl, item, hitem, rfl, rfl⟩, rfl⟩
  · rintro ⟨account, application, key, ⟨result, hresult, -, item, hitem, -, rfl⟩, rfl⟩
    exact ⟨result, hresult, item, hitem, rfl⟩

theorem application_eq_iff {account region : String} {data : GroupData} {keys : GroupKeys}
    (h : Derived account region data keys) {application applicationKey : String}
    (hkey : Key.application (some application) = .ok applicationKey) :
    keys.application = applicationKey ↔ keys.names.app = application := by
  constructor
  · rintro rfl
    have hencoded : Key.encode .applications ([application].map some) = .ok keys.application := hkey
    have hfields := h.decode_application.symm.trans (Key.decode_of_texts hencoded)
    simpa using hfields
  · rintro rfl
    exact Except.ok.inj (h.application.symm.trans hkey)

theorem application_stored_iff (history : List ClusterResult) {application applicationKey : String}
    (hkey : Key.application (some application) = .ok applicationKey) :
    ((clusterCache history).get Namespace.applications.name applicationKey).isSome = true ↔
      ∃ account key, HasCluster history account application key := by
  rw [get_isSome_iff_latest (.inl rfl)]
  simp only [ClusterResult.has_iff (fun keys => (rfl : keys.ids .applications = [keys.application]))]
  constructor
  · rintro ⟨result, hresult, item, hitem, hsame⟩
    have happ := (application_eq_iff hitem.derived hkey).1 (Atom.str.inj hsame).symm
    exact ⟨_, _, result, hresult, rfl, item, hitem, happ, rfl⟩
  · rintro ⟨account, key, result, hresult, -, item, hitem, happ, -⟩
    have hsame := (application_eq_iff hitem.derived hkey).2 happ
    exact ⟨result, hresult, item, hitem, congrArg Atom.str hsame.symm⟩

theorem mem_related_clusters_iff {history : List ClusterResult} {application applicationKey : String}
    (hkey : Key.application (some application) = .ok applicationKey) {found : Entity}
    (hfound : (clusterCache history).get Namespace.applications.name applicationKey = some found) (other : Atom) :
    other ∈ found.related Namespace.clusters.name ↔
      ∃ account key, HasCluster history account application key ∧ other = .str key := by
  rw [mem_related_iff_latest (.inl rfl) hfound]
  simp only [ClusterResult.linked_iff List.mem_cons_self
    (fun keys => (rfl : keys.ids .applications = [keys.application]))
    (fun keys => (rfl : keys.ids .clusters = [keys.cluster]))]
  constructor
  · rintro ⟨result, hresult, item, hitem, hsame, rfl⟩
    have happ := (application_eq_iff hitem.derived hkey).1 (Atom.str.inj hsame).symm
    exact ⟨_, _, ⟨result, hresult, rfl, item, hitem, happ, rfl⟩, rfl⟩
  · rintro ⟨account, key, ⟨result, hresult, -, item, hitem, happ, rfl⟩, rfl⟩
    have hsame := (application_eq_iff hitem.derived hkey).2 happ
    exact ⟨result, hresult, item, hitem, congrArg Atom.str hsame.symm, rfl⟩

theorem exists_result_of_written {history : List ClusterResult} {ns id : Atom} {op : Operation}
    (hop : op ∈ clusterOperations history) {entity : Entity} (hentity : entity ∈ op.written ns id) :
    ∃ result ∈ history, entity ∈ withId id (result.report.entities ns) := by
  obtain ⟨result, hresult, hmem⟩ := List.mem_flatMap.1 hop
  exact ⟨result, hresult, (Report.mem_of_written hmem hentity).2⟩

theorem related_isText {history : List ClusterResult} {ns id : Atom} {found : Entity}
    (hfound : (clusterCache history).get ns id = some found) (target : Atom) :
    AtomSet.Textual (found.related target) := by
  intro other hother
  rw [clusterCache_eq] at hfound
  obtain ⟨op, hop, entity, hentity, hrelated⟩ := Memory.exists_written_of_related hfound hother
  obtain ⟨result, -, hwritten⟩ := exists_result_of_written hop hentity
  obtain ⟨hmem, hid⟩ := List.mem_filter.1 hwritten
  have hlinked : result.report.Linked ns id target other := ⟨entity, hmem, hid, hrelated⟩
  obtain ⟨items, hderived, hreport⟩ := exists_items_of_load result.loaded
  rw [hreport, reportOf_eq, Report.linked_iff (draws_of_derived hderived)] at hlinked
  obtain ⟨_, _, _, _, _, _, _, _, _, _, rfl⟩ := hlinked
  rfl

theorem lookup_account_of_isAbout {account region : String} {item : GroupData × GroupKeys} {c : Contribution}
    (hc : c ∈ contributionsOf account region item) {id : Atom} (habout : c.isAbout Namespace.clusters.name id = true)
    (old : Attributes) : (Attributes.update old c.attributes).lookup (.str "account") = some (.str account) := by
  simp only [contributionsOf, mainContributions, configContributions, instanceContributions, balancerContributions,
    List.mem_append, List.mem_cons, List.not_mem_nil, or_false, List.mem_map, List.mem_filterMap,
    Option.map_eq_some_iff] at hc
  obtain (rfl | rfl | rfl) | ⟨_, -, rfl⟩ | ⟨_, -, rfl⟩ | ⟨_, -, _, -, rfl⟩ := hc
  · cases habout
  · exact (lookup_put _ _ _ _).trans (if_pos BEq.rfl)
  · cases habout
  · cases habout
  · cases habout
  · cases habout

theorem account_of_cluster {history : List ClusterResult} {account application name key : String}
    (hkey : Key.encode .clusters ([account, application, name].map some) = .ok key) {found : Entity}
    (hfound : (clusterCache history).get Namespace.clusters.name key = some found) {value : Value}
    (hvalue : found.attributes.lookup (.str "account") = some value) : value = .str account := by
  rw [clusterCache_eq] at hfound
  obtain ⟨op, hop, entity, hentity, hwrote⟩ := Memory.exists_written_of_lookup hfound hvalue
  obtain ⟨result, -, hwritten⟩ := exists_result_of_written hop hentity
  obtain ⟨items, hderived, hreport⟩ := exists_items_of_load result.loaded
  obtain ⟨hmem, hid⟩ := List.mem_filter.1 hwritten
  have hhas : result.report.Has Namespace.clusters.name key := ⟨entity, hmem, hid⟩
  rw [ClusterResult.has_iff (fun keys => (rfl : keys.ids .clusters = [keys.cluster]))] at hhas
  rw [hreport, reportOf_eq, Report.withId_ofContributions, Option.mem_toList] at hwritten
  have hset : entity.attributes.lookup (.str "account") = some (.str result.account) := by
    refine Contribution.lookup_attributes_entityOf (fun c hc habout old => ?_) hwritten
    obtain ⟨item, -, hitem⟩ := List.mem_flatMap.1 hc
    exact lookup_account_of_isAbout hitem habout old
  have haccount : result.account = account := by
    obtain ⟨item, hitem, hsame⟩ := hhas
    obtain rfl := Atom.str.inj hsame
    have hfields := hitem.derived.decode_cluster.symm.trans (Key.decode_of_texts hkey)
    simp only [Except.ok.injEq, Key.mk.injEq, List.cons.injEq, true_and] at hfields
    exact hfields.1
  rw [← haccount]
  exact Option.some.inj (hwrote.symm.trans hset)

end FleetCache
