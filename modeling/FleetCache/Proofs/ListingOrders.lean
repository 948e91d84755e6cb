import Mathlib.Data.List.Nodup
import Mathlib.Data.List.Perm.Basic
import FleetCache.Proofs.AgentGraphs
import FleetCache.Proofs.AttributeUpdates
import FleetCache.Proofs.GroupOutcomes
/-!
Listings in another order. Scaling groups with names of their own come to the same report whatever order they are listed
in, as far as the entities and their edges go. The attributes of an application, a cluster or a server group do not
depend on the order either, as equal keys of these come from equal names.
-/
set_option autoImplicit false

namespace FleetCache

open FleetCache.Json (DistinctNames)
open FleetCache.Partition (withId)

namespace Contribution

structure Settled (contributions : List Contribution) (ns : Atom) : Prop where
  distinct : ∀ c ∈ contributions, (c.ns == ns) = true → DistinctNames c.attributes
  same : ∀ c ∈ contributions, ∀ c' ∈ contributions, ∀ id, c.isAbout ns id = true → c'.isAbout ns id = true →
    c'.attributes = c.attributes

theorem Settled.attributes_entityOf {contributions : List Contribution} {ns id : Atom} (h : Settled contributions ns)
    {c : Contribution} (hc : c ∈ contributions) (habout : c.isAbout ns id = true) {entity : Entity}
    (hentity : entityOf contributions ns id = some entity) : entity.attributes = c.attributes := by
  have hns : (c.ns == ns) = true := by
    rw [isAbout, Bool.and_eq_true] at habout
    exact habout.1
  have hsame : ∀ record ∈ (contributions.filter (isAbout ns id)).map attributes, record = c.attributes := by
    intro record hrecord
    obtain ⟨other, hother, rfl⟩ := List.mem_map.1 hrecord
    obtain ⟨hmem, hother⟩ := List.mem_filter.1 hother
    exact h.same c hc other hmem id habout hother
  have hmem : c.attributes ∈ (contributions.filter (isAbout ns id)).map attributes :=
    List.mem_map_of_mem (List.mem_filter.2 ⟨hc, habout⟩)
  rw [Contribution.attributes_entityOf hentity, ← List.dropLast_concat_getLast (List.ne_nil_of_mem hmem),
    hsame _ (List.getLast_mem _)]
  exact Attributes.foldl_update_concat (h.distinct c hc hns)
    (fun record hrecord => congrArg Attributes.names (hsame record (List.dropLast_subset _ hrecord)))

end Contribution

namespace Report

/-- Two reports with the same entities, each once, and the same edges; those of some namespaces have the same attributes
as well. -/
structure SameGraph (settled : List Namespace) (report other : Report) : Prop where
  single : ∀ ns id, (withId id (report.entities ns)).length ≤ 1 ∧ (withId id (other.entities ns)).length ≤ 1
  ids : ∀ ns id, report.Has ns id ↔ other.Has ns id
  edges : ∀ ns id target last, report.Linked ns id target last ↔ other.Linked ns id target last
  attributes : ∀ ns ∈ settled, ∀ entity ∈ report.entities ns.name, ∀ entity' ∈ other.entities ns.name,
    (entity.id == entity'.id) = true → entity.attributes = entity'.attributes

theorem sameGraph_ofContributions (types : List DataType) {contributions others : List Contribution}
    (hsame : ∀ c, c ∈ contributions ↔ c ∈ others) {settled : List Namespace}
    (hsettled : ∀ ns ∈ settled, Contribution.Settled contributions ns.name) :
    SameGraph settled (ofContributions types contributions) (ofContributions types others) where
  single ns id := by
    have hsingle (found : Option Entity) : found.toList.length ≤ 1 := by
      cases found <;> simp
    rw [withId_ofContributions, withId_ofContributions]
    exact ⟨hsingle _, hsingle _⟩
  ids ns id := by
    simp only [has_ofContributions, hsame]
  edges ns id target last := by
    simp only [linked_ofContributions, hsame]
  attributes ns hns entity hentity entity' hentity' hid := by
    have hfound := entityOf_of_mem hentity hid
    have hfound' := entityOf_of_mem hentity' BEq.rfl
    obtain ⟨c, hc, habout⟩ := (Contribution.entityOf_isSome contributions ns.name entity'.id).1 (by rw [hfound]; rfl)
    have hothers : Contribution.Settled others ns.name := by
      refine ⟨fun c hc => (hsettled ns hns).distinct c ((hsame c).2 hc), fun c hc c' hc' => ?_⟩
      exact (hsettled ns hns).same c ((hsame c).2 hc) c' ((hsame c').2 hc')
    rw [(hsettled ns hns).attributes_entityOf hc habout hfound,
      hothers.attributes_entityOf ((hsame c).1 hc) habout hfound']

end Report

namespace ClusterAgent

variable {provider : Provider} {account region : String}

theorem exists_outcomes_of_perm {groups groups' : List Value} (hperm : groups.Perm groups')
    {found : List (Option (GroupData × GroupKeys))}
    (h : groups.mapM (outcome provider account region) = .ok found) :
    ∃ found', groups'.mapM (outcome provider account region) = .ok found' ∧ found'.Perm found := by
  obtain ⟨found', houtcomes, hfound⟩ := List.perm_comp_forall₂ hperm.symm (Except.forall₂_of_mapM h)
  have hall := mapM_forall₂ (g := id) houtcomes
  rw [List.map_id] at hall
  exact ⟨found', hall, hfound⟩

theorem allDerived_of_outcomes {groups : List Value} {found : List (Option (GroupData × GroupKeys))}
    (h : groups.mapM (outcome provider account region) = .ok found) : AllDerived account region found.reduceOption := by
  intro item hitem
  obtain ⟨group, -, houtcome⟩ := Except.exists_of_mapM h (List.reduceOption_mem_iff.1 hitem)
  exact derived_of_outcome houtcome

theorem names_sublist_of_outcomes {groups : List Value} {found : List (Option (GroupData × GroupKeys))}
    (h : groups.mapM (outcome provider account region) = .ok found) :
    (found.reduceOption.map (fun item => item.2.names.group)).Sublist (groups.filterMap Value.groupName?) := by
  have houtcomes := Except.forall₂_of_mapM h
  induction houtcomes with
  | nil => exact List.Sublist.slnil
  | @cons group head rest others hhead _ ih =>
    have hrest := ih (by simpa using mapM_forall₂ (g := id) ‹_›)
    cases head with
    | none => exact hrest.trans ((List.sublist_cons_self group rest).filterMap _)
    | some item =>
      rw [List.filterMap_cons_some (groupName?_of_prepare (prepare_of_outcome hhead)), List.reduceOption_cons_of_some]
      exact hrest.cons_cons _

def mainAttributes (account region : String) (item : GroupData × GroupKeys) : Namespace → Attributes
  | .applications => [("name", .str item.2.names.app)]
  | .clusters =>
    [("name", .str item.2.names.cluster), ("application", .str item.2.names.app), ("account", .str account)]
  | .serverGroups => groupAttributes account region item.1 item.2
  | _ => []

def mainNamespaces : List Namespace :=
  [.applications, .clusters, .serverGroups]

theorem distinctNames_mainAttributes (account region : String) (item : GroupData × GroupKeys) (ns : Namespace) :
    DistinctNames (mainAttributes account region item ns) := by
  have hdistinct (members : Attributes) (names : List Atom) (hnames : members.map Prod.fst = names)
      (h : names.Pairwise (fun a b => (a == b) = false)) : DistinctNames members := by
    subst hnames
    exact List.pairwise_map.1 h
  -- the names are fixed, so that they differ can be computed
  cases ns with
  | applications => exact hdistinct _ ["name"] rfl (by decide)
  | clusters => exact hdistinct _ ["name", "application", "account"] rfl (by decide)
  | serverGroups =>
    exact hdistinct _ ["name", "application", "cluster", "stack", "detail", "account", "region", "provider",
      "scalingGroup", "scalingConfiguration", "launchConfigName", "instances", "loadBalancers"] rfl (by decide +kernel)
  | _ => exact List.Pairwise.nil

theorem exists_ns_of_mem_contributionsOf {item : GroupData × GroupKeys} {c : Contribution}
    (hc : c ∈ contributionsOf account region item) :
    ∃ ns : Namespace, c.ns = .str ns.name ∧
      (ns ∈ mainNamespaces →
        c.attributes = mainAttributes account region item ns ∧ ∃ key ∈ item.2.ids ns, c.id = .str key) := by
  simp only [contributionsOf, mainContributions, configContributions, instanceContributions, balancerContributions,
    List.mem_append, List.mem_cons, List.not_mem_nil, or_false, List.mem_map, List.mem_filterMap,
    Option.map_eq_some_iff] at hc
  obtain (rfl | rfl | rfl) | ⟨_, -, rfl⟩ | ⟨_, -, rfl⟩ | ⟨_, -, _, -, rfl⟩ := hc
  · exact ⟨.applications, rfl, fun _ => ⟨rfl, _, List.mem_cons_self, rfl⟩⟩
  · exact ⟨.clusters, rfl, fun _ => ⟨rfl, _, List.mem_cons_self, rfl⟩⟩
  · exact ⟨.serverGroups, rfl, fun _ => ⟨rfl, _, List.mem_cons_self, rfl⟩⟩
  · exact ⟨.launchConfigs, rfl, fun hmain => absurd hmain (by decide)⟩
  · exact ⟨.instances, rfl, fun hmain => absurd hmain (by decide)⟩
  · exact ⟨.loadBalancers, rfl, fun hmain => absurd hmain (by decide)⟩

theorem attributes_of_mem_contributionsOf {item : GroupData × GroupKeys} {c : Contribution}
    (hc : c ∈ contributionsOf account region item) {ns : Namespace} (hns : ns ∈ mainNamespaces)
    (h : (c.ns == ns.name) = true) :
    c.attributes = mainAttributes account region item ns ∧ ∃ key ∈ item.2.ids ns, c.id = .str key := by
  obtain ⟨other, hother, hmain⟩ := exists_ns_of_mem_contributionsOf hc
  rw [hother, Atom.str_beq_str, beq_iff_eq] at h
  obtain rfl := Namespace.name_injective h
  exact hmain hns

theorem mainAttributes_eq_of_key {items : List (GroupData × GroupKeys)} (hderived : AllDerived account region items)
    (hnames : (items.map (fun item => item.2.names.group)).Nodup) {item item' : GroupData × GroupKeys}
    (hitem : item ∈ items) (hitem' : item' ∈ items) {ns : Namespace} (hns : ns ∈ mainNamespaces) {key : String}
    (hkey : key ∈ item.2.ids ns) (hkey' : key ∈ item'.2.ids ns) :
    mainAttributes account region item' ns = mainAttributes account region item ns := by
  have h := derived_of_deriveKeys (hderived item hitem)
  have h' := derived_of_deriveKeys (hderived item' hitem')
  simp only [mainNamespaces, List.mem_cons, List.not_mem_nil, or_false] at hns
  obtain rfl | rfl | rfl := hns
  · have hsame : item.2.application = item'.2.application := by
      rw [← List.mem_singleton.1 hkey, ← List.mem_singleton.1 hkey']
    have hfields := h.decode_application.symm.trans (hsame ▸ h'.decode_application)
    have happ : item.2.names.app = item'.2.names.app := by simpa using hfields
    rw [mainAttributes, mainAttributes, happ]
  · have hsame : item.2.cluster = item'.2.cluster := by
      rw [← List.mem_singleton.1 hkey, ← List.mem_singleton.1 hkey']
    have hfields := h.decode_cluster.symm.trans (hsame ▸ h'.decode_cluster)
    have happ : item.2.names.app = item'.2.names.app ∧ item.2.names.cluster = item'.2.names.cluster := by
      simpa using hfields
    rw [mainAttributes, mainAttributes, happ.1, happ.2]
  · have hsame : item.2.serverGroup = item'.2.serverGroup := by
      rw [← List.mem_singleton.1 hkey, ← List.mem_singleton.1 hkey']
    -- here equal keys mean equal names, and so one and the same group of the listing
    rw [List.inj_on_of_nodup_map hnames hitem hitem' (serverGroup_injective hderived hitem hitem' hsame)]

theorem settled_contributions {items : List (GroupData × GroupKeys)} (hderived : AllDerived account region items)
    (hnames : (items.map (fun item => item.2.names.group)).Nodup) {ns : Namespace} (hns : ns ∈ mainNamespaces) :
    Contribution.Settled (items.flatMap (contributionsOf account region)) ns.name where
  distinct c hc habout := by
    obtain ⟨item, -, hmem⟩ := List.mem_flatMap.1 hc
    rw [(attributes_of_mem_contributionsOf hmem hns habout).1]
    exact distinctNames_mainAttributes account region item ns
  same c hc c' hc' id habout habout' := by
    obtain ⟨item, hitem, hmem⟩ := List.mem_flatMap.1 hc
    obtain ⟨item', hitem', hmem'⟩ := List.mem_flatMap.1 hc'
    rw [Contribution.isAbout, Bool.and_eq_true] at habout habout'
    obtain ⟨hattributes, key, hkey, hid⟩ := attributes_of_mem_contributionsOf hmem hns habout.1
    obtain ⟨hattributes', key', hkey', hid'⟩ := attributes_of_mem_contributionsOf hmem' hns habout'.1
    obtain rfl : key = key' := by
      have hsame := BEq.trans habout.2 (BEq.symm habout'.2)
      rwa [hid, hid', Atom.str_beq_str, beq_iff_eq] at hsame
    rw [hattributes, hattributes', mainAttributes_eq_of_key hderived hnames hitem hitem' hns hkey hkey']

/-- Whatever order scaling groups with names of their own are listed in, a run that succeeds on them reports the same
entities and edges, and its applications, clusters and server groups have the same attributes. -/
theorem load_of_perm {workers : Int} {groups groups' : List Value} (hnames : (groups.filterMap Value.groupName?).Nodup)
    (hperm : groups.Perm groups') {report : Report}
    (h : (load (provider.relisted groups) account region workers).result = .ok report) :
    ∃ report', (load (provider.relisted groups') account region workers).result = .ok report' ∧
      Report.SameGraph mainNamespaces report report' := by
  have hworkers := pos_of_load h
  rw [load_result hworkers (Listing.collect_ok rfl), outcome_relisted] at h
  obtain ⟨found, hfound, rfl⟩ := exists_of_map h
  obtain ⟨found', hfound', hsame⟩ := exists_outcomes_of_perm hperm hfound
  refine ⟨reportOf account region found'.reduceOption, ?_, ?_⟩
  · rw [load_result hworkers (Listing.collect_ok rfl), outcome_relisted]
    exact congrArg (Except.map _) hfound'
  · have hitems : (found'.reduceOption).Perm found.reduceOption := hsame.filterMap id
    rw [reportOf_eq, reportOf_eq]
    refine Report.sameGraph_ofContributions types (fun c => (hitems.flatMap_right _).mem_iff.symm) (fun ns hns => ?_)
    exact settled_contributions (allDerived_of_outcomes hfound) (hnames.sublist (names_sublist_of_outcomes hfound)) hns

/-- Two groups that share a load balancer, and one without a name. -/
def sharingGroups : List Value :=
  [.object [("scalingGroupName", "web-v001"), ("loadBalancerIds", .strings ["front"])],
    .object [("loadBalancerIds", .strings ["front"])],
    .object [("scalingGroupName", "web-v002"), ("loadBalancerIds", .strings ["front", "gone"])]]

theorem load_of_perm_reversed :
    ∃ report, (load (sharingProvider.relisted sharingGroups) "prod" "eu" 1).result = .ok report ∧
      (report.entities Namespace.serverGroups.name).length = 2 ∧
      ∃ report', (load (sharingProvider.relisted sharingGroups.reverse) "prod" "eu" 1).result = .ok report' ∧
        Report.SameGraph mainNamespaces report report' := by
  have htwo : (load (sharingProvider.relisted sharingGroups) "prod" "eu" 1).result.toOption.map
      (fun report => (report.entities Namespace.serverGroups.name).length) = some 2 := by decide +kernel
  obtain ⟨report, hreport, htwo⟩ := Option.map_eq_some_iff.1 htwo
  have hloaded := ok_of_toOption hreport
  exact ⟨report, hloaded, htwo, load_of_perm (by decide +kernel) (List.reverse_perm _).symm hloaded⟩

end ClusterAgent

end FleetCache
