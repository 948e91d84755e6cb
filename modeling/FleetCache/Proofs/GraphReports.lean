import FleetCache.Proofs.AccountReports
import FleetCache.Proofs.ServedGroups
import FleetCache.Proofs.StoreEquivalence

set_option autoImplicit false

namespace FleetCache

open FleetCache.Json

theorem Relations.TextualGroups.nil : TextualGroups [] :=
  fun _ hnone => absurd hnone List.not_mem_nil

theorem Relations.TextualGroups.cons {groups : List (Atom × List Atom)} (h : TextualGroups groups) (ns : Namespace)
    {ids : List Atom} (hids : ∀ id ∈ ids, id.isText = true) : TextualGroups ((.str ns.name, ids) :: groups) :=
  List.forall_mem_cons.2 ⟨⟨rfl, hids⟩, h⟩

namespace Contribution

structure Textual (c : Contribution) : Prop where
  id : c.id.isText = true
  groups : Relations.TextualGroups c.groups

theorem textual_entityOf {contributions : List Contribution} (h : ∀ c ∈ contributions, c.Textual) {ns id : Atom}
    {entity : Entity} (hentity : entityOf contributions ns id = some entity) :
    entity.id.isText = true ∧ entity.relations.Textual := by
  refine List.foldlRecOn (motive := fun old : Option Entity =>
    ∀ entity, old = some entity → entity.id.isText = true ∧ entity.relations.Textual)
    (contributions.filter (isAbout ns id)) _ (fun _ hnone => by cases hnone) ?_ entity hentity
  rintro old hold c hc _ ⟨⟩
  have htextual := h c (List.mem_filter.1 hc).1
  cases old with
  | none => exact ⟨htextual.id, Relations.textual_relateAll Relations.textual_empty htextual.groups⟩
  | some before =>
    obtain ⟨hid, hrelations⟩ := hold before rfl
    exact ⟨hid, Relations.textual_relateAll hrelations htextual.groups⟩

end Contribution

namespace Report

def Textual (types : List DataType) (report : Report) : Prop :=
  ∀ dt ∈ declared types, dt.ns.isText = true ∧ ∀ entity ∈ report.entities dt.ns, entity.Textual

def Plain (types : List DataType) (report : Report) : Prop :=
  ∀ dt ∈ declared types, ∀ entity ∈ report.entities dt.ns, PlainAttributes entity.attributes

instance (types : List DataType) (report : Report) : Decidable (report.Plain types) :=
  inferInstanceAs (Decidable (∀ dt ∈ declared types, ∀ entity ∈ report.entities dt.ns, _))

def NamesTexts (types : List DataType) (report : Report) : Prop :=
  ∃ contributions : List Contribution, (∀ c ∈ contributions, c.Textual) ∧ report = ofContributions types contributions

theorem NamesTexts.textual {types : List DataType} {report : Report} (h : report.NamesTexts types)
    (htypes : ∀ dt ∈ declared types, dt.ns.isText = true) (hplain : report.Plain types) : report.Textual types := by
  obtain ⟨contributions, htexts, rfl⟩ := h
  refine fun dt hdt => ⟨htypes dt hdt, fun entity hentity => ?_⟩
  have hwith : entity ∈ Partition.withId entity.id ((ofContributions types contributions).entities dt.ns) :=
    List.mem_filter.2 ⟨hentity, BEq.rfl⟩
  rw [withId_ofContributions, Option.mem_toList] at hwith
  obtain ⟨hid, hrelations⟩ := Contribution.textual_entityOf htexts hwith
  exact ⟨hid, hplain dt hdt entity hentity, hrelations⟩

end Report

open Relations (TextualGroups)

theorem isText_of_mem_map {texts : List String} : ∀ id ∈ texts.map Atom.str, id.isText = true := by
  intro id hid
  obtain ⟨text, -, rfl⟩ := List.mem_map.1 hid
  rfl

theorem isText_of_mem_singleton {text : String} : ∀ id ∈ [Atom.str text], id.isText = true :=
  List.forall_mem_singleton.2 rfl

namespace ClusterAgent

theorem textual_contributionsOf (account region : String) (item : GroupData × GroupKeys) :
    ∀ c ∈ contributionsOf account region item, c.Textual := by
  obtain ⟨data, keys⟩ := item
  have hback : TextualGroups (backEdge keys) := TextualGroups.nil.cons .serverGroups isText_of_mem_singleton
  have hbalancers : ∀ id ∈ keys.balancerIds, id.isText = true := balancerIds_eq keys ▸ isText_of_mem_map
  have hlaunch : TextualGroups (launchEdge keys) := by
    unfold launchEdge
    split
    · exact TextualGroups.nil.cons .launchConfigs isText_of_mem_singleton
    · exact TextualGroups.nil
  intro c hc
  simp only [contributionsOf, mainContributions, configContributions, instanceContributions, balancerContributions,
    List.mem_append, List.mem_cons, List.not_mem_nil, or_false, List.mem_map, List.mem_filterMap,
    Option.map_eq_some_iff] at hc
  obtain (rfl | rfl | rfl) | ⟨key, -, rfl⟩ | ⟨item, -, rfl⟩ | ⟨record, -, key, -, rfl⟩ := hc
  · exact ⟨rfl, ((TextualGroups.nil.cons .loadBalancers hbalancers).cons .serverGroups isText_of_mem_singleton).cons
      .clusters isText_of_mem_singleton⟩
  · exact ⟨rfl, ((TextualGroups.nil.cons .loadBalancers hbalancers).cons .serverGroups isText_of_mem_singleton).cons
      .applications isText_of_mem_singleton⟩
  · exact ⟨rfl, (((hlaunch.cons .instances (instanceIds_eq keys ▸ isText_of_mem_map)).cons .loadBalancers
      hbalancers).cons .clusters isText_of_mem_singleton).cons .applications isText_of_mem_singleton⟩
  all_goals exact ⟨rfl, hback⟩

theorem namesTexts_of_load {provider : Provider} {account region : String} {workers : Int} {report : Report}
    (h : (load provider account region workers).result = .ok report) : report.NamesTexts types := by
  obtain ⟨items, -, rfl⟩ := exists_items_of_load h
  exact ⟨_, List.forall_mem_flatMap.2 (fun item _ => textual_contributionsOf account region item), reportOf_eq ..⟩

end ClusterAgent

namespace InstanceAgent

theorem textual_contributionsOf (account : String) (item : Item) : ∀ c ∈ contributionsOf account item, c.Textual := by
  obtain ⟨record, key, group⟩ := item
  cases group with
  | none => exact List.forall_mem_singleton.2 ⟨rfl, TextualGroups.nil⟩
  | some group =>
    exact List.forall_mem_cons.2 ⟨⟨rfl, TextualGroups.nil.cons .serverGroups isText_of_mem_singleton⟩,
      List.forall_mem_singleton.2 ⟨rfl, TextualGroups.nil.cons .instances isText_of_mem_singleton⟩⟩

theorem namesTexts_of_load {provider : Provider} {account region : String} {report : Report}
    (h : (load provider account region).result = .ok report) : report.NamesTexts types := by
  obtain ⟨items, -, rfl⟩ := exists_items_of_load h
  exact ⟨_, List.forall_mem_flatMap.2 (fun item _ => textual_contributionsOf account item), rfl⟩

end InstanceAgent

namespace LoadBalancerAgent

theorem textual_contributionsOf (account : String) (item : Item) : ∀ c ∈ contributionsOf account item, c.Textual := by
  obtain ⟨record, key, members⟩ := item
  refine List.forall_mem_cons.2 ⟨⟨rfl, TextualGroups.nil.cons .instances isText_of_mem_map⟩, fun c hc => ?_⟩
  obtain ⟨member, -, rfl⟩ := List.mem_map.1 hc
  exact ⟨rfl, TextualGroups.nil.cons .loadBalancers isText_of_mem_singleton⟩

theorem namesTexts_of_load {provider : Provider} {account region : String} {report : Report}
    (h : (load provider account region).result = .ok report) : report.NamesTexts types := by
  obtain ⟨items, -, rfl⟩ := exists_items_of_load h
  exact ⟨_, List.forall_mem_flatMap.2 (fun item _ => textual_contributionsOf account item), rfl⟩

end LoadBalancerAgent

theorem LoneEntity.Builds.namesTexts {account : String} {builder : ReportBuilder} (h : Builds account builder)
    (types : List DataType) : (builder.build types false).NamesTexts types := by
  obtain ⟨items, -, rfl⟩ := h
  refine ⟨_, List.forall_mem_flatMap.2 (fun lone _ => ?_), rfl⟩
  exact List.forall_mem_singleton.2 ⟨rfl, TextualGroups.nil⟩

namespace AgentResult

theorem namesTexts (result : AgentResult) : result.report.NamesTexts result.agent.types := by
  cases result with
  | groups result =>
    cases result with
    | cluster _ _ _ _ _ loaded => exact ClusterAgent.namesTexts_of_load loaded
    | instances _ _ _ _ loaded => exact InstanceAgent.namesTexts_of_load loaded
  | loadBalancers _ _ _ _ loaded => exact LoadBalancerAgent.namesTexts_of_load loaded
  | images _ _ _ _ _ loaded =>
    obtain ⟨builder, hbuilds, rfl⟩ := ImageAgent.builds_of_load loaded
    exact hbuilds.namesTexts _
  | instanceTypes _ _ _ _ loaded =>
    obtain ⟨builder, hbuilds, rfl⟩ := InstanceTypeAgent.builds_of_load loaded
    exact hbuilds.namesTexts _

theorem isText_of_mem_types (result : AgentResult) : ∀ dt ∈ declared result.agent.types, dt.ns.isText = true := by
  have htexts {types : List DataType} (h : (declared types).all (fun dt => dt.ns.isText) = true) :
      ∀ dt ∈ declared types, dt.ns.isText = true := List.all_eq_true.1 h
  cases result with
  | groups result => cases result <;> exact htexts rfl
  | _ => exact htexts rfl

abbrev Plain (result : AgentResult) : Prop :=
  result.report.Plain result.agent.types

def putIn {σ : Type} [CacheStore σ] (store : σ) (result : AgentResult) : σ :=
  (CacheStore.putReport result.agent.type result.agent.types result.report store).2

end AgentResult

namespace Simulates

variable {graph : Graph} {store : Memory} {source : Atom} {report : Report}

theorem putNamespace (h : Simulates graph store) (hsource : source.isText = true) {dt : DataType}
    (hns : dt.ns.isText = true) (hentities : ∀ entity ∈ report.entities dt.ns, entity.Textual) :
    ∃ after, (CacheStore.putNamespace source report dt : Change Graph Unit).Yields graph () after ∧
      Simulates after ((report.operation source dt).apply store) := by
  unfold CacheStore.putNamespace Report.operation
  split
  · obtain ⟨after, hafter, hopen, hmirrors⟩ :=
      Graph.upsert_mirrors h.mirrors h.opened hns hsource dt.authority hentities
    refine ⟨after, ⟨[], hafter⟩, hopen, Operation.apply_sound _ h.sound, ?_⟩
    exact Memory.kept_upsert h.sound dt.ns source dt.authority _ ▸ hmirrors
  · obtain ⟨dropped, after, hafter, hopen, hmirrors⟩ := Graph.replaceSource_mirrors h.mirrors h.opened
      (fun _ _ _ hkept => h.sound.kept hkept) hns hsource dt.authority hentities
    refine ⟨after, ⟨_, Change.bind_of_pure hafter _⟩, hopen, Operation.apply_sound _ h.sound, ?_⟩
    exact Memory.kept_replaceSource h.sound dt.ns source dt.authority _ ▸ hmirrors

theorem putNamespaces (h : Simulates graph store) (hsource : source.isText = true) {types : List DataType}
    (htypes : ∀ dt ∈ types, dt.ns.isText = true ∧ ∀ entity ∈ report.entities dt.ns, entity.Textual) :
    ∃ after, (types.forM (CacheStore.putNamespace source report) : Change Graph Unit).Yields graph () after ∧
      Simulates after (store.applyAll (types.map (report.operation source))) := by
  induction types generalizing graph store with
  | nil => exact ⟨graph, Change.yields_pure () graph, h⟩
  | cons dt rest ih =>
    obtain ⟨⟨hns, hentities⟩, hrest⟩ := List.forall_mem_cons.1 htypes
    obtain ⟨between, hfirst, hsimulates⟩ := h.putNamespace hsource hns hentities
    obtain ⟨after, hothers, hlast⟩ := ih hsimulates hrest
    exact ⟨after, hfirst.bind hothers, hlast⟩

theorem putReport (h : Simulates graph store) (hsource : source.isText = true) {types : List DataType}
    (hreport : report.Textual types) :
    ∃ after, (CacheStore.putReport source types report : Change Graph _).Yields graph (report.declaredCounts types)
        after ∧ Simulates after (store.applyAll (report.operations source types)) := by
  obtain ⟨after, hwrites, hsimulates⟩ := h.putNamespaces hsource hreport
  have hwarn := CacheStore.warnUndeclared_result source (declared types) report
  refine ⟨after, ?_, hsimulates⟩
  unfold CacheStore.putReport
  refine (Change.ends_lift hwarn graph).bind (hwrites.bind ?_)
  exact (Change.ends_lift rfl _).bind (Change.yields_pure _ _)

theorem putIn (h : Simulates graph store) {result : AgentResult} (hplain : result.Plain) :
    Simulates (result.putIn graph) (result.putIn store) := by
  have htextual := result.namesTexts.textual result.isText_of_mem_types hplain
  have hsource : (Atom.str result.agent.type).isText = true := rfl
  obtain ⟨after, hyields, hsimulates⟩ := h.putReport hsource htextual
  rw [AgentResult.putIn, AgentResult.putIn, hyields.state_eq, (CacheStore.putReport_yields _ _ _ store).state_eq]
  exact hsimulates

theorem foldl_putIn (h : Simulates graph store) {history : List AgentResult}
    (hplain : ∀ result ∈ history, result.Plain) :
    Simulates (history.foldl AgentResult.putIn graph) (history.foldl AgentResult.putIn store) := by
  induction history generalizing graph store with
  | nil => exact h
  | cons result rest ih =>
    obtain ⟨hresult, hrest⟩ := List.forall_mem_cons.1 hplain
    exact ih (h.putIn hresult) hrest

end Simulates

end FleetCache
