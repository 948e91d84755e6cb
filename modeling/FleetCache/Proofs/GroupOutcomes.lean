import Mathlib.Data.List.ReduceOption
import FleetCache.Proofs.ListedGroups
import FleetCache.Proofs.ViewReads

set_option autoImplicit false

namespace FleetCache

/-- A provider with other scaling groups to list, and the same answers to lookups. -/
def Provider.relisted (provider : Provider) (groups : List Value) : Provider :=
  { provider with scalingGroups := .ofList groups }

def Value.groupName? (group : Value) : Option String :=
  (group.member "scalingGroupName").toOption.bind Value.string?

namespace ClusterAgent

variable {provider : Provider} {account region : String}

/-- What a listed group comes out as: an item of the report, nothing when it is skipped, or the fault that ends the
run. -/
def outcome (provider : Provider) (account region : String) (group : Value) :
    Except Fault (Option (GroupData × GroupKeys)) :=
  match (prepare provider account region group).result with
  | .ok item => .ok (some item)
  | .error fault =>
    if fault.aboutValue then (group.member "scalingGroupName").map (fun _ => none) else .error fault

theorem outcome_relisted (provider : Provider) (groups : List Value) :
    outcome (provider.relisted groups) account region = outcome provider account region := rfl

theorem outcome_of_prepare {group : Value} {item : GroupData × GroupKeys}
    (h : (prepare provider account region group).result = .ok item) :
    outcome provider account region group = .ok (some item) := by
  unfold outcome
  rw [h]

theorem outcome_of_error {group : Value} {fault : Fault}
    (h : (prepare provider account region group).result = .error fault) :
    outcome provider account region group =
      if fault.aboutValue then (group.member "scalingGroupName").map (fun _ => none) else .error fault := by
  unfold outcome
  rw [h]

theorem prepare_of_outcome {group : Value} {item : GroupData × GroupKeys}
    (h : outcome provider account region group = .ok (some item)) :
    (prepare provider account region group).result = .ok item := by
  cases hprepared : (prepare provider account region group).result with
  | ok other =>
    rw [outcome_of_prepare hprepared] at h
    rw [Option.some.inj (Except.ok.inj h)]
  | error fault =>
    rw [outcome_of_error hprepared] at h
    split at h
    · obtain ⟨_, -, hnone⟩ := exists_of_map h
      cases hnone
    · cases h

theorem of_fetchGroup {agent : String} {group : Attributes} {data : GroupData}
    (h : (fetchGroup provider agent group).result = .ok data) :
    data.group = group ∧ ∃ found, (orLogged agent (provider.scalingConfiguration group) none).result = .ok found ∧
      data.configuration = found.filter (fun c => !c.isEmpty) := by
  unfold fetchGroup at h
  obtain ⟨found, hfound, h⟩ := Traced.exists_of_bind h
  obtain ⟨_, -, h⟩ := Traced.exists_of_bind h
  obtain ⟨_, -, h⟩ := Traced.exists_of_bind h
  obtain ⟨_, -, h⟩ := Traced.exists_of_bind h
  obtain ⟨_, -, h⟩ := Traced.exists_of_bind h
  -- with and without members to look up
  dsimp only at h
  split at h <;>
  · obtain ⟨_, -, h⟩ := Traced.exists_of_bind h
    obtain ⟨_, -, h⟩ := Traced.exists_of_bind h
    obtain rfl := Except.ok.inj h
    exact ⟨rfl, found, hfound, rfl⟩

theorem of_prepare {group : Value} {item : GroupData × GroupKeys}
    (h : (prepare provider account region group).result = .ok item) :
    ∃ members, group = .object members ∧
      (fetchGroup provider (agentType account region name) members).result = .ok item.1 ∧
      deriveKeys account region item.1 = .ok item.2 := by
  unfold prepare at h
  obtain ⟨members, hmembers, h⟩ := Traced.exists_of_bind h
  obtain ⟨data, hdata, h⟩ := Traced.exists_of_bind h
  obtain ⟨keys, hkeys, h⟩ := Traced.exists_of_bind h
  obtain rfl := Except.ok.inj h
  refine ⟨members, ?_, hdata, hkeys⟩
  cases group with
  | object given => exact congrArg Value.object (Except.ok.inj hmembers)
  | atom a => cases hmembers
  | list items => cases hmembers
  | set items => cases hmembers

theorem derived_of_outcome {group : Value} {item : GroupData × GroupKeys}
    (h : outcome provider account region group = .ok (some item)) : deriveKeys account region item.1 = .ok item.2 := by
  obtain ⟨-, -, -, hkeys⟩ := of_prepare (prepare_of_outcome h)
  exact hkeys

theorem Derived.name_eq {data : GroupData} {keys : GroupKeys} (h : Derived account region data keys) :
    data.group.get "scalingGroupName" = .str keys.names.group := by
  have hnames := h.names
  unfold Value.orElse at hnames
  split at hnames
  · unfold Names.ofValue at hnames
    split at hnames
    · rename_i hname
      rw [hname, Names.group_of_parse hnames]
    · split at hnames <;> cases hnames
  · cases hnames

theorem groupName?_of_prepare {group : Value} {item : GroupData × GroupKeys}
    (h : (prepare provider account region group).result = .ok item) : group.groupName? = some item.2.names.group := by
  obtain ⟨members, rfl, hdata, hkeys⟩ := of_prepare h
  obtain ⟨rfl, -⟩ := of_fetchGroup hdata
  change Value.string? (item.1.group.get "scalingGroupName") = _
  rw [(derived_of_deriveKeys hkeys).name_eq]
  rfl

theorem step_result (builder : ReportBuilder) (group : Value) :
    (step provider account region builder group).result = (outcome provider account region group).map
      (fun found => builder.addAll (found.toList.flatMap (contributionsOf account region))) := by
  cases hprepared : (prepare provider account region group).result with
  | ok item =>
    rw [step_ok hprepared, outcome_of_prepare hprepared, addGroup_eq]
    exact congrArg (fun contributions => Except.ok (builder.addAll contributions)) (List.flatMap_singleton _ _).symm
  | error fault =>
    have hmapped (f : GroupData × GroupKeys → ReportBuilder) :
        (f <$> prepare provider account region group).result = .error fault := by
      rw [map_eq_pure_bind, Traced.error_bind hprepared]
    rw [outcome_of_error hprepared, step, Traced.result_rescue_error (hmapped _)]
    split
    · cases group.member "scalingGroupName" <;> rfl
    · rfl

def outcomes (account region : String) (entries : List (Provider × Value)) :
    Except Fault (List (Option (GroupData × GroupKeys))) :=
  entries.mapM (fun entry => outcome entry.1 account region entry.2)

theorem foldlM_step_result (entries : List (Provider × Value)) (builder : ReportBuilder) :
    (entries.foldlM (fun builder entry => step entry.1 account region builder entry.2) builder).result =
      (outcomes account region entries).map
        (fun found => builder.addAll (found.reduceOption.flatMap (contributionsOf account region))) := by
  unfold outcomes
  induction entries generalizing builder with
  | nil => rfl
  | cons entry rest ih =>
    have hstep : (step entry.1 account region builder entry.2).result = _ := step_result builder entry.2
    rw [List.foldlM_cons, List.mapM_cons]
    cases hgroup : outcome entry.1 account region entry.2 with
    | error fault =>
      rw [hgroup] at hstep
      rw [Traced.error_bind hstep]
      rfl
    | ok found =>
      rw [hgroup] at hstep
      rw [Traced.result_bind hstep, ih]
      cases rest.mapM (fun entry => outcome entry.1 account region entry.2) with
      | error fault => rfl
      | ok others =>
        refine congrArg Except.ok ?_
        dsimp only
        rw [← ReportBuilder.addAll_append, ← List.flatMap_append]
        cases found <;> rfl

theorem pos_of_load {workers : Int} {report : Report} (h : (load provider account region workers).result = .ok report) :
    0 < workers := by
  unfold load at h
  obtain ⟨_, -, h⟩ := Traced.exists_of_bind h
  obtain ⟨_, -, h⟩ := Traced.exists_of_bind h
  split at h
  · cases h
  · omega

theorem loadEach_result {workers : Int} (hworkers : 0 < workers) {listing : Listing (Provider × Value)}
    {entries : List (Provider × Value)} (hlisted : listing.collect.result = .ok entries) :
    (loadEach listing account region workers).result =
      (outcomes account region entries).map (fun found => reportOf account region found.reduceOption) := by
  unfold loadEach
  rw [Traced.result_bind hlisted, Traced.result_bind rfl, if_neg (by omega)]
  have hsteps : (entries.foldlM (fun builder entry => step entry.1 account region builder entry.2)
      ReportBuilder.empty).result = _ := foldlM_step_result entries ReportBuilder.empty
  cases houtcomes : outcomes account region entries with
  | error fault =>
    rw [houtcomes] at hsteps
    rw [Traced.error_bind hsteps]
    rfl
  | ok found =>
    rw [houtcomes] at hsteps
    rw [Traced.result_bind hsteps]
    exact congrArg Except.ok (reportOf_eq account region found.reduceOption).symm

theorem load_result {workers : Int} (hworkers : 0 < workers) {groups : List Value}
    (hlisted : provider.scalingGroups.collect.result = .ok groups) :
    (load provider account region workers).result =
      (groups.mapM (outcome provider account region)).map
        (fun found => reportOf account region found.reduceOption) := by
  have hasked : (asked provider).collect.result = .ok (groups.map (Prod.mk provider)) := by
    rw [collect_asked, map_eq_pure_bind, Traced.result_bind hlisted]
    rfl
  rw [load_eq_loadEach, loadEach_result hworkers hasked, outcomes, List.mapM_map]
  rfl

theorem exists_outcomes_of_load {workers : Int} {report : Report}
    (h : (load provider account region workers).result = .ok report) :
    ∃ groups found, provider.scalingGroups.collect.result = .ok groups ∧
      groups.mapM (outcome provider account region) = .ok found ∧
      report = reportOf account region found.reduceOption := by
  have hworkers := pos_of_load h
  obtain ⟨groups, hgroups⟩ : ∃ groups, provider.scalingGroups.collect.result = .ok groups := by
    unfold load at h
    obtain ⟨groups, hgroups, -⟩ := Traced.exists_of_bind h
    exact ⟨groups, hgroups⟩
  rw [load_result hworkers hgroups] at h
  obtain ⟨found, hfound, hreport⟩ := exists_of_map h
  exact ⟨groups, found, hgroups, hfound, hreport.symm⟩

end ClusterAgent

end FleetCache
