import Mathlib.Data.List.Forall2
import FleetCache.Agents.Clusters
import FleetCache.Agents.Instances

set_option autoImplicit false

namespace FleetCache

namespace Traced

variable {α β : Type}

theorem exists_of_bind {x : Traced α} {f : α → Traced β} {b : β} (h : (x >>= f).result = .ok b) :
    ∃ a, x.result = .ok a ∧ (f a).result = .ok b := by
  obtain ⟨result, events⟩ := x
  cases result with
  | error fault => cases h
  | ok a => exact ⟨a, rfl, h⟩

theorem exists_of_map {x : Traced α} {f : α → β} {b : β} (h : (f <$> x).result = .ok b) :
    ∃ a, x.result = .ok a ∧ f a = b := by
  obtain ⟨a, ha, hb⟩ := exists_of_bind (x := x) h
  exact ⟨a, ha, Except.ok.inj hb⟩

theorem ok_of_rescue {x : Traced α} {handler : Fault → Traced α} {a : α} (h : (x.rescue handler).result = .ok a) :
    x.result = .ok a ∨ ∃ fault, (handler fault).result = .ok a := by
  obtain ⟨result, events⟩ := x
  cases result with
  | error fault => exact .inr ⟨fault, h⟩
  | ok a' => exact .inl h

theorem foldlM_keeps (P : β → Prop) {items : List α} {step : β → α → Traced β}
    (hstep : ∀ b a b', P b → (step b a).result = .ok b' → P b') {start last : β} (hstart : P start)
    (h : (items.foldlM step start).result = .ok last) : P last := by
  induction items generalizing start with
  | nil =>
    obtain rfl : start = last := Except.ok.inj h
    exact hstart
  | cons a rest ih =>
    rw [List.foldlM_cons] at h
    obtain ⟨next, hnext, hrest⟩ := exists_of_bind h
    exact ih (hstep start a next hstart hnext) hrest

end Traced

namespace ReportBuilder

def Collects (ns : Atom) (P : Entity → Prop) (builder : ReportBuilder) : Prop :=
  ∀ key entities, (key, entities) ∈ builder.namespaces → (key == ns) = true →
    ∀ id entity, (id, entity) ∈ entities → P entity

theorem mem_adjust {α : Type} {name key : Atom} {change : Option α → α} {value : α} {items : List (Atom × α)}
    (h : (key, value) ∈ adjust name change items) :
    (key, value) ∈ items ∨ (name == key) = true ∧
      (value = change none ∨ ∃ old, (key, old) ∈ items ∧ value = change (some old)) := by
  induction items with
  | nil =>
    obtain ⟨rfl, rfl⟩ : key = name ∧ value = change none := by simpa [adjust] using h
    exact .inr ⟨BEq.rfl, .inl rfl⟩
  | cons head rest ih =>
    obtain ⟨other, old⟩ := head
    rw [adjust] at h
    split at h
    · rename_i hname
      rcases List.mem_cons.1 h with hhead | hrest
      · obtain ⟨rfl, rfl⟩ : key = other ∧ value = change (some old) := by simpa using hhead
        exact .inr ⟨hname, .inr ⟨old, List.mem_cons_self, rfl⟩⟩
      · exact .inl (List.mem_cons_of_mem _ hrest)
    · rcases List.mem_cons.1 h with hhead | hrest
      · exact .inl (hhead ▸ List.mem_cons_self)
      · rcases ih hrest with hold | ⟨hname, hnew | ⟨old', hold, hvalue⟩⟩
        · exact .inl (List.mem_cons_of_mem _ hold)
        · exact .inr ⟨hname, .inl hnew⟩
        · exact .inr ⟨hname, .inr ⟨old', List.mem_cons_of_mem _ hold, hvalue⟩⟩

variable {ns : Atom} {P : Entity → Prop} {builder : ReportBuilder}

theorem contribute_some_id (ns id : Atom) (attributes : Attributes) (groups : List (Atom × List Atom)) (old : Entity) :
    (contribute ns id attributes groups (some old)).id = old.id := rfl

theorem empty_collects : empty.Collects ns P := by
  intro key entities hmem
  cases hmem

theorem Collects.merge (h : builder.Collects ns P) {ns' id : Atom} {attributes : Attributes}
    {groups : List (Atom × List Atom)}
    (hnew : (ns' == ns) = true → P (contribute ns' id attributes groups none) ∧
      ∀ old, P old → P (contribute ns' id attributes groups (some old))) :
    (builder.merge ns' id attributes groups).Collects ns P := by
  intro key entities hmem hkey other entity hentity
  rcases mem_adjust hmem with hold | ⟨hname, hchanged⟩
  · exact h key entities hold hkey other entity hentity
  · obtain ⟨hfirst, hmore⟩ := hnew (BEq.trans hname hkey)
    rcases hchanged with rfl | ⟨old, hold, rfl⟩
    · rcases mem_adjust hentity with hnone | ⟨-, rfl | ⟨_, hnone, -⟩⟩
      · cases hnone
      · exact hfirst
      · cases hnone
    · have hbefore := h key old hold hkey
      rcases mem_adjust hentity with hsame | ⟨-, rfl | ⟨before, hmem', rfl⟩⟩
      · exact hbefore other entity hsame
      · exact hfirst
      · exact hmore before (hbefore other before hmem')

theorem Collects.merge_of_ne (h : builder.Collects ns P) {ns' : Atom} (hne : (ns' == ns) = false) (id : Atom)
    (attributes : Attributes) (groups : List (Atom × List Atom)) :
    (builder.merge ns' id attributes groups).Collects ns P := by
  apply h.merge
  intro hsame
  rw [hne] at hsame
  cases hsame

theorem mem_foldl_adjust {collected : List (Atom × List (Atom × Entity))} {start : List (Atom × List Entity)}
    {key : Atom} {entities : List Entity}
    (h : (key, entities) ∈ collected.foldl (fun acc (ns, found) => adjust ns (fun _ => found.map (·.2)) acc) start) :
    (key, entities) ∈ start ∨
      ∃ name found, (name, found) ∈ collected ∧ (name == key) = true ∧ entities = found.map (·.2) := by
  induction collected generalizing start with
  | nil => exact .inl h
  | cons first rest ih =>
    obtain ⟨name, found⟩ := first
    rcases ih h with hfirst | ⟨other, others, hmem, hsame⟩
    · rcases mem_adjust hfirst with hstart | ⟨hname, hchanged⟩
      · exact .inl hstart
      · have hfound : entities = found.map (·.2) := by
          rcases hchanged with hnew | ⟨_, _, hnew⟩ <;> exact hnew
        exact .inr ⟨name, found, List.mem_cons_self, hname, hfound⟩
    · exact .inr ⟨other, others, List.mem_cons_of_mem _ hmem, hsame⟩

theorem exists_mem_of_lookup {α : Type} {items : List (Atom × α)} {name : Atom} {value : α}
    (h : items.lookup name = some value) : ∃ key, (name == key) = true ∧ (key, value) ∈ items := by
  induction items with
  | nil => cases h
  | cons head rest ih =>
    obtain ⟨key, first⟩ := head
    rw [List.lookup_cons] at h
    split at h
    · rename_i hname
      obtain rfl := Option.some.inj h
      exact ⟨key, hname, List.mem_cons_self⟩
    · obtain ⟨other, hother, hmem⟩ := ih h
      exact ⟨other, hother, List.mem_cons_of_mem _ hmem⟩

theorem Collects.build (h : builder.Collects ns P) (types : List DataType) (incremental : Bool) :
    ∀ entity ∈ (builder.build types incremental).entities ns, P entity := by
  intro entity hentity
  unfold Report.entities at hentity
  cases hlookup : (builder.build types incremental).results.lookup ns with
  | none =>
    rw [hlookup] at hentity
    cases hentity
  | some entities =>
    rw [hlookup, Option.getD_some] at hentity
    obtain ⟨key, hkey, hmem⟩ := exists_mem_of_lookup hlookup
    rcases mem_foldl_adjust hmem with hstart | ⟨name, found, hfound, hname, rfl⟩
    · obtain ⟨dt, -, hdt⟩ := List.mem_map.1 hstart
      obtain ⟨-, rfl⟩ := Prod.mk.inj hdt
      cases hentity
    · obtain ⟨⟨id, _⟩, hpair, rfl⟩ := List.mem_map.1 hentity
      exact h name found hfound (BEq.trans hname (BEq.symm hkey)) id _ hpair

end ReportBuilder

theorem exists_of_bind {ε α β : Type} {x : Except ε α} {f : α → Except ε β} {b : β} (h : (x >>= f) = .ok b) :
    ∃ a, x = .ok a ∧ f a = .ok b := by
  cases x with
  | error e => cases h
  | ok a => exact ⟨a, rfl, h⟩

theorem exists_of_map {ε α β : Type} {x : Except ε α} {f : α → β} {b : β} (h : x.map f = .ok b) :
    ∃ a, x = .ok a ∧ f a = b := by
  cases x with
  | error e => cases h
  | ok a => exact ⟨a, rfl, Except.ok.inj h⟩

theorem exists_mem_of_forall₂ {α β : Type} {R : α → β → Prop} {items : List α} {others : List β}
    (h : List.Forall₂ R items others) {a : α} (ha : a ∈ items) : ∃ b ∈ others, R a b := by
  induction h with
  | nil => cases ha
  | @cons _ b _ _ hhead _ ih =>
    rcases List.mem_cons.1 ha with rfl | hrest
    · exact ⟨b, List.mem_cons_self, hhead⟩
    · obtain ⟨c, hc, hrelated⟩ := ih hrest
      exact ⟨c, List.mem_cons_of_mem _ hc, hrelated⟩

theorem Except.forall₂_of_mapM {ε α β : Type} {f : α → Except ε β} {items : List α} {results : List β}
    (h : items.mapM f = .ok results) : List.Forall₂ (fun a b => f a = .ok b) items results := by
  induction items generalizing results with
  | nil =>
    obtain rfl : [] = results := Except.ok.inj h
    exact .nil
  | cons a rest ih =>
    rw [List.mapM_cons] at h
    obtain ⟨b, hb, h⟩ := exists_of_bind h
    obtain ⟨others, hothers, h⟩ := exists_of_bind h
    obtain rfl : b :: others = results := Except.ok.inj h
    exact .cons hb (ih hothers)

theorem Except.exists_of_mapM {ε α β : Type} {f : α → Except ε β} {items : List α} {results : List β}
    (h : items.mapM f = .ok results) {b : β} (hb : b ∈ results) : ∃ a ∈ items, f a = .ok b :=
  exists_mem_of_forall₂ (forall₂_of_mapM h).flip hb

theorem ok_of_liftKey {α : Type} {x : Except KeyProblem α} {a : α} (h : liftKey x = .ok a) : x = .ok a := by
  cases x with
  | error problem => cases h
  | ok a' => exact congrArg Except.ok (Except.ok.inj h)

theorem ok_of_toOption {ε α : Type} {x : Except ε α} {a : α} (h : x.toOption = some a) : x = .ok a := by
  cases x with
  | error e => cases h
  | ok a' => exact congrArg Except.ok (Option.some.inj h)

def IsGroupOf (account region : String) (entity : Entity) : Prop :=
  ∃ name key, Key.serverGroup name (some account) (some region) = .ok key ∧ entity.id = .str key

theorem IsGroupOf.of_id_eq {account region : String} {entity other : Entity} (h : IsGroupOf account region entity)
    (hid : other.id = entity.id) : IsGroupOf account region other := by
  obtain ⟨name, key, hkey, hentity⟩ := h
  exact ⟨name, key, hkey, hid.trans hentity⟩

abbrev CollectsGroupsOf (account region : String) : ReportBuilder → Prop :=
  ReportBuilder.Collects Namespace.serverGroups.name (IsGroupOf account region)

namespace ClusterAgent

variable {account region : String} {builder builder' : ReportBuilder}

theorem serverGroup_of_deriveKeys {data : GroupData} {keys : GroupKeys}
    (h : deriveKeys account region data = .ok keys) :
    ∃ name, Key.serverGroup name (some account) (some region) = .ok keys.serverGroup := by
  unfold deriveKeys at h
  obtain ⟨names, -, h⟩ := exists_of_bind h
  obtain ⟨application, -, h⟩ := exists_of_bind h
  obtain ⟨cluster, -, h⟩ := exists_of_bind h
  obtain ⟨serverGroup, hgroup, h⟩ := exists_of_bind h
  have hkept : serverGroup = keys.serverGroup := by
    dsimp only at h
    -- with and without a launch configuration
    split at h <;>
    · obtain ⟨launchConfig, -, h⟩ := exists_of_bind h
      obtain ⟨instances, -, h⟩ := exists_of_bind h
      obtain ⟨balancers, -, h⟩ := exists_of_bind h
      obtain rfl := Except.ok.inj h
      rfl
  exact ⟨some names.group, hkept ▸ ok_of_liftKey hgroup⟩

theorem addServerGroup_collects {data : GroupData} {keys : GroupKeys}
    (hkeys : deriveKeys account region data = .ok keys) (h : CollectsGroupsOf account region builder) :
    CollectsGroupsOf account region (addServerGroup account region data keys builder) := by
  apply h.merge
  intro _
  obtain ⟨name, hname⟩ := serverGroup_of_deriveKeys hkeys
  exact ⟨⟨name, keys.serverGroup, hname, rfl⟩,
    fun old hold => hold.of_id_eq (ReportBuilder.contribute_some_id _ _ _ _ old)⟩

theorem addLaunchConfig_collects (data : GroupData) (keys : GroupKeys) (h : CollectsGroupsOf account region builder) :
    CollectsGroupsOf account region (addLaunchConfig data keys builder) := by
  unfold addLaunchConfig
  split
  · exact h
  · exact h.merge_of_ne rfl _ _ _

theorem addInstances_collects (data : GroupData) (keys : GroupKeys) (h : CollectsGroupsOf account region builder) :
    CollectsGroupsOf account region (addInstances data keys builder) := by
  unfold addInstances
  generalize keys.instances = instances
  induction instances generalizing builder with
  | nil => exact h
  | cons first rest ih => exact ih (h.merge_of_ne rfl _ _ _)

theorem addLoadBalancers_collects (data : GroupData) (keys : GroupKeys)
    (h : CollectsGroupsOf account region builder) :
    CollectsGroupsOf account region (addLoadBalancers data keys builder) := by
  unfold addLoadBalancers
  generalize data.balancers = balancers
  induction balancers generalizing builder with
  | nil => exact h
  | cons record rest ih =>
    rw [List.foldl_cons]
    apply ih
    split
    · exact h.merge_of_ne rfl _ _ _
    · exact h

theorem addGroup_collects {data : GroupData} {keys : GroupKeys}
    (hkeys : deriveKeys account region data = .ok keys) (h : CollectsGroupsOf account region builder) :
    CollectsGroupsOf account region (addGroup account region data keys builder) := by
  have hparents : CollectsGroupsOf account region (addCluster account keys (addApplication keys builder)) :=
    (h.merge_of_ne rfl _ _ _).merge_of_ne rfl _ _ _
  have hgroup := addServerGroup_collects hkeys hparents
  exact addLoadBalancers_collects data keys
    (addInstances_collects data keys (addLaunchConfig_collects data keys hgroup))

theorem step_cases {provider : Provider} {group : Value}
    (h : (step provider account region builder group).result = .ok builder') :
    builder' = builder ∨ ∃ data keys, deriveKeys account region data = .ok keys ∧
      builder' = addGroup account region data keys builder := by
  unfold step at h
  rcases Traced.ok_of_rescue h with hadded | ⟨fault, hskipped⟩
  · obtain ⟨⟨data, keys⟩, hprepared, rfl⟩ := Traced.exists_of_map hadded
    obtain ⟨members, -, hprepared⟩ := Traced.exists_of_bind hprepared
    obtain ⟨fetched, -, hprepared⟩ := Traced.exists_of_bind hprepared
    obtain ⟨derived, hderived, hprepared⟩ := Traced.exists_of_bind hprepared
    obtain ⟨rfl, rfl⟩ := Prod.mk.inj (Except.ok.inj hprepared)
    exact .inr ⟨_, _, hderived, rfl⟩
  · split at hskipped
    · obtain ⟨_, -, hskipped⟩ := Traced.exists_of_bind hskipped
      obtain ⟨_, -, hskipped⟩ := Traced.exists_of_bind hskipped
      exact .inl (Except.ok.inj hskipped).symm
    · cases hskipped

theorem step_collects {provider : Provider} {group : Value} (h : CollectsGroupsOf account region builder)
    (hstep : (step provider account region builder group).result = .ok builder') :
    CollectsGroupsOf account region builder' := by
  rcases step_cases hstep with rfl | ⟨data, keys, hkeys, rfl⟩
  · exact h
  · exact addGroup_collects hkeys h

theorem exists_groups_of_load {provider : Provider} {workers : Int} {report : Report}
    (h : (load provider account region workers).result = .ok report) :
    ∃ groups builder, (List.foldlM (step provider account region) ReportBuilder.empty groups).result = .ok builder ∧
      report = builder.build types false := by
  unfold load at h
  obtain ⟨groups, -, h⟩ := Traced.exists_of_bind h
  obtain ⟨_, -, h⟩ := Traced.exists_of_bind h
  split at h
  · cases h
  · obtain ⟨builder, hbuilder, h⟩ := Traced.exists_of_bind h
    exact ⟨groups, builder, hbuilder, (Except.ok.inj h).symm⟩

theorem load_reports_groups {provider : Provider} {workers : Int} {report : Report}
    (h : (load provider account region workers).result = .ok report) :
    report.incremental = false ∧
      ∀ entity ∈ report.entities Namespace.serverGroups.name, IsGroupOf account region entity := by
  obtain ⟨groups, builder, hbuilder, rfl⟩ := exists_groups_of_load h
  have hcollects := Traced.foldlM_keeps (CollectsGroupsOf account region)
    (fun _ _ _ hkept hstep => step_collects hkept hstep) ReportBuilder.empty_collects hbuilder
  exact ⟨rfl, hcollects.build types false⟩

end ClusterAgent

namespace InstanceAgent

variable {account region : String} {builder : ReportBuilder}

def IsLinkedGroupOf (account region : String) (entity : Entity) : Prop :=
  IsGroupOf account region entity ∧ entity.attributes = []

abbrev CollectsLinksOf (account region : String) : ReportBuilder → Prop :=
  ReportBuilder.Collects Namespace.serverGroups.name (IsLinkedGroupOf account region)

theorem serverGroup_of_keys {record : Attributes} {key group : String}
    (h : keys account region record = .ok (.ok (key, some group))) :
    ∃ name, Key.serverGroup name (some account) (some region) = .ok group := by
  unfold keys at h
  dsimp only at h
  split at h
  · cases Except.ok.inj h
  · obtain ⟨tag, -, h⟩ := exists_of_bind h
    split at h
    · have hmade := Except.ok.inj h
      cases hgroup : Key.serverGroup tag.field? (some account) (some region) with
      | error problem =>
        rw [hgroup] at hmade
        cases hmade
      | ok made =>
        rw [hgroup] at hmade
        obtain ⟨-, hsame⟩ := Prod.mk.inj (Except.ok.inj hmade)
        exact ⟨tag.field?, Option.some.inj hsame ▸ hgroup⟩
    · obtain ⟨-, hnone⟩ := Prod.mk.inj (Except.ok.inj (Except.ok.inj h))
      cases hnone

theorem merge_collects {record : Attributes} {key : String} {group : Option String}
    (hkeys : keys account region record = .ok (.ok (key, group)))
    (h : CollectsLinksOf account region builder) :
    CollectsLinksOf account region (merge account record key group builder) := by
  unfold merge
  cases group with
  | none => exact h.merge_of_ne rfl _ _ _
  | some g =>
    apply (h.merge_of_ne rfl _ _ _).merge
    intro _
    obtain ⟨name, hname⟩ := serverGroup_of_keys hkeys
    refine ⟨⟨⟨name, g, hname, rfl⟩, rfl⟩,
      fun old hold => ⟨hold.1.of_id_eq (ReportBuilder.contribute_some_id _ _ _ _ old), ?_⟩⟩
    exact hold.2

theorem step_cases {agent : String} {state state' : ReportBuilder × Nat} {record : Attributes}
    (h : (step account region agent state record).result = .ok state') :
    state' = state ∨ ∃ key group, keys account region record = .ok (.ok (key, group)) ∧
      state' = (merge account record key group state.1, state.2 + 1) := by
  unfold step at h
  obtain ⟨found, hfound, h⟩ := Traced.exists_of_bind h
  unfold skipUnkeyed at h
  cases found with
  | error problem =>
    obtain ⟨_, -, h⟩ := Traced.exists_of_bind h
    exact .inl (Except.ok.inj h).symm
  | ok pair =>
    obtain ⟨key, group⟩ := pair
    exact .inr ⟨key, group, hfound, (Except.ok.inj h).symm⟩

theorem step_collects {agent : String} {state state' : ReportBuilder × Nat} {record : Attributes}
    (h : CollectsLinksOf account region state.1)
    (hstep : (step account region agent state record).result = .ok state') :
    CollectsLinksOf account region state'.1 := by
  rcases step_cases hstep with rfl | ⟨key, group, hkeys, rfl⟩
  · exact h
  · exact merge_collects hkeys h

theorem exists_records_of_load {provider : Provider} {report : Report}
    (h : (load provider account region).result = .ok report) :
    ∃ records state, (List.foldlM (step account region (agentType account region name)) (ReportBuilder.empty, 0)
      records).result = .ok state ∧ report = state.1.build types false := by
  unfold load at h
  obtain ⟨state, hrun, h⟩ := Traced.exists_of_bind h
  obtain ⟨_, -, h⟩ := Traced.exists_of_bind h
  obtain ⟨_, -, hrun⟩ := Traced.exists_of_bind hrun
  obtain ⟨last, hlast, hrun⟩ := Traced.exists_of_bind hrun
  obtain ⟨_, -, hrun⟩ := Traced.exists_of_bind hrun
  obtain rfl := Except.ok.inj hrun
  exact ⟨_, last, hlast, (Except.ok.inj h).symm⟩

theorem load_reports_groups {provider : Provider} {report : Report}
    (h : (load provider account region).result = .ok report) :
    report.incremental = false ∧
      ∀ entity ∈ report.entities Namespace.serverGroups.name, IsLinkedGroupOf account region entity := by
  obtain ⟨records, state, hstate, rfl⟩ := exists_records_of_load h
  have hcollects := Traced.foldlM_keeps (fun state => CollectsLinksOf account region state.1)
    (fun _ _ _ hkept hstep => step_collects hkept hstep) ReportBuilder.empty_collects hstate
  exact ⟨rfl, hcollects.build types false⟩

end InstanceAgent

end FleetCache
