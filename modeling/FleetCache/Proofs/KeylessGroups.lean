import FleetCache.Proofs.GroupOutcomes
import FleetCache.Proofs.KeylessRecords

set_option autoImplicit false

namespace FleetCache

def Value.listed : Value → List Value
  | .list items => items
  | _ => []

def Value.IsListOrNull (v : Value) : Prop :=
  v = .null ∨ ∃ items, v = .list items

theorem Value.elements_listed {v : Value} (h : v.IsListOrNull) : (v.orElse (.list [])).elements = .ok v.listed := by
  rcases h with rfl | ⟨items, rfl⟩
  · rfl
  · exact ClusterAgent.elements_orElse items

theorem Except.exists_of_foldlM {ε α β : Type} {step : β → α → Except ε β} {items : List α} {start last : β}
    (h : items.foldlM step start = .ok last) {a : α} (ha : a ∈ items) : ∃ before after, step before a = .ok after := by
  induction items generalizing start with
  | nil => cases ha
  | cons head rest ih =>
    rw [List.foldlM_cons] at h
    obtain ⟨next, hnext, hrest⟩ := exists_of_bind h
    rcases List.mem_cons.1 ha with rfl | hmem
    · exact ⟨start, next, hnext⟩
    · exact ih hrest hmem

theorem Listing.collect_without_result {α β : Type} {skip : α → Bool} {listing : Listing α}
    {f g : List α → Traced β}
    (h : (f (listing.items.filter (fun a => !skip a))).result = (g listing.items).result) :
    ((listing.without skip).collect >>= f).result = (listing.collect >>= g).result := by
  cases hending : listing.ending.result with
  | ok _ =>
    rw [Traced.result_bind (collect_ok hending),
      Traced.result_bind (show (listing.without skip).collect.result = _ from collect_ok hending)]
    exact h
  | error fault =>
    have hbroken (items : List α) : (collect ⟨listing.opening, items, listing.ending⟩).result = .error fault :=
      Traced.result_bind_eq rfl (Traced.error_bind hending _)
    rw [Traced.error_bind (hbroken listing.items),
      Traced.error_bind (show (listing.without skip).collect.result = _ from hbroken _)]

/-- Work in which nothing goes wrong but that some value is unusable. -/
def Tolerable {α : Type} (x : Except Fault α) : Prop :=
  ∀ fault, x = .error fault → fault.aboutValue = true

namespace Tolerable

variable {α β : Type}

theorem ok (a : α) : Tolerable (.ok a) :=
  fun _ h => nomatch h

theorem liftKey (x : Except KeyProblem α) : Tolerable (liftKey x) := by
  intro fault h
  cases x with
  | ok a => cases h
  | error problem =>
    obtain rfl := Except.error.inj h
    rfl

theorem bind {x : Except Fault α} {f : α → Except Fault β} (hx : Tolerable x) (h : ∀ a, Tolerable (f a)) :
    Tolerable (x >>= f) := by
  intro fault hfault
  cases x with
  | error other =>
    obtain rfl : other = fault := Except.error.inj hfault
    exact hx other rfl
  | ok a => exact h a fault hfault

theorem map {x : Except Fault α} {f : α → β} (hx : Tolerable x) : Tolerable (x.map f) := by
  intro fault hfault
  cases x with
  | error other =>
    obtain rfl : other = fault := Except.error.inj hfault
    exact hx other rfl
  | ok a => cases hfault

theorem foldlM {items : List α} {step : β → α → Except Fault β} (h : ∀ a ∈ items, ∀ b, Tolerable (step b a))
    (start : β) : Tolerable (items.foldlM step start) := by
  induction items generalizing start with
  | nil => exact ok start
  | cons a rest ih =>
    obtain ⟨ha, hrest⟩ := List.forall_mem_cons.1 h
    rw [List.foldlM_cons]
    exact bind (ha start) (ih hrest)

end Tolerable

theorem Names.tolerable_parse (name : String) : Tolerable (parse name) := by
  intro fault h
  unfold parse at h
  split at h
  · obtain rfl := Except.error.inj h
    rfl
  · split at h
    · cases h
    · split at h
      · obtain rfl := Except.error.inj h
        rfl
      · cases h

namespace ClusterAgent

variable {provider : Provider} {account region : String}

def namedBalancers (group : Attributes) : List Value :=
  (group.get "loadBalancerIds").listed.filter Value.truthy

def foundBalancers (provider : Provider) (group : Attributes) : List Attributes :=
  ((namedBalancers group).map (fun id => (provider.loadBalancer id).result.toOption.getD [])).filter
    (fun record => !record.isEmpty)

/-- Whether no keys can be built from a group: it has no name, or one with a push sequence that is too long, or a load
balancer without a key. -/
def keylessGroup (provider : Provider) (account region : String) (group : Attributes) : Bool :=
  (group.get "scalingGroupName").keyless account region ||
    (group.get "scalingGroupName").string?.any Names.overlong ||
      (foundBalancers provider group).any (LoadBalancerAgent.unnamed account region)

def keyless (provider : Provider) (account region : String) : Value → Bool
  | .object group => keylessGroup provider account region group
  | _ => false

structure TextFields (group : Attributes) (members : List Attributes) : Prop where
  name : ∃ name, HasText group "scalingGroupName" name
  balancers : (group.get "loadBalancerIds").IsListOrNull
  instances : (group.get "instances").IsListOrNull
  listed : (group.get "instances").listed = members.map .object
  ids : ∀ m ∈ members, ∃ id, HasText m "instanceId" id

def HasBalancerTexts (record : Attributes) : Prop :=
  (∃ id, HasText record "loadBalancerId" id) ∧ ∃ name, HasText record "loadBalancerName" name

structure AnswersAbout (provider : Provider) (group : Attributes) (members : List Attributes) : Prop where
  configuration : Answers (fun _ => True) (provider.scalingConfiguration group)
  balancers : ∀ id ∈ namedBalancers group, Answers HasBalancerTexts (provider.loadBalancer id)
  details : Answers (fun _ => True)
    (provider.details ((members.map (fun m => m.get "instanceId")).filter Value.truthy))

/-- A listed value is the record of a group with texts, or nothing, for its key fields, about which the provider answers
lookups. -/
def ListsRecord (provider : Provider) (v : Value) : Prop :=
  ∃ group members, v = .object group ∧ TextFields group members ∧ AnswersAbout provider group members

theorem hasBalancerTexts_of_found {group : Attributes} {members : List Attributes}
    (h : AnswersAbout provider group members) {record : Attributes} (hrecord : record ∈ foundBalancers provider group) :
    HasBalancerTexts record := by
  obtain ⟨id, hid, rfl⟩ := List.mem_map.1 (List.mem_filter.1 hrecord).1
  rcases h.balancers id hid with ⟨failure, code, hfailed, -⟩ | ⟨found, hok, htexts⟩
  · rw [hfailed]
    exact ⟨⟨none, rfl⟩, none, rfl⟩
  · rw [hok]
    exact htexts

theorem exists_withZone {details : Details} {m : Attributes} {id : Option String} (h : HasText m "instanceId" id) :
    ∃ zoned, withZone details m = .ok zoned ∧ HasText zoned "instanceId" id := by
  unfold withZone
  rw [h, Records.toAtom_ofOption, ok_bind]
  split
  · split
    · exact ⟨m, rfl, h⟩
    · refine ⟨_, rfl, ?_⟩
      rw [HasText, get_put]
      exact h
  · exact ⟨m, rfl, h⟩

/-- What is known of a listed group of texts once its lookups are over. -/
structure FetchedTexts (provider : Provider) (group : Attributes) (data : GroupData) : Prop where
  group : data.group = group
  name : ∃ name, HasText data.group "scalingGroupName" name
  balancers : data.balancers = foundBalancers provider data.group
  members : ∀ m ∈ data.members, ∃ id, HasText m "instanceId" id
  records : ∀ record ∈ data.balancers, HasBalancerTexts record

theorem exists_fetchGroup {group : Attributes} {members : List Attributes} (htexts : TextFields group members)
    (hanswers : AnswersAbout provider group members) (agent : String) :
    ∃ data, (fetchGroup provider agent group).result = .ok data ∧ FetchedTexts provider group data := by
  obtain ⟨configuration, hconfiguration, -⟩ := result_orLogged hanswers.configuration agent none trivial
  have hbalancers := Traced.result_mapM (fun id hid => result_orLogged_eq (hanswers.balancers id hid) agent [])
  have hmembers : ((group.get "instances").listed.mapM (fun v => (v.toMembers : Traced Attributes))).result =
      .ok members := by
    rw [htexts.listed, List.mapM_map]
    exact (Traced.result_mapM (fun m _ => rfl)).trans (congrArg Except.ok (List.map_id members))
  obtain ⟨details, hdetails, -⟩ := exists_details hanswers.details trivial agent
  obtain ⟨zoned, hzoned, hids⟩ : ∃ zoned, (members.mapM (fun m => (withZone details m : Traced Attributes))).result =
      .ok zoned ∧ List.Forall₂ (fun _ m => ∃ id, HasText m "instanceId" id) members zoned := by
    refine Traced.exists_mapM_forall₂ (fun m hm => ?_)
    obtain ⟨id, hid⟩ := htexts.ids m hm
    obtain ⟨zoned, hzoned, htext⟩ := exists_withZone hid
    exact ⟨zoned, hzoned, id, htext⟩
  refine ⟨_, fetchGroup_result hconfiguration (Value.elements_listed htexts.balancers) hbalancers
    (Value.elements_listed htexts.instances) hmembers hdetails hzoned, rfl, htexts.name, rfl, fun m hm => ?_,
    fun _ hrecord => hasBalancerTexts_of_found hanswers hrecord⟩
  obtain ⟨_, -, hid⟩ := exists_mem_of_forall₂ hids.flip hm
  exact hid

theorem exists_text_balancerId {record : Attributes} (h : HasBalancerTexts record) :
    ∃ text, balancerId record = .ofOption text := by
  obtain ⟨⟨id, hid⟩, name, hname⟩ := h
  rw [balancerId, hid, hname]
  exact exists_text_orElse id name

theorem tolerable_deriveKeys {group : Attributes} {data : GroupData} (h : FetchedTexts provider group data) :
    Tolerable (deriveKeys account region data) := by
  have hnames : Tolerable (Names.ofValue ((data.group.get "scalingGroupName").orElse (.str ""))) := by
    obtain ⟨name, hname⟩ := h.name
    rw [hname, orElse_empty]
    exact Names.tolerable_parse (name.getD "")
  have hinstances : Tolerable (memberKeys account region data.members) := by
    refine Tolerable.foldlM (fun m hm keys => ?_) []
    obtain ⟨id, hid⟩ := h.members m hm
    dsimp only
    rw [hid]
    split
    · refine Tolerable.bind (Tolerable.liftKey _) (fun key => ?_)
      rw [Records.toAtom_ofOption]
      exact Tolerable.ok _
    · exact Tolerable.ok _
  have hbalancers : Tolerable (balancerKeys account region data.balancers) := by
    refine Tolerable.foldlM (fun record hrecord keys => ?_) []
    obtain ⟨text, htext⟩ := exists_text_balancerId (h.records record hrecord)
    refine Tolerable.bind (Tolerable.liftKey _) (fun key => ?_)
    rw [htext, Records.toAtom_ofOption]
    exact Tolerable.ok _
  unfold deriveKeys
  refine hnames.bind (fun names => (Tolerable.liftKey _).bind (fun application => ?_))
  refine (Tolerable.liftKey _).bind (fun cluster => (Tolerable.liftKey _).bind (fun serverGroup => ?_))
  dsimp only
  split
  · refine (Tolerable.liftKey _).map.bind (fun launchConfig => hinstances.bind (fun instances => ?_))
    exact hbalancers.bind (fun balancers => Tolerable.ok _)
  · refine (Tolerable.ok _).bind (fun launchConfig => hinstances.bind (fun instances => ?_))
    exact hbalancers.bind (fun balancers => Tolerable.ok _)

theorem exists_keyOf_of_balancerKeys {records : List Attributes} {keys : List (Atom × String)}
    (h : balancerKeys account region records = .ok keys) {record : Attributes} (hrecord : record ∈ records) :
    ∃ key, LoadBalancerAgent.keyOf account region record = .ok key := by
  obtain ⟨before, after, hstep⟩ := Except.exists_of_foldlM h hrecord
  obtain ⟨key, hkey, -⟩ := exists_of_bind hstep
  exact ⟨key, ok_of_liftKey hkey⟩

/-- A group whose keys are all there is none of those without keys. -/
theorem keylessGroup_of_derived {data : GroupData} {keys : GroupKeys} (h : Derived account region data keys)
    (hbalancers : data.balancers = foundBalancers provider data.group) :
    keylessGroup provider account region data.group = false := by
  have hname := h.name_eq
  unfold keylessGroup
  rw [Bool.or_eq_false_iff, Bool.or_eq_false_iff, hname]
  refine ⟨⟨?_, Names.overlong_of_parse h.parse_group⟩, ?_⟩
  · rw [Bool.eq_false_iff, ne_eq, ← Key.serverGroup_problem_iff]
    rintro ⟨problem, hproblem⟩
    exact nomatch h.serverGroup.symm.trans hproblem
  · rw [List.any_eq_false, ← hbalancers]
    intro record hrecord hunnamed
    obtain ⟨problem, hproblem⟩ := (LoadBalancerAgent.keyOf_problem_iff account region record).2 hunnamed
    obtain ⟨key, hkey⟩ := exists_keyOf_of_balancerKeys h.balancers hrecord
    exact nomatch hkey.symm.trans hproblem

theorem isKeyed_of_named {record : Attributes} (htexts : HasBalancerTexts record)
    (h : LoadBalancerAgent.unnamed account region record = false) : IsKeyed account region record := by
  obtain ⟨text, htext⟩ := exists_text_balancerId htexts
  refine ⟨LoadBalancerAgent.exists_keyOf_of_named h, Records.processAtom text, ?_⟩
  rw [htext]
  cases text <;> rfl

theorem exists_keys_of_texts {group : Attributes} {data : GroupData} (h : FetchedTexts provider group data)
    (hkeyed : keylessGroup provider account region data.group = false) :
    ∃ keys, deriveKeys account region data = .ok keys := by
  obtain ⟨name, hname⟩ := h.name
  unfold keylessGroup at hkeyed
  rw [Bool.or_eq_false_iff, Bool.or_eq_false_iff, hname, Value.keyless_eq_false_iff] at hkeyed
  obtain ⟨⟨⟨haccount, hregion, hpresent⟩, hfits⟩, hnamed⟩ := hkeyed
  have hkeys (record : Attributes) (hrecord : record ∈ data.balancers) : IsKeyed account region record := by
    refine isKeyed_of_named (h.records record hrecord) (Bool.eq_false_iff.2 (List.any_eq_false.1 hnamed record ?_))
    rwa [← h.balancers]
  cases name with
  | none => cases hpresent
  | some text =>
    have hne : text ≠ "" := by
      rintro rfl
      cases hpresent
    obtain ⟨keys, hkeys, -⟩ := exists_keys haccount hregion hname hne hfits h.members hkeys
    exact ⟨keys, hkeys⟩

/-- Exactly the groups that no keys can be built from are passed over; all others have their place in the report. -/
theorem outcome_cases (account region : String) {v : Value} (h : ListsRecord provider v) :
    (keyless provider account region v = true ∧ outcome provider account region v = .ok none) ∨
      (keyless provider account region v = false ∧ ∃ item, outcome provider account region v = .ok (some item)) := by
  obtain ⟨group, members, rfl, htexts, hanswers⟩ := h
  obtain ⟨data, hdata, hfetched⟩ := exists_fetchGroup htexts hanswers (agentType account region name)
  obtain rfl := hfetched.group
  cases hkeys : deriveKeys account region data with
  | ok keys =>
    have hprepared : (prepare provider account region (.object data.group)).result = .ok (data, keys) :=
      Traced.result_bind_eq (a := data.group) rfl (Traced.result_bind_eq hdata (Traced.result_bind_eq hkeys rfl))
    exact .inr ⟨keylessGroup_of_derived (derived_of_deriveKeys hkeys) hfetched.balancers, _,
      outcome_of_prepare hprepared⟩
  | error fault =>
    have hprepared : (prepare provider account region (.object data.group)).result = .error fault :=
      Traced.result_bind_eq (a := data.group) rfl (Traced.result_bind_eq hdata (Traced.error_bind hkeys _))
    have hkeyless : keylessGroup provider account region data.group = true := by
      rw [← Bool.not_eq_false]
      intro hkeyed
      obtain ⟨keys, hbuilt⟩ := exists_keys_of_texts hfetched hkeyed
      exact nomatch hkeys.symm.trans hbuilt
    refine .inl ⟨hkeyless, ?_⟩
    rw [outcome_of_error hprepared, if_pos (tolerable_deriveKeys hfetched fault hkeys)]
    rfl

theorem step_result_of_keyless {v : Value} (h : ListsRecord provider v)
    (hkeyless : keyless provider account region v = true) (builder : ReportBuilder) :
    (step provider account region builder v).result = .ok builder := by
  rcases outcome_cases account region h with ⟨-, hnone⟩ | ⟨hkeyed, -⟩
  · rw [step_result, hnone]
    rfl
  · rw [hkeyless] at hkeyed
    cases hkeyed

/-- The run over a listing without groups that no keys can be built from, at a provider that answers lookups alike. -/
theorem load_result_of_keyless {other : Provider} {workers : Int}
    (hgroups : ∀ v ∈ provider.scalingGroups.items, ListsRecord provider v)
    (hlisting : other.scalingGroups = provider.scalingGroups.without (keyless provider account region))
    (hsteps : step other account region = step provider account region) :
    (load other account region workers).result = (load provider account region workers).result := by
  unfold load
  rw [hlisting, hsteps]
  refine Listing.collect_without_result ?_
  refine (Traced.result_bind rfl _).trans (Eq.trans ?_ (Traced.result_bind rfl _).symm)
  split
  · rfl
  · refine Traced.result_bind_congr (Traced.foldlM_filter_result (fun v hv hkeyless builder => ?_) _) (fun _ => rfl)
    exact step_result_of_keyless (hgroups v hv) hkeyless builder

end ClusterAgent

/-- A provider whose listings leave out all records that no key can be built from; its lookups answer as before. -/
def Provider.keyed (provider : Provider) (account region publicOwner : String) : Provider :=
  { provider with
    scalingGroups := provider.scalingGroups.without (ClusterAgent.keyless provider account region)
    instances := provider.instances.without (InstanceAgent.keyless account region)
    images := fun owner => (provider.images owner).without (ImageAgent.keyless account region publicOwner owner)
    zones := provider.zones.without (InstanceTypeAgent.keyless account region)
    loadBalancers := provider.loadBalancers.without (LoadBalancerAgent.keyless account region) }

/-- A record that no key can be built from costs nothing but itself: each agent ends its run over a listing as it does
over the same listing without such records, with the same report or the same fault. As for scaling groups, the fields that
their keys come from are texts or left out, and a lookup about them fails as lookups do or brings something. -/
theorem keyless_records_cost_nothing (provider : Provider) (account region publicOwner : String) :
    (InstanceAgent.load (provider.keyed account region publicOwner) account region).result =
      (InstanceAgent.load provider account region).result ∧
    (ImageAgent.load (provider.keyed account region publicOwner) account region publicOwner).result =
      (ImageAgent.load provider account region publicOwner).result ∧
    (InstanceTypeAgent.load (provider.keyed account region publicOwner) account region).result =
      (InstanceTypeAgent.load provider account region).result ∧
    (LoadBalancerAgent.load (provider.keyed account region publicOwner) account region).result =
      (LoadBalancerAgent.load provider account region).result ∧
    ∀ workers, (∀ v ∈ provider.scalingGroups.items, ClusterAgent.ListsRecord provider v) →
      (ClusterAgent.load (provider.keyed account region publicOwner) account region workers).result =
        (ClusterAgent.load provider account region workers).result := by
  refine ⟨?_, ?_, ?_, ?_, fun workers hgroups => ClusterAgent.load_result_of_keyless hgroups rfl rfl⟩
  · refine Traced.result_bind_congr (Listing.run_without_result (fun record hkeyless state => ?_) _) (fun _ => rfl)
    exact InstanceAgent.step_result_of_keyless hkeyless _ state
  · refine Traced.result_bind_congr (Listing.run_without_result (fun image hkeyless builder => ?_) _) (fun _ =>
      Traced.result_bind_congr (Listing.run_without_result (fun image hkeyless builder => ?_) _) (fun _ => rfl))
    · exact ImageAgent.addPublic_result_of_keyless hkeyless _ builder
    · exact ImageAgent.addNamed_result_of_keyless hkeyless _ builder
  · refine Traced.result_bind_congr (Listing.run_without_result (fun zone hkeyless builder => ?_) _) (fun _ => rfl)
    exact InstanceTypeAgent.step_result_of_keyless hkeyless _ builder
  · refine Traced.result_bind_congr (Listing.run_without_result (fun record hkeyless builder => ?_) _) (fun _ => rfl)
    exact LoadBalancerAgent.step_result_of_keyless hkeyless _ builder

def plainMember (id : Option String) : Attributes :=
  [("instanceId", .ofOption id)]

def plainGroup (name : Option String) (balancers : List String) (ids : List (Option String)) : Value :=
  .object [("scalingGroupName", .ofOption name), ("loadBalancerIds", .strings balancers),
    ("instances", .list ((ids.map plainMember).map .object))]

/-- A provider with listings in which records without keys stand between others. -/
def gappyProvider : Provider where
  scalingGroups := .ofList [plainGroup (some "web-v001") ["front"] [some "i-1", none],
    plainGroup none ["front"] [some "i-2"], plainGroup (some "web-v002") ["front", "blank"] [],
    plainGroup (some "web-v003") [] [some "i-1"]]
  scalingConfiguration _ := pure none
  loadBalancer id := pure [("loadBalancerName", if id == "front" then "front" else "")]
  details _ := pure []
  instances := .ofList [[("instanceId", .null)], [("instanceId", "i-1")], [("instanceId", "")]]
  images owner :=
    if owner == "self" then .ofList [[("imageId", "ami-1")], [("imageName", "base")]]
    else .ofList [[("imageId", "ami-2")], [("imageId", "")]]
  zones := .ofList [[("zoneId", "eu-a")], []]
  loadBalancers := .ofList [[("loadBalancerName", "back"), ("instances", .list ["i-1", .null])],
    [("loadBalancerName", "front"), ("instances", .strings ["i-1"])], [("loadBalancerName", "side"), ("vpcId", "")]]

theorem listsRecord_plainGroup (name : Option String) (balancers : List String) (ids : List (Option String)) :
    ClusterAgent.ListsRecord gappyProvider (plainGroup name balancers ids) := by
  refine ⟨_, ids.map plainMember, rfl,
    ⟨⟨name, rfl⟩, .inr ⟨_, rfl⟩, .inr ⟨_, rfl⟩, rfl, fun m hm => ?_⟩,
    ⟨.inr ⟨none, rfl, trivial⟩, fun id _ => .inr ⟨_, rfl, ⟨none, rfl⟩, ?_⟩, .inr ⟨[], rfl, trivial⟩⟩⟩
  · obtain ⟨id, -, rfl⟩ := List.mem_map.1 hm
    exact ⟨id, rfl⟩
  · by_cases hfront : (id == .str "front") = true
    · exact ⟨some "front", if_pos hfront⟩
    · exact ⟨some "", if_neg hfront⟩

theorem keyless_records_cost_nothing_gappy :
    ((gappyProvider.keyed "prod" "eu" "amazon").instances.items.length = 1 ∧
      (gappyProvider.keyed "prod" "eu" "amazon").zones.items.length = 1 ∧
      (gappyProvider.keyed "prod" "eu" "amazon").loadBalancers.items.length = 1 ∧
      (gappyProvider.keyed "prod" "eu" "amazon").scalingGroups.items.length = 2) ∧
    (InstanceAgent.load (gappyProvider.keyed "prod" "eu" "amazon") "prod" "eu").result =
      (InstanceAgent.load gappyProvider "prod" "eu").result ∧
    (ImageAgent.load (gappyProvider.keyed "prod" "eu" "amazon") "prod" "eu" "amazon").result =
      (ImageAgent.load gappyProvider "prod" "eu" "amazon").result ∧
    (InstanceTypeAgent.load (gappyProvider.keyed "prod" "eu" "amazon") "prod" "eu").result =
      (InstanceTypeAgent.load gappyProvider "prod" "eu").result ∧
    (LoadBalancerAgent.load (gappyProvider.keyed "prod" "eu" "amazon") "prod" "eu").result =
      (LoadBalancerAgent.load gappyProvider "prod" "eu").result ∧
    ∃ report, (ClusterAgent.load gappyProvider "prod" "eu" 1).result = .ok report ∧
      (report.entities Namespace.serverGroups.name).length = 2 ∧
      (ClusterAgent.load (gappyProvider.keyed "prod" "eu" "amazon") "prod" "eu" 1).result = .ok report := by
  have htwo : (ClusterAgent.load gappyProvider "prod" "eu" 1).result.toOption.map
      (fun report => (report.entities Namespace.serverGroups.name).length) = some 2 := by decide +kernel
  obtain ⟨report, hreport, htwo⟩ := Option.map_eq_some_iff.1 htwo
  have hloaded := ok_of_toOption hreport
  have hlists : ∀ v ∈ gappyProvider.scalingGroups.items, ClusterAgent.ListsRecord gappyProvider v := by
    simp only [gappyProvider, Listing.ofList, List.forall_mem_cons]
    exact ⟨listsRecord_plainGroup _ _ _, listsRecord_plainGroup _ _ _, listsRecord_plainGroup _ _ _,
      listsRecord_plainGroup _ _ _, fun _ hnone => absurd hnone List.not_mem_nil⟩
  obtain ⟨hinstances, himages, hzones, hbalancers, hclusters⟩ :=
    keyless_records_cost_nothing gappyProvider "prod" "eu" "amazon"
  exact ⟨by decide +kernel, hinstances, himages, hzones, hbalancers, report, hloaded, htwo,
    (hclusters 1 hlists).trans hloaded⟩

end FleetCache
