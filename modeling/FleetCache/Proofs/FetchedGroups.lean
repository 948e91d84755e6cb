import FleetCache.Proofs.ClusterReports
import FleetCache.Proofs.GroupDescriptions
import FleetCache.Proofs.MissingFields
import FleetCache.Proofs.ReportWrites
import FleetCache.Views.Assemble

set_option autoImplicit false

namespace FleetCache

namespace Traced

variable {α β : Type}

theorem result_mapM {items : List α} {f : α → Traced β} {g : α → β} (h : ∀ a ∈ items, (f a).result = .ok (g a)) :
    (items.mapM f).result = .ok (items.map g) := by
  induction items with
  | nil => rfl
  | cons a rest ih =>
    obtain ⟨ha, hrest⟩ := List.forall_mem_cons.1 h
    rw [List.mapM_cons, result_bind ha, result_bind (ih hrest)]
    rfl

theorem result_bind_eq {x : Traced α} {f : α → Traced β} {r : Except Fault β} {a : α} (hx : x.result = .ok a)
    (h : (f a).result = r) : (x >>= f).result = r := by
  rw [result_bind hx]
  exact h

theorem exists_bind_ok {x : Traced α} {f : α → Traced β} {P : β → Prop} {a : α} (hx : x.result = .ok a)
    (h : ∃ b, (f a).result = .ok b ∧ P b) : ∃ b, (x >>= f).result = .ok b ∧ P b := by
  rw [result_bind hx]
  exact h

theorem result_rescue {x : Traced α} {a : α} (h : x.result = .ok a) (handler : Fault → Traced α) :
    (x.rescue handler).result = .ok a := by
  unfold rescue
  rw [h]
  exact h

theorem result_rescue_error {x : Traced α} {fault : Fault} (h : x.result = .error fault) (handler : Fault → Traced α) :
    (x.rescue handler).result = (handler fault).result := by
  unfold rescue
  rw [h]

end Traced

/-- A lookup fails with a code of the provider or with none, or it brings something with a property. -/
def Answers {α : Type} (P : α → Prop) (x : Traced α) : Prop :=
  (∃ failure code, x.result = .error (.lookup failure) ∧ failure.code = .ofOption code) ∨ ∃ a, x.result = .ok a ∧ P a

/-- A record as it comes from outside: its members have texts for names. -/
def IsNamed (record : Attributes) : Prop :=
  ∀ member ∈ record, member.1.isText = true

/-- The record of a load balancer that its key can be built from, or none. -/
def IsBalancer (account region : String) (record : Attributes) : Prop :=
  record = [] ∨ IsNamed record ∧ ∃ name vpc key, HasText record "loadBalancerId" (some name) ∧
    HasText record "loadBalancerName" (some name) ∧ HasText record "vpcId" vpc ∧
    Key.loadBalancer (some name) (some account) (some region) vpc = .ok key

/-- A scaling configuration, with texts for its name and its id, or none. -/
def IsConfiguration (configuration : Option Attributes) : Prop :=
  ∀ record, configuration = some record → IsNamed record ∧
    (∃ name, HasText record "scalingConfigurationName" name) ∧ ∃ id, HasText record "scalingConfigurationId" id

/-- Records of instances, each with a text for its zone or none. -/
def AreDetails (details : Details) : Prop :=
  ∀ entry ∈ details, ∃ zone, HasText entry.2 "zoneId" zone

namespace GroupDescription

def instanceIds (d : GroupDescription) : List String :=
  d.members.filterMap (fun m => Views.present m.id)

def namedBalancers (d : GroupDescription) : List String :=
  d.balancers.filter (fun name => name != "")

end GroupDescription

structure Provider.AnswersAbout (provider : Provider) (account region : String) (d : GroupDescription)
    (record : Attributes) : Prop where
  configuration : Answers IsConfiguration (provider.scalingConfiguration record)
  balancers : ∀ name ∈ d.namedBalancers, Answers (IsBalancer account region) (provider.loadBalancer (.str name))
  details : Answers AreDetails (provider.details (d.instanceIds.map .str))

def Provider.balancerRecord (provider : Provider) (name : String) : Attributes :=
  match (provider.loadBalancer (.str name)).result with
  | .ok record => record
  | .error _ => []

def Provider.balancerNames (provider : Provider) (d : GroupDescription) : List Value :=
  (d.namedBalancers.map provider.balancerRecord).filterMap (fun record =>
    if record.isEmpty then none else some (record.get "loadBalancerName"))

namespace ClusterAgent

theorem result_logFailure (agent : String) {failure : LookupFailure} {code : Option String}
    (h : failure.code = .ofOption code) : (logFailure agent failure).result = .ok () := by
  have hfound : ∃ b, failure.notFound = .ok b := by
    unfold LookupFailure.notFound
    split
    · rw [h]
      cases code with
      | none => rename_i htruthy; rw [h] at htruthy; cases htruthy
      | some s => exact ⟨_, rfl⟩
    · exact ⟨_, rfl⟩
  obtain ⟨b, hb⟩ := hfound
  unfold logFailure
  rw [Traced.result_bind (a := b) hb]
  cases b <;> rfl

/-- A lookup never stops the work: it brings what it finds, or the other value when it fails. -/
theorem result_orLogged {α : Type} {P : α → Prop} {x : Traced α} (h : Answers P x) (agent : String) (other : α)
    (hother : P other) : ∃ a, (orLogged agent x other).result = .ok a ∧ P a := by
  unfold orLogged
  rcases h with ⟨failure, code, hfailed, hcode⟩ | ⟨a, hok, ha⟩
  · refine ⟨other, ?_, hother⟩
    rw [Traced.result_rescue_error hfailed]
    exact Traced.result_bind (result_logFailure agent hcode) _
  · exact ⟨a, Traced.result_rescue hok _, ha⟩

theorem result_orLogged_eq {α : Type} {P : α → Prop} {x : Traced α} (h : Answers P x) (agent : String) (other : α) :
    (orLogged agent x other).result = .ok (x.result.toOption.getD other) := by
  unfold orLogged
  rcases h with ⟨failure, code, hfailed, hcode⟩ | ⟨a, hok, -⟩
  · rw [hfailed, Traced.result_rescue_error hfailed]
    exact Traced.result_bind (result_logFailure agent hcode) _
  · rw [hok]
    exact Traced.result_rescue hok _

theorem result_orLogged_balancer {account region : String} {provider : Provider} {name : String}
    (h : Answers (IsBalancer account region) (provider.loadBalancer (.str name))) (agent : String) :
    (orLogged agent (provider.loadBalancer (.str name)) []).result = .ok (provider.balancerRecord name) := by
  rw [result_orLogged_eq h, Provider.balancerRecord]
  cases (provider.loadBalancer (.str name)).result <;> rfl

/-- What is known of a described group once the lookups about it are over. -/
structure Fetched (provider : Provider) (account region : String) (d : GroupDescription) (record : Attributes)
    (data : GroupData) : Prop where
  group : data.group = record
  configuration : IsConfiguration data.configuration
  balancers : data.balancers = (d.namedBalancers.map provider.balancerRecord).filter (fun record => !record.isEmpty)
  buildable : ∀ record ∈ data.balancers, IsBalancer account region record
  members : ∃ zone : MemberDescription → Option String,
    data.members = d.members.map (fun m => Records.memberRecord { m with zone := zone m })

theorem elements_orElse (items : List Value) : ((Value.list items).orElse (.list [])).elements = .ok items := by
  cases items <;> rfl

theorem filter_truthy_ids (members : List MemberDescription) :
    ((members.map Records.memberRecord).map (fun m => m.get "instanceId")).filter Value.truthy =
      (members.filterMap (fun m => Views.present m.id)).map Value.str := by
  induction members with
  | nil => rfl
  | cons m rest ih =>
    have hid : (Records.memberRecord m).get "instanceId" = .ofOption m.id := rfl
    rw [List.map_cons, List.map_cons, List.filter_cons, ih, hid, List.filterMap_cons]
    cases m.id with
    | none => rfl
    | some id =>
      by_cases hempty : id = ""
      · subst hempty
        rfl
      · have hpresent : Views.present (some id) = some id := by simp [Views.present, hempty]
        rw [if_pos ((truthy_ofOption _).2 ⟨id, rfl, hempty⟩), hpresent]
        rfl

theorem filter_truthy_texts (texts : List String) :
    (texts.map Value.str).filter Value.truthy = (texts.filter (fun text => text != "")).map Value.str := by
  rw [List.filter_map]
  rfl

/-- The zone of a member: its own, or else the one that is found for it. -/
def zoneOf (details : Details) (m : MemberDescription) : Value :=
  match details.lookup (Records.processAtom m.id) with
  | some (head :: rest) =>
    if (Value.ofOption m.zone).truthy then .ofOption m.zone else Attributes.get (head :: rest) "zoneId"
  | _ => .ofOption m.zone

theorem withZone_eq (details : Details) (m : MemberDescription) :
    withZone details (Records.memberRecord m) = .ok ((Records.memberRecord m).put "zoneId" (zoneOf details m)) := by
  have hid : ((Records.memberRecord m).get "instanceId").toAtom = .ok (Records.processAtom m.id) :=
    Records.toAtom_ofOption m.id
  unfold withZone zoneOf
  rw [hid, ok_bind]
  generalize details.lookup (Records.processAtom m.id) = found
  rcases found with _ | _ | ⟨head, rest⟩
  · rfl
  · rfl
  · change (if (Value.ofOption m.zone).truthy then _ else _ : Except Fault Attributes) = _
    dsimp only
    split <;> rfl

theorem exists_zone {details : Details} (h : AreDetails details) (m : MemberDescription) :
    ∃ zone, zoneOf details m = .ofOption zone := by
  unfold zoneOf
  split
  · rename_i head rest hlookup
    split
    · exact ⟨m.zone, rfl⟩
    · obtain ⟨key, -, hmem⟩ := ReportBuilder.exists_mem_of_lookup hlookup
      exact h (key, head :: rest) hmem
  · exact ⟨m.zone, rfl⟩

theorem exists_zoned {details : Details} (h : AreDetails details) (d : GroupDescription) :
    ∃ zone : MemberDescription → Option String,
      ((d.members.map Records.memberRecord).mapM (fun m => (withZone details m : Traced Attributes))).result =
        .ok (d.members.map (fun m => Records.memberRecord { m with zone := zone m })) := by
  choose zone hzone using exists_zone h
  refine ⟨zone, ?_⟩
  rw [List.mapM_map]
  refine Traced.result_mapM (fun m _ => (withZone_eq details m).trans ?_)
  rw [hzone]
  rfl

theorem exists_details {provider : Provider} {P : Details → Prop} {wanted : List Value}
    (h : Answers P (provider.details wanted)) (hnone : P []) (agent : String) :
    ∃ details, (if wanted.isEmpty then pure [] else orLogged agent (provider.details wanted) []).result = .ok details ∧
      P details := by
  split
  · exact ⟨[], rfl, hnone⟩
  · exact result_orLogged h agent [] hnone

theorem fetchGroup_result {provider : Provider} {agent : String} {group : Attributes}
    {configuration : Option Attributes} {ids items : List Value} {balancers members zoned : List Attributes}
    {details : Details} (hconfiguration : (orLogged agent (provider.scalingConfiguration group) none).result =
      .ok configuration)
    (hids : ((group.get "loadBalancerIds").orElse (.list [])).elements = .ok ids)
    (hbalancers : ((ids.filter Value.truthy).mapM (fun id => orLogged agent (provider.loadBalancer id) [])).result =
      .ok balancers)
    (hitems : ((group.get "instances").orElse (.list [])).elements = .ok items)
    (hmembers : (items.mapM (fun v => (v.toMembers : Traced Attributes))).result = .ok members)
    (hdetails : (if ((members.map (fun m => m.get "instanceId")).filter Value.truthy).isEmpty then pure [] else
      orLogged agent (provider.details ((members.map (fun m => m.get "instanceId")).filter Value.truthy)) []).result =
        .ok details)
    (hzoned : (members.mapM (fun m => (withZone details m : Traced Attributes))).result = .ok zoned) :
    (fetchGroup provider agent group).result =
      .ok ⟨group, configuration.filter (fun c => !c.isEmpty), balancers.filter (fun b => !b.isEmpty), zoned, details⟩ := by
  unfold fetchGroup
  refine Traced.result_bind_eq hconfiguration (Traced.result_bind_eq hids (Traced.result_bind_eq hbalancers ?_))
  refine Traced.result_bind_eq hitems (Traced.result_bind_eq hmembers ?_)
  dsimp only
  split at hdetails
  · rename_i hnone
    rw [if_pos hnone]
    exact Traced.result_bind_eq hdetails (Traced.result_bind_eq hzoned rfl)
  · rename_i hsome
    rw [if_neg hsome]
    exact Traced.result_bind_eq hdetails (Traced.result_bind_eq hzoned rfl)

theorem fetchGroup_ok {provider : Provider} {account region : String} {d : GroupDescription} {record : Attributes}
    (hrecord : Records.IsRecord record d) (hanswers : provider.AnswersAbout account region d record) (agent : String) :
    ∃ data, (fetchGroup provider agent record).result = .ok data ∧ Fetched provider account region d record data := by
  obtain ⟨configuration, hconfiguration, hshape⟩ := result_orLogged hanswers.configuration agent none
    (fun _ hnone => nomatch hnone)
  have hids : ((record.get "loadBalancerIds").orElse (.list [])).elements = .ok (d.balancers.map .str) := by
    rw [hrecord.balancers]
    exact elements_orElse _
  have hbalancers : (((d.balancers.map Value.str).filter Value.truthy).mapM
      (fun id => orLogged agent (provider.loadBalancer id) [])).result =
      .ok (d.namedBalancers.map provider.balancerRecord) := by
    rw [filter_truthy_texts, List.mapM_map]
    exact Traced.result_mapM (fun name hname => result_orLogged_balancer (hanswers.balancers name hname) agent)
  have hitems : ((record.get "instances").orElse (.list [])).elements =
      .ok (d.members.map (fun m => .object (Records.memberRecord m))) := by
    rw [hrecord.instances]
    exact elements_orElse _
  have hmembers : ((d.members.map (fun m => Value.object (Records.memberRecord m))).mapM
      (fun v => (v.toMembers : Traced Attributes))).result = .ok (d.members.map Records.memberRecord) := by
    rw [List.mapM_map]
    exact Traced.result_mapM (fun m _ => rfl)
  have hbuildable : ∀ found ∈ (d.namedBalancers.map provider.balancerRecord).filter (fun record => !record.isEmpty),
      IsBalancer account region found := by
    intro found hfound
    obtain ⟨name, hname, rfl⟩ := List.mem_map.1 (List.mem_filter.1 hfound).1
    unfold Provider.balancerRecord
    rcases hanswers.balancers name hname with ⟨failure, code, hfailed, -⟩ | ⟨record, hok, hbalancer⟩
    · rw [hfailed]
      exact .inl rfl
    · rw [hok]
      exact hbalancer
  have hkept : IsConfiguration (configuration.filter (fun c => !c.isEmpty)) :=
    fun found hfound => hshape found (Option.filter_eq_some_iff.1 hfound).1
  have hdetails := hanswers.details
  unfold GroupDescription.instanceIds at hdetails
  rw [← filter_truthy_ids] at hdetails
  obtain ⟨details, hdetails, hrecords⟩ := exists_details hdetails (fun _ hnone => absurd hnone List.not_mem_nil) agent
  obtain ⟨zone, hzoned⟩ := exists_zoned hrecords d
  exact ⟨_, fetchGroup_result hconfiguration hids hbalancers hitems hmembers hdetails hzoned, rfl, hkept, rfl,
    hbuildable, zone, rfl⟩

end ClusterAgent

namespace Names

open FleetCache.Text

theorem length_dropFinalNewline_le (text : List Char) : (dropFinalNewline text).length ≤ text.length := by
  fun_induction dropFinalNewline text with
  | case1 => exact Nat.le_refl _
  | case2 => exact Nat.zero_le _
  | case3 c rest _ ih => exact Nat.succ_le_succ ih

theorem splitPush_some {name cluster digits : List Char} (h : splitPush name = some (cluster, digits)) :
    cluster ≠ [] ∧ digits.length ≤ name.length := by
  unfold splitPush at h
  dsimp only at h
  split at h
  · rename_i front _
    split at h
    · rename_i hfits
      obtain ⟨rfl, rfl⟩ := Prod.mk.inj (Option.some.inj h)
      simp only [Bool.and_eq_true, Bool.not_eq_true', List.isEmpty_eq_false_iff] at hfits
      refine ⟨by simpa using hfits.1.2, ?_⟩
      -- the digits end the name without its last line feed, so there are no more of them than it has characters
      have hdigits := (List.takeWhile_sublist isDigit (l := (dropFinalNewline name).reverse)).length_le
      have hshorter := length_dropFinalNewline_le name
      rw [List.length_reverse] at hdigits ⊢
      omega
    · cases h
  · cases h

theorem ofCluster_present {cluster : List Char} (h : cluster ≠ []) (group : String) (sequence : Option Nat) :
    (ofCluster group cluster sequence).group = group ∧ (ofCluster group cluster sequence).cluster ≠ "" ∧
      (ofCluster group cluster sequence).app ≠ "" := by
  have hofList {text : List Char} (htext : text ≠ []) : String.ofList text ≠ "" :=
    fun hempty => htext (String.ofList_eq_empty_iff.1 hempty)
  refine ⟨rfl, hofList h, hofList ?_⟩
  split
  · exact h
  · rename_i hpresent
    simpa using hpresent

def overlong (name : String) : Bool :=
  (splitPush name.toList).any (fun parts => maxDigits < parts.2.length)

theorem exists_parse_of_fits {name : String} (hname : name ≠ "") (hfits : overlong name = false) :
    ∃ names, parse name = .ok names ∧ names.group = name ∧ names.cluster ≠ "" ∧ names.app ≠ "" := by
  unfold parse
  rw [if_neg hname]
  unfold overlong at hfits
  split
  · refine ⟨_, rfl, ofCluster_present (fun hempty => hname ?_) name none⟩
    exact String.toList_eq_nil_iff.1 hempty
  · rename_i cluster digits hsplit
    rw [hsplit, Option.any_some, decide_eq_false_iff_not] at hfits
    rw [if_neg hfits]
    exact ⟨_, rfl, ofCluster_present (splitPush_some hsplit).1 name _⟩

theorem overlong_of_parse {name : String} {names : Names} (h : parse name = .ok names) : overlong name = false := by
  unfold parse at h
  unfold overlong
  split at h
  · cases h
  · split at h
    · rename_i hnone
      rw [hnone]
      rfl
    · rename_i cluster digits hsome
      split at h
      · cases h
      · rename_i hfits
        rw [hsome, Option.any_some]
        exact decide_eq_false hfits

theorem overlong_eq_false {name : String} (hlength : name.length ≤ 255) : overlong name = false := by
  unfold overlong
  cases hsplit : splitPush name.toList with
  | none => rfl
  | some parts =>
    obtain ⟨cluster, digits⟩ := parts
    have hdigits := (splitPush_some hsplit).2
    rw [String.length_toList] at hdigits
    rw [Option.any_some, decide_eq_false_iff_not]
    have hmax : maxDigits = 4300 := rfl
    change ¬ maxDigits < digits.length
    omega

end Names

namespace ClusterAgent

theorem exists_foldlM_ok {α β : Type} {step : β → α → Except Fault β} {items : List α}
    (h : ∀ a ∈ items, ∀ b, ∃ next, step b a = .ok next) (start : β) : ∃ last, items.foldlM step start = .ok last := by
  induction items generalizing start with
  | nil => exact ⟨start, rfl⟩
  | cons a rest ih =>
    obtain ⟨ha, hrest⟩ := List.forall_mem_cons.1 h
    obtain ⟨next, hnext⟩ := ha start
    obtain ⟨last, hlast⟩ := ih hrest next
    exact ⟨last, by rw [List.foldlM_cons, hnext, ok_bind, hlast]⟩

variable {account region : String}

theorem memberKeys_ok (haccount : account ≠ "") (hregion : region ≠ "") {members : List Attributes}
    (hmembers : ∀ m ∈ members, ∃ id, HasText m "instanceId" id) :
    ∃ keys, memberKeys account region members = .ok keys := by
  refine exists_foldlM_ok (fun member hmember keys => ?_) []
  obtain ⟨id, hid⟩ := hmembers member hmember
  dsimp only
  rw [hid]
  split
  · rename_i htruthy
    obtain ⟨text, rfl, hne⟩ := (truthy_ofOption id).1 htruthy
    obtain ⟨key, hkey⟩ := Key.exists_of_texts .instances [account, region, text] rfl
      (by simp [haccount, hregion, hne])
    have hmade : liftKey (Key.instanceOf (Value.ofOption (some text)).field? (some account) (some region)) = .ok key :=
      congrArg liftKey hkey
    refine ⟨putKey (.str text) key keys, ?_⟩
    rw [hmade]
    rfl
  · exact ⟨keys, rfl⟩

def IsKeyed (account region : String) (record : Attributes) : Prop :=
  (∃ key, LoadBalancerAgent.keyOf account region record = .ok key) ∧ ∃ id, balancerId record = .atom id

theorem isKeyed_of_isBalancer {record : Attributes} (h : IsBalancer account region record) (hpresent : record ≠ []) :
    IsKeyed account region record := by
  rcases h with hnone | ⟨-, name, vpc, key, hid, hname, hvpc, hkey⟩
  · exact absurd hnone hpresent
  · have hbalancer : (record.get "loadBalancerId").orElse (record.get "loadBalancerName") = .str name := by
      rw [hid, hname]
      exact ite_self _
    have hfield : (Value.ofOption vpc).field? = vpc := by cases vpc <;> rfl
    refine ⟨⟨key, ?_⟩, .str name, hbalancer⟩
    rw [LoadBalancerAgent.keyOf, hbalancer, hvpc, hfield]
    exact hkey

theorem balancerKeys_ok {records : List Attributes} (h : ∀ record ∈ records, IsKeyed account region record) :
    ∃ keys, balancerKeys account region records = .ok keys := by
  refine exists_foldlM_ok (fun record hrecord keys => ?_) []
  obtain ⟨⟨key, hkey⟩, id, hid⟩ := h record hrecord
  refine ⟨putKey id key keys, ?_⟩
  rw [hkey, hid]
  rfl

theorem exists_text_orElse (first second : Option String) :
    ∃ text, (Value.ofOption first).orElse (.ofOption second) = .ofOption text := by
  unfold Value.orElse
  split
  · exact ⟨first, rfl⟩
  · exact ⟨second, rfl⟩

theorem orElse_empty (text : Option String) : (Value.ofOption text).orElse (.str "") = .str (text.getD "") := by
  unfold Value.orElse
  split
  · rename_i htruthy
    obtain ⟨s, rfl, -⟩ := (truthy_ofOption text).1 htruthy
    rfl
  · rename_i hmissing
    cases text with
    | none => rfl
    | some s =>
      have hempty : s = "" := Classical.byContradiction (fun hne => hmissing ((truthy_ofOption _).2 ⟨s, rfl, hne⟩))
      rw [hempty]
      rfl

theorem text_configName {configuration : Option Attributes} (h : IsConfiguration configuration) :
    ∃ text, configName configuration = .ofOption text := by
  unfold configName
  split
  · exact ⟨none, rfl⟩
  · obtain ⟨-, ⟨name, hname⟩, id, hid⟩ := h _ rfl
    rw [hname, hid]
    exact exists_text_orElse name id

theorem exists_keys (haccount : account ≠ "") (hregion : region ≠ "") {data : GroupData} {name : String}
    (hname : HasText data.group "scalingGroupName" (some name)) (hpresent : name ≠ "")
    (hfits : Names.overlong name = false) (hmembers : ∀ m ∈ data.members, ∃ id, HasText m "instanceId" id)
    (hbalancers : ∀ record ∈ data.balancers, IsKeyed account region record) :
    ∃ keys, deriveKeys account region data = .ok keys ∧ keys.names.group = name := by
  obtain ⟨names, hnames, hgroup, hcluster, happ⟩ := Names.exists_parse_of_fits hpresent hfits
  have hparsed : Names.ofValue ((data.group.get "scalingGroupName").orElse (.str "")) = .ok names := by
    rw [hname, orElse_empty]
    exact hnames
  obtain ⟨application, happlication⟩ := Key.exists_of_texts .applications [names.app] rfl
    (by simp [happ])
  obtain ⟨cluster, hclusterKey⟩ := Key.exists_of_texts .clusters [account, names.app, names.cluster]
    rfl (by simp [haccount, happ, hcluster])
  obtain ⟨serverGroup, hserverGroup⟩ := Key.exists_of_texts .serverGroups
    [account, region, names.group] rfl (by simp [haccount, hregion, hgroup, hpresent])
  obtain ⟨instances, hinstances⟩ := memberKeys_ok haccount hregion hmembers
  obtain ⟨balancers, hbalancers⟩ := balancerKeys_ok hbalancers
  unfold deriveKeys
  refine exists_ok_bind hparsed (exists_ok_bind (congrArg liftKey happlication) ?_)
  refine exists_ok_bind (congrArg liftKey hclusterKey) (exists_ok_bind (congrArg liftKey hserverGroup) ?_)
  dsimp only
  -- only a configuration with a name has a key
  split
  · rename_i htruthy
    obtain ⟨key, hkey⟩ := Key.exists_of_present .launchConfigs
      [.str account, .str region, configName data.configuration] rfl
      (Value.keyless_eq_false_iff.2 ⟨haccount, hregion, Value.missing_eq_false_of_truthy htruthy⟩)
    refine exists_ok_bind (a := some key) (congrArg (fun x => (liftKey x).map some) hkey) ?_
    exact exists_ok_bind hinstances (exists_ok_bind hbalancers ⟨_, rfl, hgroup⟩)
  · exact exists_ok_bind (a := none) rfl (exists_ok_bind hinstances (exists_ok_bind hbalancers ⟨_, rfl, hgroup⟩))

theorem deriveKeys_ok (haccount : account ≠ "") (hregion : region ≠ "") {provider : Provider} {d : GroupDescription}
    {record : Attributes} {data : GroupData} (hrecord : Records.IsRecord record d) (hname : d.name ≠ "")
    (hlength : d.name.length ≤ 255) (hdata : Fetched provider account region d record data) :
    ∃ keys, deriveKeys account region data = .ok keys ∧ keys.names.group = d.name := by
  refine exists_keys haccount hregion (hdata.group ▸ hrecord.name) hname (Names.overlong_eq_false hlength)
    (fun member hmember => ?_) (fun found hfound => isKeyed_of_isBalancer (hdata.buildable found hfound) ?_)
  · obtain ⟨zone, hmembers⟩ := hdata.members
    rw [hmembers] at hmember
    obtain ⟨m, -, rfl⟩ := List.mem_map.1 hmember
    exact ⟨m.id, rfl⟩
  · rintro rfl
    rw [hdata.balancers] at hfound
    simpa using (List.mem_filter.1 hfound).2

end ClusterAgent

end FleetCache
