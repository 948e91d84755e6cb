import Mathlib.Data.List.Forall2
import FleetCache.Provider.Records
import FleetCache.Proofs.ContributionTexts

set_option autoImplicit false

namespace FleetCache

def HasText (members : Attributes) (name : String) (text : Option String) : Prop :=
  members.get name = .ofOption text

def HasList (members : Attributes) (name : String) (items : List Value) : Prop :=
  (members.lookup (.str name)).getD (.list []) = .list items

def IsObjectOrNull (v : Value) : Prop :=
  v = .null ∨ ∃ members, v = .object members

structure MemberDescription where
  id : Option String
  health : Option String
  lifecycle : Option String
  zone : Option String
  instanceType : Option String

/-- A scaling group, as it is described: its name, its status, the processes that are suspended, its members and the
names of its load balancers. -/
structure GroupDescription where
  name : String
  status : Option String
  suspended : List (Option String)
  members : List MemberDescription
  balancers : List String

structure MemberDescription.Describes (m : MemberDescription) (members : Attributes) : Prop where
  id : HasText members "InstanceId" m.id
  health : HasText members "HealthStatus" m.health
  lifecycle : HasText members "LifecycleState" m.lifecycle
  zone : HasText members "AvailabilityZone" m.zone
  instanceType : HasText members "InstanceType" m.instanceType

def IsMixedPolicy (v : Value) : Prop :=
  v = .null ∨ ∃ policy template : Attributes, v = .object policy ∧
    (policy.lookup (.str "LaunchTemplate")).getD (.object []) = .object template ∧
    IsObjectOrNull (template.get "LaunchTemplateSpecification")

def IsMomentOrNull (v : Value) : Prop :=
  v = .null ∨ ∃ m, v = .time m ∧ (Time.writeStamp? m).isSome = true

def AreTags (v : Value) : Prop :=
  v = .null ∨ ∃ items, v = .list items ∧
    ∀ item ∈ items, ∃ members key, item = .object members ∧ HasText members "Key" key

structure GroupDescription.Describes (d : GroupDescription) (members : Attributes) : Prop where
  name : members.lookup (.str "AutoScalingGroupName") = some (.str d.name)
  arn : ∃ arn, HasText members "AutoScalingGroupARN" arn
  configuration : ∃ configuration, HasText members "LaunchConfigurationName" configuration
  template : IsObjectOrNull (members.get "LaunchTemplate")
  policy : IsMixedPolicy (members.get "MixedInstancesPolicy")
  status : HasText members "Status" d.status
  suspended : ∃ processes, HasList members "SuspendedProcesses" processes ∧
    List.Forall₂ (fun v process => ∃ members, v = .object members ∧ HasText members "ProcessName" process) processes
      d.suspended
  created : IsMomentOrNull (members.get "CreatedTime")
  balancers : HasList members "LoadBalancerNames" (d.balancers.map .str)
  targetGroups : ∃ arns : List String, HasList members "TargetGroupARNs" (arns.map .str)
  zones : ∃ zones : List String, HasList members "AvailabilityZones" (zones.map .str)
  tags : AreTags (members.get "Tags")
  instances : ∃ items, HasList members "Instances" items ∧
    List.Forall₂ (fun v m => ∃ members, v = .object members ∧ MemberDescription.Describes m members) items d.members

/-- Whether a group is out of service: it has a status, or one of the processes that bring instances into service is
suspended. -/
def GroupDescription.Disabled (d : GroupDescription) : Prop :=
  (∃ status, d.status = some status ∧ status ≠ "") ∨
    some "Launch" ∈ d.suspended ∨ some "AddToLoadBalancer" ∈ d.suspended

theorem ok_bind {α β : Type} (a : α) (f : α → Except Fault β) : (Except.ok a >>= f) = f a := rfl

theorem exists_ok_bind {α β : Type} {P : β → Prop} {x : Except Fault α} {f : α → Except Fault β} {a : α}
    (hx : x = .ok a) (h : ∃ b, f a = .ok b ∧ P b) : ∃ b, (x >>= f) = .ok b ∧ P b := by
  rw [hx]
  exact h

theorem truthy_ofOption (text : Option String) :
    (Value.ofOption text).truthy = true ↔ ∃ s, text = some s ∧ s ≠ "" := by
  cases text with
  | none => simp [Value.ofOption, Value.truthy, Atom.truthy]
  | some s => simp [Value.ofOption, Value.truthy, Atom.truthy]

theorem mapM_forall₂ {α β γ : Type} {f : α → Except Fault β} {g : γ → β} {items : List α} {described : List γ}
    (h : List.Forall₂ (fun a c => f a = .ok (g c)) items described) : items.mapM f = .ok (described.map g) := by
  induction h with
  | nil => rfl
  | cons hhead _ ih =>
    rw [List.mapM_cons, hhead, ok_bind, ih]
    rfl

namespace Records

theorem elementsOf_eq {members : Attributes} {name : String} {items : List Value} (h : HasList members name items) :
    elementsOf (.object members) name = .ok items := by
  unfold HasList at h
  have hmembers : (Value.object members).members = .ok members := rfl
  unfold elementsOf
  rw [hmembers, ok_bind]
  cases hlookup : members.lookup (.str name) with
  | none =>
    rw [hlookup] at h
    obtain rfl : [] = items := by simpa using h
    rfl
  | some v =>
    rw [hlookup] at h
    obtain rfl : v = .list items := h
    rfl

def memberRecord (m : MemberDescription) : Attributes :=
  [("instanceId", .ofOption m.id), ("healthStatus", .ofOption m.health), ("lifecycleState", .ofOption m.lifecycle),
    ("zoneId", .ofOption m.zone), ("instanceType", .ofOption m.instanceType)]

theorem groupMember_eq {m : MemberDescription} {members : Attributes} (h : m.Describes members) :
    groupMember (.object members) = .ok (.object (memberRecord m)) := by
  obtain ⟨hid, hhealth, hlifecycle, hzone, htype⟩ := h
  rw [memberRecord, ← hid, ← hhealth, ← hlifecycle, ← hzone, ← htype]
  rfl

theorem tags_ok {v : Value} (h : AreTags v) : ∃ w, tags v = .ok w := by
  rcases h with rfl | ⟨items, rfl, hitems⟩
  · exact ⟨_, rfl⟩
  · have hpairs : ∃ pairs, items.filterMapM (fun tag => do
        let key ← tag.member "Key"
        if key.truthy then return some (← key.toAtom, ← memberOr tag "Value" "") else return none) =
          Except.ok pairs := by
      induction items with
      | nil => exact ⟨[], rfl⟩
      | cons item rest ih =>
        obtain ⟨⟨members, key, rfl, hkey⟩, hrest⟩ := List.forall_mem_cons.1 hitems
        obtain ⟨pairs, hpairs⟩ := ih hrest
        have hmember : (Value.object members).member "Key" = .ok (.ofOption key) := congrArg Except.ok hkey
        rw [List.filterMapM_cons, hmember, ok_bind]
        cases key with
        | none => exact ⟨pairs, hpairs⟩
        | some key =>
          by_cases hempty : key = ""
          · subst hempty
            exact ⟨pairs, hpairs⟩
          · have htruthy : (Value.ofOption (some key)).truthy = true := by
              simpa [Value.ofOption, Value.truthy, Atom.truthy] using hempty
            refine ⟨(.str key, (members.lookup (.str "Value")).getD "") :: pairs, ?_⟩
            rw [if_pos htruthy, hpairs]
            rfl
    obtain ⟨pairs, hpairs⟩ := hpairs
    unfold tags
    split
    · exact ⟨_, rfl⟩
    · refine ⟨.object (Attributes.ofPairs pairs), ?_⟩
      change (List.filterMapM _ items >>= fun pairs => _ : Except Fault Value) = _
      rw [hpairs]
      rfl

theorem stamped_ok {members : Attributes} {name : String} (h : IsMomentOrNull (members.get name)) :
    ∃ w, stamped (.object members) name = .ok w := by
  unfold stamped
  change ∃ w, (members.get name).stamped = .ok w
  rcases h with hnull | ⟨m, hm, hstamp⟩
  · exact ⟨.null, by rw [hnull]; rfl⟩
  · obtain ⟨text, htext⟩ := Option.isSome_iff_exists.1 hstamp
    refine ⟨.str text, ?_⟩
    rw [hm, Value.stamped, stampOf, htext]
    rfl

theorem launchTemplate_ok {members : Attributes} (hdirect : IsObjectOrNull (members.get "LaunchTemplate"))
    (hpolicy : IsMixedPolicy (members.get "MixedInstancesPolicy")) :
    ∃ template, launchTemplate (.object members) = .ok template ∧ IsObjectOrNull template := by
  unfold launchTemplate
  change ∃ template, (if (members.get "LaunchTemplate").truthy then _ else _ : Except Fault Value) = .ok template ∧ _
  split
  · exact ⟨_, rfl, hdirect⟩
  · change ∃ template, (memberOr ((members.get "MixedInstancesPolicy").orElse (.object [])) "LaunchTemplate"
      (.object []) >>= fun found => found.member "LaunchTemplateSpecification") = .ok template ∧ _
    rcases hpolicy with hnull | ⟨policy, template, hobject, htemplate, hspecified⟩
    · rw [hnull]
      exact ⟨.null, rfl, .inl rfl⟩
    · rw [hobject, Value.orElse]
      split
      · change ∃ found, ((policy.lookup (.str "LaunchTemplate")).getD (.object [])).member
          "LaunchTemplateSpecification" = .ok found ∧ _
        rw [htemplate]
        exact ⟨_, rfl, hspecified⟩
      · exact ⟨.null, rfl, .inl rfl⟩

def processAtom (process : Option String) : Atom :=
  (process.map Atom.str).getD .null

theorem toAtom_ofOption (process : Option String) : (Value.ofOption process).toAtom = .ok (processAtom process) := by
  cases process <;> rfl

theorem processAtom_beq_str (process : Option String) (name : String) :
    (processAtom process == .str name) = true ↔ process = some name := by
  cases process with
  | none =>
    have hnull : (Atom.null == .str name) = false := by
      rw [Bool.eq_false_iff, ne_eq, Atom.beq_iff]
      intro h
      -- the codes of the two begin with different characters
      have := congrArg (fun s => s.toList.head?) h
      simp [Atom.code] at this
    exact iff_of_false (fun h => Bool.false_ne_true (hnull.symm.trans h)) (Option.some_ne_none name).symm
  | some s =>
    rw [processAtom, Option.map_some, Option.getD_some, Atom.str_beq_str, beq_iff_eq]
    exact ⟨congrArg some, Option.some.inj⟩

theorem mem_of_mem_distinctAtoms {items : List Atom} {a : Atom} (h : a ∈ distinctAtoms items) : a ∈ items := by
  unfold distinctAtoms at h
  induction items using eraseDups_induction with
  | nil => exact h
  | cons head rest ih =>
    rw [List.eraseDups_cons] at h
    rcases List.mem_cons.1 h with rfl | hrest
    · exact List.mem_cons_self
    · exact List.mem_cons_of_mem _ (List.mem_filter.1 (ih hrest)).1

def isDisabling (suspended : List Atom) : Bool :=
  suspended.any (fun p => disablingProcesses.any (fun d => p == .str d))

theorem isDisabling_iff (suspended : List (Option String)) :
    isDisabling (distinctAtoms (suspended.map processAtom)) = true ↔
      some "Launch" ∈ suspended ∨ some "AddToLoadBalancer" ∈ suspended := by
  have hmem (name : String) :
      (∃ a ∈ distinctAtoms (suspended.map processAtom), (a == .str name) = true) ↔ some name ∈ suspended := by
    rw [distinctAtoms, exists_mem_eraseDups]
    constructor
    · rintro ⟨_, hatom, hname⟩
      obtain ⟨process, hprocess, rfl⟩ := List.mem_map.1 hatom
      rwa [(processAtom_beq_str process name).1 hname] at hprocess
    · exact fun hname => ⟨_, List.mem_map_of_mem hname, (processAtom_beq_str _ name).2 rfl⟩
  rw [← hmem, ← hmem]
  simp only [isDisabling, disablingProcesses, List.any_eq_true, List.any_cons, List.any_nil, Bool.or_false,
    Bool.or_eq_true, and_or_left, exists_or]

theorem isText_of_suspended {suspended : List (Option String)} {a : Atom}
    (h : a ∈ (distinctAtoms (suspended.map processAtom)).filter Atom.truthy) : a.isText = true := by
  obtain ⟨hmem, htruthy⟩ := List.mem_filter.1 h
  obtain ⟨process, -, rfl⟩ := List.mem_map.1 (mem_of_mem_distinctAtoms hmem)
  cases process with
  | none => cases htruthy
  | some name => rfl

structure IsRecord (record : Attributes) (d : GroupDescription) : Prop where
  id : ∃ arn, HasText record "scalingGroupId" arn
  name : HasText record "scalingGroupName" (some d.name)
  state : ∃ state, HasText record "lifecycleState" (some state) ∧ (state ≠ Views.activeState ↔ d.Disabled)
  balancers : record.get "loadBalancerIds" = .strings d.balancers
  instances : record.get "instances" = .list (d.members.map (fun m => .object (memberRecord m)))
  named : ∀ member ∈ record, member.1.isText = true

theorem state_ne_active_iff {d : GroupDescription} {members : Attributes} (h : HasText members "Status" d.status) :
    (if (members.get "Status").truthy || isDisabling (distinctAtoms (d.suspended.map processAtom))
      then Views.inactiveState else Views.activeState) ≠ Views.activeState ↔ d.Disabled := by
  have hout : ((members.get "Status").truthy || isDisabling (distinctAtoms (d.suspended.map processAtom))) = true ↔
      d.Disabled := by
    rw [Bool.or_eq_true, h, truthy_ofOption, isDisabling_iff]
    rfl
  rw [← hout]
  split
  · rename_i hdisabled
    exact iff_of_true (by decide) hdisabled
  · rename_i henabled
    exact iff_of_false (fun hne => hne rfl) henabled

theorem build_nil : build [] = .ok [] := rfl

theorem build_cons {name : Atom} {v : Except Fault Value} {w : Value} {parts : List (Atom × Except Fault Value)}
    {record : Attributes} (hv : v = .ok w) (h : build parts = .ok record) :
    build ((name, v) :: parts) = .ok ((name, w) :: record) := by
  unfold build at h ⊢
  rw [List.mapM_cons, h, hv]
  rfl

theorem listOf_eq {members : Attributes} {name : String} {items : List Value} (h : HasList members name items) :
    listOf (.object members) name = .ok (.list items) := by
  rw [listOf, elementsOf_eq h]
  rfl

theorem scalingGroup_ok {d : GroupDescription} {members : Attributes} (h : d.Describes members) :
    ∃ record, scalingGroup (.object members) = .ok record ∧ IsRecord record d := by
  have hname : (Value.object members).required "AutoScalingGroupName" = .ok (.str d.name) := by
    rw [Value.required, h.name]
  obtain ⟨arn, harn⟩ := h.arn
  obtain ⟨processes, hprocesses, hnames⟩ := h.suspended
  have hsuspended : processes.mapM (fun p => (p.member "ProcessName").bind Value.toAtom) =
      .ok (d.suspended.map processAtom) :=
    mapM_forall₂ (hnames.imp (fun v process hv => by
      obtain ⟨fields, rfl, hprocess⟩ := hv
      change (fields.get "ProcessName").toAtom = _
      rw [hprocess, toAtom_ofOption]))
  obtain ⟨template, htemplate, hobject⟩ := launchTemplate_ok h.template h.policy
  obtain ⟨active, hactive⟩ : ∃ active, (if (members.get "LaunchConfigurationName").truthy
      then .ok (members.get "LaunchConfigurationName")
      else (template.orElse (.object [])).member "LaunchTemplateId" : Except Fault Value) = .ok active := by
    split
    · exact ⟨_, rfl⟩
    · rcases hobject with rfl | ⟨fields, rfl⟩
      · exact ⟨_, rfl⟩
      · unfold Value.orElse
        split <;> exact ⟨_, rfl⟩
  obtain ⟨created, hcreated⟩ := stamped_ok h.created
  obtain ⟨targets, htargets⟩ := h.targetGroups
  obtain ⟨zones, hzones⟩ := h.zones
  obtain ⟨tagged, htagged⟩ := tags_ok h.tags
  obtain ⟨items, hitems, hdescribed⟩ := h.instances
  have hmembers : items.mapM groupMember = .ok (d.members.map (fun m => .object (memberRecord m))) :=
    mapM_forall₂ (hdescribed.imp (fun v m hv => by
      obtain ⟨fields, rfl, hm⟩ := hv
      exact groupMember_eq hm))
  have hinstances : ((elementsOf (.object members) "Instances").bind
      fun items => (items.mapM groupMember).map Value.list) =
        .ok (.list (d.members.map (fun m => .object (memberRecord m)))) := by
    rw [elementsOf_eq hitems]
    change (items.mapM groupMember).map Value.list = _
    rw [hmembers]
    rfl
  have hsorted : (sortAtoms ((distinctAtoms (d.suspended.map processAtom)).filter Atom.truthy)).map Value.list =
      .ok (.list ((sortedTexts ((distinctAtoms (d.suspended.map processAtom)).filter Atom.truthy)).map .atom)) :=
    congrArg (Except.map Value.list) (sortAtoms_eq (fun _ => isText_of_suspended))
  unfold scalingGroup
  refine exists_ok_bind (elementsOf_eq hprocesses) (exists_ok_bind hsuspended ?_)
  refine exists_ok_bind (a := members.get "Status") rfl (exists_ok_bind htemplate ?_)
  refine exists_ok_bind (a := members.get "LaunchConfigurationName") rfl ?_
  -- the members of the record in their order; those that are only copied are built by `rfl`
  refine ⟨_, build_cons (congrArg Except.ok harn) (build_cons hname (build_cons hactive (build_cons rfl (build_cons rfl
    (build_cons rfl (build_cons rfl (build_cons rfl (build_cons rfl (build_cons hcreated
    (build_cons (listOf_eq h.balancers) (build_cons (listOf_eq htargets) (build_cons (listOf_eq hzones) (build_cons rfl
    (build_cons hsorted (build_cons htagged (build_cons hinstances build_nil)))))))))))))))), ?_⟩
  refine ⟨⟨arn, rfl⟩, rfl, ⟨_, rfl, ?_⟩, rfl, rfl, ?_⟩
  · exact state_ne_active_iff h.status
  · simp only [List.forall_mem_cons, Atom.isText, List.not_mem_nil, false_implies, implies_true, and_self]

end Records

end FleetCache
