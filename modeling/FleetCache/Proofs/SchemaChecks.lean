import FleetCache.Proofs.GroupDescriptions
import FleetCache.Schema.Resources

set_option autoImplicit false

namespace FleetCache

namespace Checked

variable {α β : Type}

def Passes (x : Checked α) (a : α) : Prop :=
  x.outcome = .ok a

theorem passes_pure (a : α) : (pure a : Checked α).Passes a := rfl

theorem Passes.seq {f : Checked (α → β)} {x : Checked α} {g : α → β} {a : α} (hf : f.Passes g) (hx : x.Passes a) :
    (f <*> x).Passes (g a) := by
  change combine f.outcome x.outcome = _
  rw [hf, hx]
  rfl

theorem Passes.map {x : Checked α} {a : α} (g : α → β) (hx : x.Passes a) : (g <$> x).Passes (g a) :=
  (passes_pure g).seq hx

theorem Passes.under {x : Checked α} {a : α} (step : PathStep) (hx : x.Passes a) : (under step x).Passes a := by
  change x.outcome.mapError _ = _
  rw [hx]
  rfl

theorem Passes.run {x : Checked α} {a : α} (hx : x.Passes a) : x.run.result = .ok a := by
  change x.outcome.mapError _ = _
  rw [hx]
  rfl

theorem passes_each {check : Value → Checked α} {items : List Value} {results : List α}
    (h : List.Forall₂ (fun v a => (check v).Passes a) items results) (n : Nat) :
    (each check n items).Passes results := by
  induction h generalizing n with
  | nil => exact passes_pure []
  | cons hhead _ ih => exact ((hhead.under _).map List.cons).seq (ih (n + 1))

end Checked

namespace Schema

open FleetCache.Checked

variable {α : Type} {members : Attributes}

theorem passes_asTextOrNull (t : Option String) : (asTextOrNull (.ofOption t)).Passes t := by
  cases t <;> rfl

theorem passes_text {name : String} {t : Option String} (h : HasText members name t) :
    (text members name).Passes t := by
  unfold HasText Attributes.get at h
  unfold text Schema.optional
  cases hlookup : members.lookup (.str name) with
  | none =>
    rw [hlookup] at h
    cases t with
    | none => rfl
    | some s => cases h
  | some v =>
    rw [hlookup] at h
    obtain rfl : v = .ofOption t := h
    exact (passes_asTextOrNull t).under _

theorem passes_anything (members : Attributes) (name : String) :
    (anything members name).Passes (members.get name) := by
  unfold anything Schema.optional Attributes.get
  cases members.lookup (.str name) <;> rfl

theorem passes_size (members : Attributes) (name : String) : ∃ n, (size members name).Passes n := by
  unfold size Schema.optional
  split
  · exact ⟨none, rfl⟩
  · dsimp only
    split
    · exact ⟨_, (passes_pure _).under _⟩
    · exact ⟨none, rfl⟩

theorem passes_optional {name : String} {default a : α} {check : Value → Checked α} {v : Value}
    (h : members.get name = v) (hpresent : v ≠ .null) (hv : (check v).Passes a) :
    (Schema.optional members name default check).Passes a := by
  unfold Attributes.get at h
  unfold Schema.optional
  cases hlookup : members.lookup (.str name) with
  | none =>
    rw [hlookup] at h
    exact absurd h.symm hpresent
  | some w =>
    rw [hlookup] at h
    obtain rfl : w = v := h
    exact hv.under _

theorem passes_namedByText (refuse : Checked Unit) {members : Attributes}
    (h : ∀ member ∈ members, member.1.isText = true) : (namedByText refuse members).Passes members := by
  induction members with
  | nil => rfl
  | cons member rest ih =>
    obtain ⟨hmember, hrest⟩ := List.forall_mem_cons.1 h
    obtain ⟨name, v⟩ := member
    obtain ⟨s, rfl⟩ := (Atom.isText_iff name).1 hmember
    exact (ih hrest).map _

theorem passes_extras (h : ∀ member ∈ members, member.1.isText = true) (names : List String) :
    ∃ others, (extras members names).Passes others :=
  ⟨_, passes_namedByText _ (fun member hmember => h member (List.mem_filter.1 hmember).1)⟩

theorem passes_asObject (h : ∀ member ∈ members, member.1.isText = true) :
    (asObject (.object members)).Passes members :=
  passes_namedByText _ h

theorem passes_texts (items : List String) : (asList asText (.strings items)).Passes items := by
  have hitems : List.Forall₂ (fun v s => (asText v).Passes s) (items.map Value.str) items := by
    induction items with
    | nil => exact .nil
    | cons s rest ih => exact .cons rfl ih
  exact passes_each hitems 0

theorem passes_memberRecord (m : MemberDescription) :
    ∃ others, (Member.check (Records.memberRecord m)).Passes ⟨m.id, m.health, m.lifecycle, m.zone, others⟩ := by
  have hnamed : ∀ member ∈ Records.memberRecord m, member.1.isText = true := by
    simp only [Records.memberRecord, List.forall_mem_cons, Atom.isText, List.not_mem_nil, false_implies, implies_true,
      and_self]
  obtain ⟨others, hothers⟩ := passes_extras hnamed ["instanceId", "healthStatus", "lifecycleState", "zoneId"]
  have hid : (text (Records.memberRecord m) "instanceId").Passes m.id := passes_text rfl
  have hhealth : (text (Records.memberRecord m) "healthStatus").Passes m.health := passes_text rfl
  have hlifecycle : (text (Records.memberRecord m) "lifecycleState").Passes m.lifecycle := passes_text rfl
  have hzone : (text (Records.memberRecord m) "zoneId").Passes m.zone := passes_text rfl
  exact ⟨others, ((((hid.map Member.mk).seq hhealth).seq hlifecycle).seq hzone).seq hothers⟩

theorem passes_groupRecord {record : Attributes} {d : GroupDescription} (h : Records.IsRecord record d) :
    ∃ group, (ScalingGroup.check record).Passes group ∧
      (group.lifecycleState ≠ some Views.activeState ↔ d.Disabled) := by
  obtain ⟨arn, harn⟩ := h.id
  obtain ⟨state, hstate, hdisabled⟩ := h.state
  obtain ⟨low, hlow⟩ := passes_size record "minSize"
  obtain ⟨high, hhigh⟩ := passes_size record "maxSize"
  obtain ⟨desired, hdesired⟩ := passes_size record "desiredCapacity"
  obtain ⟨others, hothers⟩ := passes_extras h.named ScalingGroup.fieldNames
  have hbalancers : (Schema.optional record "loadBalancerIds" [] (asList asText)).Passes d.balancers :=
    passes_optional h.balancers (by simp [Value.strings]) (passes_texts d.balancers)
  have hfields := (((((((passes_text harn).map ScalingGroup.mk).seq (passes_text h.name)).seq (passes_text hstate)).seq
    hlow).seq hhigh).seq hdesired).seq (passes_anything record "creationTime")
  refine ⟨_, (hfields.seq hbalancers).seq hothers, ?_⟩
  rw [← hdisabled]
  exact not_congr (Option.some_inj)

end Schema

end FleetCache
