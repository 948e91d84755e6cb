import FleetCache.Proofs.AccountReports
import FleetCache.Proofs.MissingFields
import FleetCache.Proofs.ViewReads

set_option autoImplicit false

namespace FleetCache

theorem Traced.result_bind_congr {α β : Type} {x y : Traced α} {f g : α → Traced β} (h : x.result = y.result)
    (hnext : ∀ a, (f a).result = (g a).result) : (x >>= f).result = (y >>= g).result := by
  cases hx : x.result with
  | error fault => rw [Traced.error_bind hx, Traced.error_bind (h.symm.trans hx)]
  | ok a => rw [Traced.result_bind hx, Traced.result_bind (h.symm.trans hx), hnext]

theorem Traced.foldlM_filter_result {α β : Type} {skip : α → Bool} {step : β → α → Traced β} {items : List α}
    (h : ∀ a ∈ items, skip a = true → ∀ b, (step b a).result = .ok b) (start : β) :
    ((items.filter (fun a => !skip a)).foldlM step start).result = (items.foldlM step start).result := by
  induction items generalizing start with
  | nil => rfl
  | cons a rest ih =>
    obtain ⟨ha, hrest⟩ := List.forall_mem_cons.1 h
    rw [List.foldlM_cons]
    cases hskip : skip a with
    | true =>
      rw [List.filter_cons_of_neg (by simp [hskip]), Traced.result_bind (ha hskip start)]
      exact ih hrest start
    | false =>
      rw [List.filter_cons_of_pos (by simp [hskip]), List.foldlM_cons]
      exact Traced.result_bind_congr rfl (fun next => ih hrest next)

namespace Listing

variable {α β : Type}

/-- The listing without some of its items; it ends as before. -/
def without (skip : α → Bool) (listing : Listing α) : Listing α :=
  { listing with items := listing.items.filter (fun a => !skip a) }

theorem run_without_result {skip : α → Bool} {step : β → α → Traced β} {listing : Listing α}
    (h : ∀ a, skip a = true → ∀ b, (step b a).result = .ok b) (start : β) :
    ((listing.without skip).run start step).result = (listing.run start step).result := by
  refine Traced.result_bind_congr rfl (fun _ => Traced.result_bind_congr ?_ (fun _ => rfl))
  exact Traced.foldlM_filter_result (fun a _ => h a) start

end Listing

theorem Except.exists_error_of_mapM {ε α β : Type} {f : α → Except ε β} {items : List α} :
    (∃ e, items.mapM f = .error e) ↔ ∃ a ∈ items, ∃ e, f a = .error e := by
  induction items with
  | nil => simp [pure, Except.pure]
  | cons a rest ih =>
    rw [List.mapM_cons, List.exists_mem_cons_iff, ← ih]
    cases f a with
    | error e => simp [bind, Except.bind]
    | ok b => cases rest.mapM f <;> simp [bind, Except.bind, pure, Except.pure]

theorem Except.exists_error_of_map {ε α β : Type} {x : Except ε α} {f : α → β} :
    (∃ e, x.map f = .error e) ↔ ∃ e, x = .error e := by
  cases x <;> simp [Except.map]

theorem result_skipUnkeyed {α β : Type} {x : Except KeyProblem α} (h : ∃ problem, x = .error problem) (level : Level)
    (lead : String) (other : Traced β) (next : α → Traced β) :
    (skipUnkeyed x level lead other next).result = other.result := by
  obtain ⟨problem, rfl⟩ := h
  exact Traced.result_bind rfl _

namespace InstanceAgent

variable {account region : String}

/-- Whether no key can be built from the record of an instance. Its tag is no reason, as a tag that is there makes a key
of a server group wherever the instance has one. -/
def keyless (account region : String) (record : Attributes) : Bool :=
  (record.get "instanceId").keyless account region

theorem keys_problem_iff (record : Attributes) :
    (∃ problem, keys account region record = .ok (.error problem)) ↔ keyless account region record = true := by
  rw [keyless, ← Key.instanceOf_problem_iff]
  unfold keys
  constructor
  · rintro ⟨problem, h⟩
    dsimp only at h
    split at h
    · exact ⟨_, ‹_›⟩
    · obtain ⟨group, -, h⟩ := exists_of_bind h
      split at h
      · rename_i htruthy
        have hgroup := Except.exists_error_of_map.1 ⟨problem, Except.ok.inj h⟩
        rw [Key.serverGroup_problem_iff, Value.keyless_iff, Value.missing_eq_false_of_truthy htruthy] at hgroup
        rw [Key.instanceOf_problem_iff, Value.keyless_iff]
        exact hgroup.imp_right (fun h => .inl (h.resolve_right Bool.false_ne_true))
      · cases Except.ok.inj h
  · rintro ⟨problem, hproblem⟩
    refine ⟨problem, ?_⟩
    dsimp only
    rw [hproblem]
    rfl

theorem step_result_of_keyless {record : Attributes} (h : keyless account region record = true) (agent : String)
    (state : ReportBuilder × Nat) : (step account region agent state record).result = .ok state := by
  obtain ⟨problem, hkeys⟩ := (keys_problem_iff record).2 h
  exact (Traced.result_bind hkeys _).trans (result_skipUnkeyed ⟨problem, rfl⟩ _ _ _ _)

end InstanceAgent

namespace ImageAgent

variable {account region : String}

/-- Whether no key can be built from an image, in whatever way images of an owner are cached: those of the public owner
by their id, the account's own ones by their name. -/
def keyless (account region publicOwner : String) (owner : Value) (image : Attributes) : Bool :=
  (owner.string? != some publicOwner || (image.get "imageId").keyless account region) &&
    (owner.string? != some selfOwner || [.str account, image.get "imageName"].any Value.missing)

theorem addPublic_result_of_keyless {publicOwner : String} {image : Attributes}
    (h : keyless account region publicOwner publicOwner image = true) (agent : String) (builder : ReportBuilder) :
    (addPublic account region agent builder image).result = .ok builder := by
  have hmissing : (image.get "imageId").keyless account region = true := by
    simpa [keyless, Value.string?] using (Bool.and_eq_true_iff.1 h).1
  exact result_skipUnkeyed ((Key.exists_problem_iff_missing .images _ rfl).2 hmissing) _ _ _ _

theorem addNamed_result_of_keyless {publicOwner : String} {image : Attributes}
    (h : keyless account region publicOwner selfOwner image = true) (agent : String) (builder : ReportBuilder) :
    (addNamed account agent builder image).result = .ok builder := by
  have hmissing : [.str account, image.get "imageName"].any Value.missing = true := by
    simpa [keyless, Value.string?] using (Bool.and_eq_true_iff.1 h).2
  exact result_skipUnkeyed ((Key.exists_problem_iff_missing .namedImages _ rfl).2 hmissing) _ _ _ _

end ImageAgent

namespace InstanceTypeAgent

variable {account region : String}

def keyless (account region : String) (zone : Attributes) : Bool :=
  (zone.get "zoneId").keyless account region

theorem step_result_of_keyless {zone : Attributes} (h : keyless account region zone = true) (agent : String)
    (builder : ReportBuilder) : (step account region agent builder zone).result = .ok builder :=
  result_skipUnkeyed ((Key.exists_problem_iff_missing .instanceTypes _ rfl).2 h) _ _ _ _

end InstanceTypeAgent

namespace LoadBalancerAgent

variable {account region : String}

/-- Whether the record of a load balancer has no key of its own. Its network may be left out, but not be empty. -/
def unnamed (account region : String) (record : Attributes) : Bool :=
  ((record.get "loadBalancerId").orElse (record.get "loadBalancerName")).keyless account region ||
    (record.get "vpcId").string? == some ""

def keyless (account region : String) (record : Attributes) : Bool :=
  unnamed account region record ||
    match ((record.get "instances").orElse (.list [])).elements with
    | .ok ids => ids.any Value.missing
    | .error _ => false

theorem keyOf_problem_iff (account region : String) (record : Attributes) :
    (∃ problem, keyOf account region record = .error problem) ↔ unnamed account region record = true := by
  have hfields := Key.exists_problem_iff_empty .loadBalancers
    [.str account, .str region, (record.get "loadBalancerId").orElse (record.get "loadBalancerName")]
    (record.get "vpcId") rfl (by decide)
  rw [unnamed, Bool.or_eq_true, beq_iff_eq, Value.string?_eq_some]
  exact hfields

theorem exists_keyOf_of_named {record : Attributes} (h : unnamed account region record = false) :
    ∃ key, keyOf account region record = .ok key := by
  cases hkey : keyOf account region record with
  | ok key => exact ⟨key, rfl⟩
  | error problem =>
    rw [(keyOf_problem_iff account region record).1 ⟨problem, hkey⟩] at h
    cases h

theorem members_problem_iff {record : Attributes} (h : unnamed account region record = false) (ids : List Value) :
    (∃ problem, ids.mapM (fun id => Key.instanceOf id.field? (some account) (some region)) = .error problem) ↔
      ids.any Value.missing = true := by
  rw [unnamed, Bool.or_eq_false_iff, Value.keyless_eq_false_iff] at h
  obtain ⟨⟨haccount, hregion, -⟩, -⟩ := h
  rw [Except.exists_error_of_mapM, List.any_eq_true]
  refine exists_congr (fun id => and_congr_right (fun _ => ?_))
  rw [Key.instanceOf_problem_iff, Value.keyless_iff, or_iff_right haccount, or_iff_right hregion]

theorem keys_problem_iff (record : Attributes) :
    (∃ problem, keys account region record = .ok (.error problem)) ↔ keyless account region record = true := by
  have hown := keyOf_problem_iff account region record
  rw [keyless, Bool.or_eq_true, ← hown]
  unfold keys
  cases hkey : keyOf account region record with
  | error problem => simp [pure, Except.pure]
  | ok key =>
    have hnamed : unnamed account region record = false := by
      rw [Bool.eq_false_iff, ne_eq, ← hown, hkey]
      exact fun ⟨_, hproblem⟩ => nomatch hproblem
    cases ((record.get "instances").orElse (.list [])).elements with
    | error fault => simp [bind, Except.bind]
    | ok ids =>
      dsimp only
      rw [ok_bind, ← members_problem_iff hnamed ids]
      refine Iff.trans ?_ (or_iff_right (fun ⟨_, hproblem⟩ => nomatch hproblem)).symm
      rw [← Except.exists_error_of_map]
      exact exists_congr (fun _ => ⟨Except.ok.inj, congrArg Except.ok⟩)

theorem step_result_of_keyless {record : Attributes} (h : keyless account region record = true) (agent : String)
    (builder : ReportBuilder) : (step account region agent builder record).result = .ok builder := by
  obtain ⟨problem, hkeys⟩ := (keys_problem_iff record).2 h
  exact (Traced.result_bind hkeys _).trans (result_skipUnkeyed ⟨problem, rfl⟩ _ _ _ _)

end LoadBalancerAgent

end FleetCache
