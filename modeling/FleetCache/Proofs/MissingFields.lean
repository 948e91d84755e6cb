import FleetCache.Proofs.KeyRoundTrip

set_option autoImplicit false

namespace FleetCache

/-- Whether a value is missing as a field of a key: null or the empty text. -/
def Value.missing : Value → Bool
  | .null => true
  | .str s => s == ""
  | _ => false

theorem Value.missing_iff (v : Value) : v.missing = true ↔ v = .null ∨ v = .str "" := by
  unfold Value.missing
  split <;> simp_all

theorem Value.missing_eq_false_of_truthy {v : Value} (h : v.truthy = true) : v.missing = false := by
  rw [Bool.eq_false_iff, ne_eq, Value.missing_iff]
  rintro (rfl | rfl) <;> cases h

def Value.keyless (account region : String) (v : Value) : Bool :=
  [.str account, .str region, v].any Value.missing

theorem Value.keyless_iff (account region : String) (v : Value) :
    v.keyless account region = true ↔ account = "" ∨ region = "" ∨ v.missing = true := by
  simp [Value.keyless, Value.missing]

theorem Value.keyless_eq_false_iff {account region : String} {v : Value} :
    v.keyless account region = false ↔ account ≠ "" ∧ region ≠ "" ∧ v.missing = false := by
  rw [Bool.eq_false_iff, ne_eq, Value.keyless_iff, not_or, not_or, Bool.not_eq_true]

theorem Value.string?_eq_some {v : Value} {text : String} : v.string? = some text ↔ v = .str text := by
  unfold Value.string?
  split <;> simp_all

namespace Key

variable {ns : Namespace} {fields : List Value}

theorem exists_problem_iff :
    (∃ problem, encode ns (fields.map Value.field?) = .error problem) ↔ ¬ Fits ns (kept ns.required fields) := by
  constructor
  · rintro ⟨problem, hproblem⟩ hfits
    rw [encode_of_fits hfits] at hproblem
    cases hproblem
  · intro hunfit
    cases hencoded : encode ns (fields.map Value.field?) with
    | error problem => exact ⟨problem, rfl⟩
    | ok key => exact absurd (fits_of_encode hencoded) hunfit

theorem not_fits_iff (henough : ns.required ≤ fields.length) (hmany : fields.length ≤ ns.total) :
    ¬ Fits ns fields ↔ fields.any Value.missing = true := by
  simp only [List.any_eq_true, Value.missing_iff]
  constructor
  · intro hunfit
    refine Classical.byContradiction (fun hnone => hunfit ⟨henough, hmany, fun v hv => ?_⟩)
    exact not_or.1 (fun hmissing => hnone ⟨v, hv, hmissing⟩)
  · rintro ⟨v, hv, hmissing⟩ hfits
    exact not_or.2 (hfits.present v hv) hmissing

theorem kept_of_length_le {required : Nat} (h : fields.length ≤ required) : kept required fields = fields := by
  have hpop : popAbsent required fields.reverse = fields.reverse := by
    have hlength : fields.reverse.length ≤ required := by simpa using h
    revert hlength
    generalize fields.reverse = reversed
    intro hlength
    fun_cases popAbsent required reversed with
    | case1 => rfl
    | case2 rest hmore =>
      rw [List.length_cons] at hlength
      omega
    | case3 => rfl
    | case4 => rfl
  rw [kept, hpop, List.reverse_reverse]

theorem kept_concat_null {required : Nat} (h : required ≤ fields.length) :
    kept required (fields ++ [.null]) = kept required fields := by
  have hlength : required ≤ fields.reverse.length := by simpa using h
  rw [kept, List.reverse_append, List.reverse_singleton, List.singleton_append, popAbsent, if_pos hlength, kept]

theorem kept_concat {required : Nat} {v : Value} (h : v ≠ .null) :
    kept required (fields ++ [v]) = fields ++ [v] := by
  have hpop : popAbsent required (v :: fields.reverse) = v :: fields.reverse := by
    rw [popAbsent]
    exact fun hnull => h hnull
  rw [kept, List.reverse_append, List.reverse_singleton, List.singleton_append, hpop, List.reverse_cons,
    List.reverse_reverse]

theorem exists_problem_iff_missing (ns : Namespace) (fields : List Value) (h : fields.length = ns.required) :
    (∃ problem, encode ns (fields.map Value.field?) = .error problem) ↔ fields.any Value.missing = true := by
  rw [exists_problem_iff, kept_of_length_le (Nat.le_of_eq h),
    not_fits_iff (Nat.le_of_eq h.symm) (h ▸ ns.required_le_total)]

theorem exists_of_present (ns : Namespace) (fields : List Value) (h : fields.length = ns.required)
    (hpresent : fields.any Value.missing = false) : ∃ key, encode ns (fields.map Value.field?) = .ok key := by
  cases hencoded : encode ns (fields.map Value.field?) with
  | ok key => exact ⟨key, rfl⟩
  | error problem =>
    rw [(exists_problem_iff_missing ns fields h).1 ⟨problem, hencoded⟩] at hpresent
    cases hpresent

/-- Where only the last field may be left out, that one makes no key only when it is an empty text. -/
theorem exists_problem_iff_empty (ns : Namespace) (fields : List Value) (last : Value)
    (h : fields.length = ns.required) (hlast : ns.required < ns.total) :
    (∃ problem, encode ns ((fields ++ [last]).map Value.field?) = .error problem) ↔
      fields.any Value.missing = true ∨ last = .str "" := by
  rw [exists_problem_iff]
  by_cases hnull : last = .null
  · rw [hnull, kept_concat_null (Nat.le_of_eq h.symm), kept_of_length_le (Nat.le_of_eq h),
      not_fits_iff (Nat.le_of_eq h.symm) (h ▸ ns.required_le_total)]
    simp
  · rw [kept_concat hnull, not_fits_iff (by simp [h]) (by simp [h, Nat.succ_le_of_lt hlast]), List.any_append,
      Bool.or_eq_true, List.any_cons, List.any_nil, Bool.or_false, Value.missing_iff]
    simp [hnull]

theorem instanceOf_problem_iff (account region : String) (id : Value) :
    (∃ problem, instanceOf id.field? (some account) (some region) = .error problem) ↔
      id.keyless account region = true :=
  exists_problem_iff_missing .instances [.str account, .str region, id] rfl

theorem serverGroup_problem_iff (account region : String) (name : Value) :
    (∃ problem, serverGroup name.field? (some account) (some region) = .error problem) ↔
      name.keyless account region = true :=
  exists_problem_iff_missing .serverGroups [.str account, .str region, name] rfl

end Key

end FleetCache
