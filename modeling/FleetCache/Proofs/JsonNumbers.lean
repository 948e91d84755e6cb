import FleetCache.Json.Parse
import FleetCache.Json.Render

set_option autoImplicit false

namespace FleetCache.Json

open FleetCache.Text FleetCache.Number

theorem isAsciiDigit_iff (c : Char) : isAsciiDigit c = true ↔ 48 ≤ c.toNat ∧ c.toNat < 58 := by
  rw [isAsciiDigit, Bool.and_eq_true, decide_eq_true_eq, decide_eq_true_eq, Char.le_def, Char.le_def,
    UInt32.le_iff_toNat_le, UInt32.le_iff_toNat_le]
  change 48 ≤ c.toNat ∧ c.toNat ≤ 57 ↔ _
  omega

theorem isDigit_of_isAsciiDigit {c : Char} (h : isAsciiDigit c = true) : isDigit c = true := by
  rw [isDigit, digit?_ascii c ((isAsciiDigit_iff c).1 h)]
  rfl

def Digits (text : List Char) : Prop :=
  ∀ c ∈ text, isAsciiDigit c = true

theorem Digits.append {text more : List Char} (h : Digits text) (hmore : Digits more) : Digits (text ++ more) :=
  fun c hc => (List.mem_append.1 hc).elim (h c) (hmore c)

theorem digits_natDigits (n : Nat) : Digits (natDigits n) := by
  intro c hc
  have h := Nat.isDigit_of_mem_toDigits (by decide) (by decide) hc
  rw [isAsciiDigit_iff]
  rw [Char.isDigit, Bool.and_eq_true, decide_eq_true_eq, decide_eq_true_eq, ge_iff_le,
    UInt32.le_iff_toNat_le, UInt32.le_iff_toNat_le] at h
  change 48 ≤ c.toNat ∧ c.toNat ≤ 57 at h
  omega

theorem digits_zeros (n : Nat) : Digits (List.replicate n '0') := by
  intro c hc
  rw [(List.mem_replicate.1 hc).2]
  decide

theorem digitsValue_eq {text : List Char} (h : Digits text) : digitsValue text = Nat.ofDigitChars 10 text 0 := by
  have hstep (total : Nat) : text.foldl (fun total c => 10 * total + (digit? c).getD 0) total =
      Nat.ofDigitChars 10 text total := by
    induction text generalizing total with
    | nil => rfl
    | cons c rest ih =>
      obtain ⟨hc, hrest⟩ := List.forall_mem_cons.1 h
      rw [List.foldl_cons, ih hrest, Nat.ofDigitChars_cons, digit?_ascii c ((isAsciiDigit_iff c).1 hc)]
      rfl
  exact hstep 0

theorem digitsValue_natDigits (n : Nat) : digitsValue (natDigits n) = n := by
  rw [digitsValue_eq (digits_natDigits n)]
  exact Nat.ofDigitChars_ten_toDigits

theorem digitsValue_append {text more : List Char} (h : Digits text) (hmore : Digits more) :
    digitsValue (text ++ more) = Nat.pow 10 more.length * digitsValue text + digitsValue more := by
  rw [digitsValue_eq (h.append hmore), digitsValue_eq h, digitsValue_eq hmore, Nat.ofDigitChars_append,
    Nat.ofDigitChars_eq_ofDigitChars_zero, Nat.pow_eq]

theorem digitsValue_zeros_append (n : Nat) {text : List Char} (h : Digits text) :
    digitsValue (List.replicate n '0' ++ text) = digitsValue text := by
  rw [digitsValue_eq ((digits_zeros n).append h), digitsValue_eq h, Nat.ofDigitChars_append,
    Nat.ofDigitChars_replicate_zero, Nat.mul_zero]

theorem natDigits_ne_nil (n : Nat) : natDigits n ≠ [] :=
  Nat.toDigits_ne_nil

theorem natDigits_zero : natDigits 0 = ['0'] :=
  Nat.toDigits_zero 10

theorem natDigits_head_ne_zero {n : Nat} (h : n ≠ 0) : ∃ c rest, natDigits n = c :: rest ∧ c ≠ '0' := by
  induction n using Nat.strongRecOn with
  | ind n ih =>
    rw [natDigits, Nat.toDigits_eq_if (by decide)]
    split
    · exact ⟨n.digitChar, [], rfl, fun hc => h (Nat.digitChar_eq_zero.1 hc)⟩
    · obtain ⟨c, rest, hdigits, hc⟩ := ih (n / 10) (by omega) (by omega)
      rw [natDigits] at hdigits
      exact ⟨c, rest ++ [(n % 10).digitChar], by rw [hdigits]; rfl, hc⟩

def NoDigit (rest : List Char) : Prop :=
  ∀ c ∈ rest.head?, isAsciiDigit c = false

theorem takeWhile_digits {text rest : List Char} (h : Digits text) (hrest : NoDigit rest) :
    (text ++ rest).takeWhile isAsciiDigit = text := by
  rw [List.takeWhile_append_of_pos h]
  cases rest with
  | nil => simp
  | cons c rest => simp [hrest c rfl]

theorem dropWhile_digits {text rest : List Char} (h : Digits text) (hrest : NoDigit rest) :
    (text ++ rest).dropWhile isAsciiDigit = rest := by
  rw [List.dropWhile_append_of_pos h]
  cases rest with
  | nil => rfl
  | cons c rest => simp [hrest c rfl]

/-- The digits of a whole number: zero has one digit, and no other number starts with zero. -/
def WholeDigits (text : List Char) : Prop :=
  Digits text ∧ (text = ['0'] ∨ ∃ c rest, text = c :: rest ∧ c ≠ '0')

theorem wholeDigits_natDigits (n : Nat) : WholeDigits (natDigits n) := by
  refine ⟨digits_natDigits n, ?_⟩
  by_cases h : n = 0
  · exact .inl (h ▸ natDigits_zero)
  · exact .inr (natDigits_head_ne_zero h)

theorem takeWhole_append {whole rest : List Char} (h : WholeDigits whole) (hrest : NoDigit rest) :
    takeWhole (whole ++ rest) = whole := by
  obtain ⟨hdigits, rfl | ⟨c, more, rfl, hc⟩⟩ := h
  · rfl
  · have hwhole : takeWhole (c :: more ++ rest) = (c :: more ++ rest).takeWhile isAsciiDigit :=
      takeWhole.eq_2 _ (fun tail htail => hc (List.cons.inj htail).1)
    rw [hwhole, takeWhile_digits hdigits hrest]

/-- What may follow a value: nothing, a comma or a closing bracket. -/
def Stops (rest : List Char) : Prop :=
  ∀ c ∈ rest.head?, c = ',' ∨ c = ']' ∨ c = '\x7d'

theorem Stops.noDigit {rest : List Char} (h : Stops rest) : NoDigit rest := by
  intro c hc
  rcases h c hc with rfl | rfl | rfl <;> decide

theorem takeFractionDigits_of_stops {rest : List Char} (h : Stops rest) : takeFractionDigits rest = ([], rest) := by
  cases rest with
  | nil => rfl
  | cons c rest => rcases h c rfl with rfl | rfl | rfl <;> rfl

theorem takeExponent_of_stops {rest : List Char} (h : Stops rest) : takeExponent rest = (0, rest, false) := by
  cases rest with
  | nil => rfl
  | cons c rest => rcases h c rfl with rfl | rfl | rfl <;> rfl

theorem takeFractionDigits_point {fraction rest : List Char} (h : Digits fraction) (hne : fraction ≠ [])
    (hrest : NoDigit rest) : takeFractionDigits ('.' :: (fraction ++ rest)) = (fraction, rest) := by
  rw [takeFractionDigits, takeWhile_digits h hrest, dropWhile_digits h hrest, List.isEmpty_eq_false_iff.2 hne]
  rfl

theorem takeExponent_mark (negative : Bool) {digits rest : List Char} (h : Digits digits) (hne : digits ≠ [])
    (hrest : NoDigit rest) :
    takeExponent ('e' :: (if negative then '-' else '+') :: (digits ++ rest)) =
      (if negative then -(digitsValue digits : Int) else digitsValue digits, rest, true) := by
  have hsigned : signed ((if negative then '-' else '+') :: (digits ++ rest)) = (negative, digits ++ rest) := by
    cases negative <;> rfl
  rw [takeExponent, if_pos (.inl rfl), hsigned]
  simp only [takeWhile_digits h hrest, dropWhile_digits h hrest, List.isEmpty_eq_false_iff.2 hne]
  rfl

theorem signed_natAbs (n : Int) : (if decide (n < 0) = true then -(n.natAbs : Int) else n.natAbs) = n := by
  by_cases hsign : n < 0
  · rw [if_pos (decide_eq_true hsign)]
    omega
  · rw [if_neg (by simpa using hsign)]
    omega

theorem WholeDigits.ne_nil {whole : List Char} (h : WholeDigits whole) : whole ≠ [] := by
  obtain ⟨-, rfl | ⟨c, more, rfl, -⟩⟩ := h <;> simp

theorem parseNumber_int (negative : Bool) {whole rest : List Char} (h : WholeDigits whole)
    (hlength : whole.length ≤ maxDigits) (hrest : Stops rest) :
    parseNumber negative (whole ++ rest) =
      .ok (.int (if negative then -(digitsValue whole : Int) else digitsValue whole), rest) := by
  simp only [parseNumber, takeWhole_append h hrest.noDigit, List.drop_left, takeFractionDigits_of_stops hrest,
    takeExponent_of_stops hrest, List.isEmpty_eq_false_iff.2 h.ne_nil]
  simp [Nat.not_lt.2 hlength]

theorem parseNumber_decimal (negative : Bool) {whole tail fraction after rest : List Char} {exponent : Int}
    {marked : Bool} (h : WholeDigits whole) (htail : NoDigit tail)
    (hfraction : takeFractionDigits tail = (fraction, after))
    (hexponent : takeExponent after = (exponent, rest, marked)) (hdecimal : fraction ≠ [] ∨ marked = true)
    (hbound : exponent.natAbs ≤ 400) :
    parseNumber negative (whole ++ tail) = .ok (.decimal (.ofLiteral negative whole fraction exponent), rest) := by
  have hpoint : (fraction.isEmpty && !marked) = false := by
    rcases hdecimal with hne | hmarked
    · rw [List.isEmpty_eq_false_iff.2 hne, Bool.false_and]
    · rw [hmarked, Bool.not_true, Bool.and_false]
  simp only [parseNumber, takeWhole_append h htail, List.drop_left, hfraction, hexponent,
    List.isEmpty_eq_false_iff.2 h.ne_nil, hpoint]
  simp [Nat.not_lt.2 hbound]

end FleetCache.Json
