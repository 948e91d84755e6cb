import Mathlib.Data.List.Basic
import FleetCache.Proofs.CalendarDays
import FleetCache.Proofs.JsonRoundTrip
import FleetCache.Time.Stamp

set_option autoImplicit false

namespace FleetCache

open FleetCache.Text

namespace Number

theorem nearest_of_lt {n den : Nat} (hn : n < Nat.pow 2 precision) (hden : 0 < den) :
    ∃ scale, 0 < scale ∧ nearest ⟨n * den, den⟩ = ⟨n * scale, scale⟩ := by
  by_cases hzero : n = 0
  · subst hzero
    exact ⟨1, by decide, by rw [Nat.zero_mul]; rfl⟩
  · have hwhole : n * den / den = n := Nat.mul_div_cancel n hden
    have hbits : Nat.log2 n + 1 - precision = 0 := by
      have := (Nat.log2_lt hzero).2 hn
      omega
    have hscaling : scaling ⟨n * den, den⟩ = (Nat.pow 2 (precision - (Nat.log2 n + 1)), 1) := by
      simp only [scaling, hwhole, hbits]
      rw [if_pos (Nat.pos_of_ne_zero hzero)]
    refine ⟨Nat.pow 2 (precision - (Nat.log2 n + 1)), Nat.pow_pos (by decide), ?_⟩
    have hnum : n * den ≠ 0 := Nat.mul_ne_zero hzero (Nat.ne_of_gt hden)
    rw [nearest, if_neg hnum, hscaling]
    dsimp only
    rw [Nat.mul_one, Nat.mul_one, Nat.mul_right_comm, roundDiv_mul_self _ _ hden]

end Number

namespace Time

open FleetCache.Number FleetCache.Json

theorem epochMillis_of_seconds {m : Moment} {seconds : Int} (h : m.epochMicros = seconds * 1000000)
    (hbound : seconds.natAbs * 1000 < Nat.pow 2 precision) : m.epochMillis = seconds * 1000 := by
  have hmicros : (seconds * 1000000).natAbs = seconds.natAbs * 1000000 := Int.natAbs_mul _ _
  have hfits : seconds.natAbs < Nat.pow 2 precision := by omega
  have hmillion : 0 < 1000000 := by decide
  obtain ⟨scale, hscale, hseconds⟩ := nearest_of_lt hfits hmillion
  obtain ⟨scale', hscale', hmillis⟩ := nearest_of_lt hbound hscale
  have hwhole : (nearest ((nearest ⟨seconds.natAbs * 1000000, 1000000⟩).times 1000)).whole = seconds.natAbs * 1000 := by
    rw [hseconds, Ratio.times, Nat.mul_right_comm, hmillis, Ratio.whole, Nat.mul_div_cancel _ hscale']
  simp only [Moment.epochMillis, h, hmicros, hwhole]
  split <;> omega

/-- A number that a field takes whole in one way only; its other shapes refuse it or leave digits of it. -/
def Part.Fits : Part → List Char → Prop
  | .field shapes, front => front.all isAsciiDigit = true ∧ shapes.all (fun shape => shape.length ≤ front.length) = true ∧
    shapes.countP (fun shape => takeShape shape front = some (front, [])) = 1
  | .letter _, _ => False

instance (part : Part) (front : List Char) : Decidable (part.Fits front) :=
  match part with
  | .field _ => inferInstanceAs (Decidable (_ ∧ _ ∧ _))
  | .letter _ => .isFalse id

theorem takeShape_append {shape : Shape} {front : List Char} (h : shape.length ≤ front.length) (rest : List Char) :
    takeShape shape (front ++ rest) = (takeShape shape front).map (fun (taken, left) => (taken, left ++ rest)) := by
  induction shape generalizing front with
  | nil => rfl
  | cons p shape ih =>
    cases front with
    | nil => exact absurd h (Nat.not_succ_le_zero _)
    | cons c front =>
      rw [List.cons_append, takeShape, takeShape, ih (Nat.le_of_succ_le_succ h)]
      split
      · cases takeShape shape front <;> rfl
      · rfl

theorem eq_append_of_takeShape {shape : Shape} {text taken left : List Char}
    (h : takeShape shape text = some (taken, left)) : text = taken ++ left := by
  induction shape generalizing text taken with
  | nil =>
    obtain ⟨rfl, rfl⟩ := Prod.mk.inj (Option.some.inj h)
    rfl
  | cons p shape ih =>
    cases text with
    | nil => cases h
    | cons c text =>
      rw [takeShape] at h
      split at h
      · obtain ⟨⟨front, rest⟩, hrest, heq⟩ := Option.map_eq_some_iff.1 h
        obtain ⟨rfl, rfl⟩ := Prod.mk.inj heq
        rw [ih hrest, List.cons_append]
      · cases h

theorem flatMap_ite {α β : Type} (p : α → Bool) (found : List β) (items : List α) :
    items.flatMap (fun a => if p a then found else []) = (List.replicate (items.countP p) found).flatten := by
  induction items with
  | nil => rfl
  | cons a rest ih =>
    rw [List.flatMap_cons, ih, List.countP_cons]
    split
    · rw [List.replicate_succ, List.flatten_cons]
    · rfl

def marks : List Char :=
  ['-', 'T', ':', 'Z']

theorem toLower_mark_ne {c d : Char} (hc : c ∈ marks) (hd : isAsciiDigit d = true) : c.toLower ≠ d.toLower := by
  have hall : marks.all (fun c => ['0', '1', '2', '3', '4', '5', '6', '7', '8', '9'].all
      (fun d => c.toLower != d.toLower)) = true := by decide
  have hmark := List.all_eq_true.1 hall c hc
  exact bne_iff_ne.1 (List.all_eq_true.1 hmark d (isAsciiDigit_mem hd))

theorem readParts_of_fits {part : Part} {front : List Char} (h : part.Fits front) {c : Char} (hc : c ∈ marks)
    (parts : List Part) (rest : List Char) :
    readParts (part :: .letter c :: parts) (front ++ c :: rest) = (readParts parts rest).map (front :: ·) := by
  cases part with
  | letter _ => exact h.elim
  | field shapes =>
    obtain ⟨hdigits, hwidth, honce⟩ := h
    have honly : shapes.flatMap (fun shape =>
        if decide (takeShape shape front = some (front, [])) then (readParts parts rest).map (front :: ·) else []) =
          (readParts parts rest).map (front :: ·) := by
      rw [flatMap_ite, honce]
      exact List.append_nil _
    rw [readParts, ← honly]
    refine List.flatMap_congr (fun shape hshape => ?_)
    have hshort := of_decide_eq_true (List.all_eq_true.1 hwidth shape hshape)
    rw [takeShape_append hshort]
    cases htake : takeShape shape front with
    | none => rfl
    | some found =>
      obtain ⟨taken, left⟩ := found
      obtain rfl := eq_append_of_takeShape htake
      cases left with
      | nil => simp [readParts]
      | cons d left =>
        have hd := List.all_eq_true.1 hdigits d (List.mem_append_right _ List.mem_cons_self)
        simp [readParts, toLower_mark_ne hc hd]

theorem fits_padded : (∀ n : Fin 13, 1 ≤ n.val → monthField.Fits (padded 2 n).toList) ∧
    (∀ n : Fin 32, 1 ≤ n.val → dayField.Fits (padded 2 n).toList) ∧
    (∀ n : Fin 24, hourField.Fits (padded 2 n).toList) ∧ ∀ n : Fin 60, minuteField.Fits (padded 2 n).toList := by
  decide +kernel

theorem length_natDigits_of_four {n : Nat} (h : 1000 ≤ n ∧ n ≤ 9999) : (natDigits n).length = 4 := by
  have hfour : (natDigits n).length ≤ 4 := (Nat.length_toDigits_le_iff (by decide) (by decide)).2 (by omega)
  have hthree : ¬ (natDigits n).length ≤ 3 := fun hle => by
    have := (Nat.length_toDigits_le_iff (by decide) (by decide)).1 hle
    omega
  omega

theorem fits_year {year : Nat} (h : 1000 ≤ year ∧ year ≤ 9999) : yearField.Fits (natDigits year) := by
  have hdigits := digits_natDigits year
  have hlength := length_natDigits_of_four h
  obtain ⟨a, b, c, d, htext⟩ := List.length_eq_four.1 hlength
  have hdigit : ∀ e ∈ [a, b, c, d], isDigit e = true := fun e he => isDigit_of_isAsciiDigit (hdigits e (htext ▸ he))
  simp only [List.forall_mem_cons] at hdigit
  obtain ⟨ha, hb, hc, hd, -⟩ := hdigit
  refine ⟨List.all_eq_true.2 hdigits, ?_, ?_⟩
  · rw [hlength]
    rfl
  · rw [htext]
    simp [takeShape, ha, hb, hc, hd]

theorem digitsValue_padded (n : Nat) : digitsValue (padded 2 n).toList = n := by
  obtain ⟨text, htext, -, -, hvalue⟩ := padded_toList n
  rw [htext, hvalue]

def Moment.toMinute (m : Moment) : Moment :=
  { m with second := 0, micro := 0, offset := some 0 }

/-- A moment whose fields are those of a calendar and a clock. -/
structure Moment.WellFormed (m : Moment) : Prop where
  date : isDate m.year m.month m.day = true
  hour : m.hour < 24
  minute : m.minute < 60
  second : m.second < 60
  micro : m.micro < 1000000

namespace Moment

variable {m : Moment}

theorem WellFormed.year_le (h : m.WellFormed) : m.year ≤ 9999 :=
  ((isDate_iff _ _ _).1 h.date).1.2

theorem WellFormed.month_lt (h : m.WellFormed) : m.month < 13 :=
  Nat.lt_succ_of_le ((isDate_iff _ _ _).1 h.date).2.1.2

theorem WellFormed.day_lt (h : m.WellFormed) : m.day < 32 := by
  have hlast := ((isDate_iff _ _ _).1 h.date).2.2.2
  have hmonth : daysInMonth m.year m.month ≤ 31 := by
    unfold daysInMonth
    split <;> split <;> decide
  omega

theorem stamp_toList (m : Moment) : m.stamp.toList = natDigits m.year ++ '-' :: ((padded 2 m.month).toList ++ '-' ::
    ((padded 2 m.day).toList ++ 'T' :: ((padded 2 m.hour).toList ++ ':' :: ((padded 2 m.minute).toList ++ ['Z'])))) := by
  simp [stamp, natText]

theorem readStamp_stamp (h : m.WellFormed) (hyear : 1000 ≤ m.year) : readStamp? m.stamp.toList = some m.toMinute := by
  obtain ⟨-, hmonths, hfirst, -⟩ := (isDate_iff _ _ _).1 h.date
  obtain ⟨hfitsMonth, hfitsDay, hfitsHour, hfitsMinute⟩ := fits_padded
  have hread : readParts (minuteParts ++ [.letter 'Z']) m.stamp.toList = [[natDigits m.year, (padded 2 m.month).toList,
      (padded 2 m.day).toList, (padded 2 m.hour).toList, (padded 2 m.minute).toList]] := by
    rw [stamp_toList]
    change readParts [yearField, .letter '-', monthField, .letter '-', dayField, .letter 'T', hourField, .letter ':',
      minuteField, .letter 'Z'] _ = _
    rw [readParts_of_fits (fits_year ⟨hyear, h.year_le⟩) (by decide),
      readParts_of_fits (hfitsMonth ⟨m.month, h.month_lt⟩ hmonths.1) (by decide),
      readParts_of_fits (hfitsDay ⟨m.day, h.day_lt⟩ hfirst) (by decide),
      readParts_of_fits (hfitsHour ⟨m.hour, h.hour⟩) (by decide),
      readParts_of_fits (hfitsMinute ⟨m.minute, h.minute⟩) (by decide)]
    rfl
  have hmoment : momentOfFields? [natDigits m.year, (padded 2 m.month).toList, (padded 2 m.day).toList,
      (padded 2 m.hour).toList, (padded 2 m.minute).toList] = some m.toMinute := by
    simp only [momentOfFields?, digitsValue_natDigits, digitsValue_padded, h.date]
    rfl
  rw [readStamp?, layouts, List.findSome?_cons, hread, List.head?_cons, Option.bind_some, hmoment]

end Moment

end Time

end FleetCache
