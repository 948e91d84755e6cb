import Mathlib.Data.String.Basic
import FleetCache.Proofs.StampReadings

set_option autoImplicit false

namespace FleetCache

open FleetCache.Text

namespace Json

theorem digitsValue_singleton_lt {c : Char} (h : isAsciiDigit c = true) : digitsValue [c] < 10 ∧
    c.toNat = digitsValue [c] + 48 := by
  have hc := (isAsciiDigit_iff c).1 h
  have hvalue : digitsValue [c] = c.toNat - 48 := by
    simp [digitsValue, digit?_ascii c hc]
  omega

theorem digitsValue_cons {c : Char} {text : List Char} (h : Digits (c :: text)) :
    digitsValue (c :: text) = Nat.pow 10 text.length * digitsValue [c] + digitsValue text := by
  obtain ⟨hc, htext⟩ := List.forall_mem_cons.1 h
  have hfirst : Digits [c] := List.forall_mem_singleton.2 hc
  exact digitsValue_append hfirst htext

theorem digitsValue_lt {text : List Char} (h : Digits text) : digitsValue text < Nat.pow 10 text.length := by
  induction text with
  | nil => decide
  | cons c rest ih =>
    obtain ⟨hc, hrest⟩ := List.forall_mem_cons.1 h
    have hfirst := Nat.le_of_lt_succ (digitsValue_singleton_lt hc).1
    have hscaled := Nat.mul_le_mul_left (Nat.pow 10 rest.length) hfirst
    have := ih hrest
    have hstep : Nat.pow 10 (rest.length + 1) = Nat.pow 10 rest.length * 10 := rfl
    rw [digitsValue_cons h, List.length_cons, hstep]
    omega

theorem append_lt_of_digitsValue_lt {text other : List Char} (h : Digits text) (hother : Digits other)
    (hlength : text.length = other.length) (hlt : digitsValue text < digitsValue other) (rest more : List Char) :
    text ++ rest < other ++ more := by
  induction text generalizing other with
  | nil =>
    obtain rfl := List.length_eq_zero_iff.1 hlength.symm
    exact absurd hlt (Nat.lt_irrefl _)
  | cons c text ih =>
    cases other with
    | nil => cases hlength
    | cons d other =>
      obtain ⟨hc, htext⟩ := List.forall_mem_cons.1 h
      obtain ⟨hd, hotherRest⟩ := List.forall_mem_cons.1 hother
      have hlengths : text.length = other.length := Nat.succ.inj hlength
      have hcode := (digitsValue_singleton_lt hc).2
      have hcode' := (digitsValue_singleton_lt hd).2
      rw [digitsValue_cons h, digitsValue_cons hother, hlengths] at hlt
      rw [List.cons_append, List.cons_append, List.cons_lt_cons_iff]
      rcases Nat.lt_trichotomy (digitsValue [c]) (digitsValue [d]) with hfirst | hfirst | hfirst
      · refine .inl ?_
        rw [Char.lt_def, UInt32.lt_iff_toNat_lt]
        change c.toNat < d.toNat
        omega
      · have hsame : c = d := Char.toNat_inj.1 (by omega)
        rw [hfirst] at hlt
        exact .inr ⟨hsame, ih htext hotherRest hlengths (Nat.lt_of_add_lt_add_left hlt)⟩
      · have hscaled := Nat.mul_le_mul_left (Nat.pow 10 other.length) (Nat.succ_le_of_lt hfirst)
        have hsmall := digitsValue_lt hotherRest
        rw [Nat.mul_succ] at hscaled
        omega

theorem append_le_of_digitsValue {text other : List Char} (h : Digits text) (hother : Digits other)
    (hlength : text.length = other.length) {rest more : List Char}
    (horder : digitsValue text < digitsValue other ∨ text = other ∧ rest ≤ more) : text ++ rest ≤ other ++ more := by
  rcases horder with hlt | ⟨rfl, hle⟩
  · exact (append_lt_of_digitsValue_lt h hother hlength hlt rest more).le
  · exact hle.lt_or_eq.elim (fun hlt => (List.append_left_lt hlt).le) (fun heq => (congrArg (text ++ ·) heq).le)

end Json

namespace Time

open FleetCache.Json

theorem digits_padded (n : Nat) : Digits (padded 2 n).toList := by
  obtain ⟨text, htext, hdigits, -, -⟩ := padded_toList n
  rwa [htext]

theorem length_padded {n : Nat} (h : n < 100) : (padded 2 n).toList.length = 2 := by
  have hall : ∀ n : Fin 100, (padded 2 n).toList.length = 2 := by decide +kernel
  exact hall ⟨n, h⟩

theorem padded_le {n later : Nat} (hn : n < 100) (hlater : later < 100) (c : Char) {rest more : List Char}
    (h : n < later ∨ n = later ∧ rest ≤ more) :
    (padded 2 n).toList ++ c :: rest ≤ (padded 2 later).toList ++ c :: more := by
  refine append_le_of_digitsValue (digits_padded n) (digits_padded later)
    ((length_padded hn).trans (length_padded hlater).symm) ?_
  rw [digitsValue_padded, digitsValue_padded]
  rcases h with hlt | ⟨rfl, hle⟩
  · exact .inl hlt
  · exact .inr ⟨rfl, List.cons_le_cons c hle⟩

namespace Moment

def ShowsNoLater (m later : Moment) : Prop :=
  m.year < later.year ∨ m.year = later.year ∧ (m.month < later.month ∨ m.month = later.month ∧
    (m.day < later.day ∨ m.day = later.day ∧ (m.hour < later.hour ∨ m.hour = later.hour ∧
      (m.minute < later.minute ∨ m.minute = later.minute))))

variable {m later : Moment}

theorem stamp_le_stamp (h : m.WellFormed) (hlater : later.WellFormed) (hyear : 1000 ≤ m.year) (hyear' : 1000 ≤ later.year)
    (hshows : m.ShowsNoLater later) : m.stamp ≤ later.stamp := by
  have htwo {n bound : Nat} (hn : n < bound) (hbound : bound ≤ 100) : n < 100 := Nat.lt_of_lt_of_le hn hbound
  have hlist : m.stamp.toList ≤ later.stamp.toList := by
    rw [stamp_toList, stamp_toList]
    refine append_le_of_digitsValue (digits_natDigits _) (digits_natDigits _) ?_ ?_
    · rw [length_natDigits_of_four ⟨hyear, h.year_le⟩, length_natDigits_of_four ⟨hyear', hlater.year_le⟩]
    rw [digitsValue_natDigits, digitsValue_natDigits]
    refine hshows.imp_right (And.imp (congrArg natDigits) (fun hmonth => List.cons_le_cons '-' ?_))
    refine padded_le (htwo h.month_lt (by decide)) (htwo hlater.month_lt (by decide)) '-'
      (hmonth.imp_right (And.imp_right (fun hday => ?_)))
    refine padded_le (htwo h.day_lt (by decide)) (htwo hlater.day_lt (by decide)) 'T'
      (hday.imp_right (And.imp_right (fun hhour => ?_)))
    refine padded_le (htwo h.hour (by decide)) (htwo hlater.hour (by decide)) ':'
      (hhour.imp_right (And.imp_right (fun hminute => ?_)))
    exact padded_le (htwo h.minute (by decide)) (htwo hlater.minute (by decide)) 'Z'
      (hminute.imp_right (fun hsame => ⟨hsame, le_rfl⟩))
  exact String.le_iff_toList_le.2 hlist

end Moment

end Time

end FleetCache
