import FleetCache.Proofs.StampOrders
import FleetCache.Value.Scalar
/-!
Moments and the stamps they are written as. A stamp names the last whole minute, in universal time, that is not after its
moment, before and after 1970 and in every year of four digits; so no stamp is off by a minute, and stamps keep the order
of their moments.
-/
set_option autoImplicit false

namespace FleetCache.Time

open FleetCache.Text FleetCache.Number

/-- Microseconds from 1970-01-01T00:00 universal time to the first day of a year, days counted one by one. -/
def yearStart (year : Nat) : Int :=
  ((dayCount year 1 1 : Int) - dayCount 1970 1 1) * microsPerDay

namespace Moment

/-- Microseconds from 1970-01-01T00:00 universal time, days counted one by one. -/
def elapsed (m : Moment) : Int :=
  ((dayCount m.year m.month m.day : Int) - dayCount 1970 1 1) * microsPerDay + m.microOfDay - m.offset.getD 0

/-- A moment that universal time has in the years 1000 to 9999. -/
structure InStampYears (m : Moment) : Prop where
  start_le : yearStart 1000 ≤ m.elapsed
  lt_end : m.elapsed < yearStart 10000

variable {m : Moment}

theorem WellFormed.epochMicros_eq (h : m.WellFormed) : m.epochMicros = m.elapsed := by
  obtain ⟨hyear, hmonth, -⟩ := (isDate_iff _ _ _).1 h.date
  rw [epochMicros, Moment.local, dayNumber_eq m.day hyear.1 hmonth, elapsed]

theorem WellFormed.microOfDay_bounds (h : m.WellFormed) : 0 ≤ m.microOfDay ∧ m.microOfDay < microsPerDay := by
  obtain ⟨-, hhour, hminute, hsecond, hmicro⟩ := h
  simp only [microOfDay, microsPerDay, microsPerSecond]
  omega

theorem WellFormed.elapsed_toMinute (h : m.WellFormed) (hoffset : m.offset.getD 0 = 0) :
    m.toMinute.elapsed = 60000000 * (m.elapsed / 60000000) := by
  obtain ⟨-, -, -, hsecond, hmicro⟩ := h
  simp only [elapsed, toMinute, microOfDay, microsPerDay, microsPerSecond, hoffset, Option.getD_some]
  omega

theorem WellFormed.toMinute (h : m.WellFormed) : m.toMinute.WellFormed where
  date := h.date
  hour := h.hour
  minute := h.minute
  second := Nat.zero_lt_succ 59
  micro := Nat.zero_lt_succ 999999

theorem exists_ofEpochMicros {micros : Int} (h : yearStart 1000 ≤ micros ∧ micros < yearStart 10000) :
    ∃ u, ofEpochMicros? micros = some u ∧ u.WellFormed ∧ u.offset.getD 0 = 0 ∧ u.elapsed = micros := by
  obtain ⟨hstart, hend⟩ := h
  simp only [yearStart, microsPerDay, microsPerSecond] at hstart hend
  obtain ⟨number, hnumber⟩ : ∃ number, micros / microsPerDay = number := ⟨_, rfl⟩
  obtain ⟨rest, hrest⟩ : ∃ rest, (micros % microsPerDay).toNat = rest := ⟨_, rfl⟩
  have hsplit : micros = number * microsPerDay + rest ∧ rest < 86400000000 := by
    simp only [microsPerDay, microsPerSecond] at hnumber hrest ⊢
    omega
  simp only [microsPerDay, microsPerSecond] at hsplit
  have hfirst : (1000 : Nat) ≤ (Date.ofDayNumber number).year := le_year_ofDayNumber (by decide) (by omega)
  have hlast : (Date.ofDayNumber number).year < (10000 : Nat) := year_ofDayNumber_lt (by decide) (by omega)
  have hyears : 1 ≤ (Date.ofDayNumber number).year ∧ (Date.ofDayNumber number).year ≤ 9999 := by omega
  have hwellFormed : WellFormed ⟨(Date.ofDayNumber number).year.toNat, (Date.ofDayNumber number).month,
      (Date.ofDayNumber number).day, rest / 1000000 / 3600, rest / 1000000 / 60 % 60, rest / 1000000 % 60,
      rest % 1000000, some 0⟩ := by
    refine ⟨isDate_ofDayNumber hyears, ?_, ?_, ?_, ?_⟩ <;> dsimp only <;> omega
  refine ⟨_, ?_, hwellFormed, rfl, ?_⟩
  · rw [ofEpochMicros?, hnumber, hrest, if_pos hyears]
  · have hdate : Date.mk ((Date.ofDayNumber number).year.toNat : Int) (Date.ofDayNumber number).month
        (Date.ofDayNumber number).day = Date.ofDayNumber number := by
      rw [Int.toNat_of_nonneg (by omega)]
    rw [← hwellFormed.epochMicros_eq, epochMicros, Moment.local, hdate, dayNumber_ofDayNumber]
    simp only [microOfDay, microsPerDay, microsPerSecond, Option.getD_some]
    omega

theorem exists_toUniversal (h : m.WellFormed) (hyears : m.InStampYears) :
    ∃ u, m.toUniversal? = some u ∧ u.WellFormed ∧ u.offset.getD 0 = 0 ∧ u.elapsed = m.elapsed := by
  cases hoffset : m.offset with
  | none =>
    refine ⟨m, ?_, h, ?_, rfl⟩
    · rw [toUniversal?, hoffset]
    · rw [hoffset]
      rfl
  | some offset =>
    rw [toUniversal?, hoffset, h.epochMicros_eq]
    exact exists_ofEpochMicros ⟨hyears.start_le, hyears.lt_end⟩

theorem year_of_elapsed (h : m.WellFormed) (hoffset : m.offset.getD 0 = 0) (hstart : yearStart 1000 ≤ m.elapsed) :
    1000 ≤ m.year := by
  refine Nat.not_lt.1 (fun hlt => ?_)
  have hcount := dayCount_lt_of_year_lt h.date hlt 1 (Nat.le_refl 1)
  have hday := h.microOfDay_bounds.2
  rw [elapsed, hoffset] at hstart
  simp only [yearStart, microsPerDay, microsPerSecond] at hstart hday
  omega

theorem showsNoLater_of_elapsed_le {later : Moment} (h : m.WellFormed) (hlater : later.WellFormed)
    (hoffset : m.offset.getD 0 = 0) (hoffset' : later.offset.getD 0 = 0) (hle : m.elapsed ≤ later.elapsed) :
    m.ShowsNoLater later := by
  have hday : 1 ≤ m.day := ((isDate_iff _ _ _).1 h.date).2.2.1
  have hbounds := h.microOfDay_bounds
  have hbounds' := hlater.microOfDay_bounds
  -- an earlier date of the later moment would have been counted less
  have hcount : dayCount m.year m.month m.day ≤ dayCount later.year later.month later.day := by
    simp only [elapsed, hoffset, hoffset', microsPerDay, microsPerSecond] at hle hbounds hbounds'
    omega
  rcases Nat.lt_trichotomy m.year later.year with hyear | hyear | hyear
  · exact .inl hyear
  · refine .inr ⟨hyear, ?_⟩
    rcases Nat.lt_trichotomy m.month later.month with hmonth | hmonth | hmonth
    · exact .inl hmonth
    · refine .inr ⟨hmonth, ?_⟩
      obtain ⟨-, hhour, hminute, hsecond, hmicro⟩ := h
      obtain ⟨-, hhour', hminute', hsecond', hmicro'⟩ := hlater
      simp only [elapsed, dayCount, microOfDay, hyear, hmonth, hoffset, hoffset', microsPerDay, microsPerSecond] at hle
      omega
    · rw [hyear] at hcount
      exact absurd (dayCount_lt_of_month_lt hlater.date hmonth hday) (Nat.not_lt.2 hcount)
  · exact absurd (dayCount_lt_of_year_lt hlater.date hyear m.month hday) (Nat.not_lt.2 hcount)

end Moment

open Moment

theorem yearStart_1000 : yearStart 1000 = -30610224000000000 := by
  rw [yearStart, dayCount_first 999, dayCount_first 1969]
  rfl

theorem yearStart_10000 : yearStart 10000 = 253402300800000000 := by
  rw [yearStart, dayCount_first 9999, dayCount_first 1969]
  rfl

namespace Moment

variable {m : Moment}

theorem inStampYears_iff : m.InStampYears ↔ -30610224000000000 ≤ m.elapsed ∧ m.elapsed < 253402300800000000 := by
  rw [← yearStart_1000, ← yearStart_10000]
  exact ⟨fun ⟨hstart, hend⟩ => ⟨hstart, hend⟩, fun ⟨hstart, hend⟩ => ⟨hstart, hend⟩⟩

theorem epochMillis_toMinute (h : m.WellFormed) (hyears : m.InStampYears) (hoffset : m.offset.getD 0 = 0) :
    m.toMinute.epochMillis = 60000 * (m.elapsed / 60000000) := by
  obtain ⟨hstart, hend⟩ := inStampYears_iff.1 hyears
  have hmicros : m.toMinute.epochMicros = 60 * (m.elapsed / 60000000) * 1000000 := by
    rw [h.toMinute.epochMicros_eq, h.elapsed_toMinute hoffset]
    omega
  have hbound : (60 * (m.elapsed / 60000000)).natAbs * 1000 < Nat.pow 2 precision := by
    change _ < 9007199254740992
    omega
  rw [epochMillis_of_seconds hmicros hbound]
  omega

/-- A moment, the stamp it is written as, and the milliseconds since 1970 that the stamp is read as: those of the last
whole minute, which is less than a minute ago. -/
structure Stamped (m : Moment) (text : String) (millis : Int) : Prop where
  written : stampOf m = .ok text
  recorded : (Value.time m).stamped = .ok (.str text)
  read : ∀ field, (Value.str text).epochMillis field = .ok millis
  minutes : millis = 60000 * (m.elapsed / 60000000)
  near : 1000 * millis ≤ m.elapsed ∧ m.elapsed < 1000 * millis + 60000000

theorem stampOf_of_toUniversal {u : Moment} (h : m.toUniversal? = some u) : stampOf m = .ok u.stamp := by
  rw [stampOf, writeStamp?, h]
  rfl

theorem exists_stamped (h : m.WellFormed) (hyears : m.InStampYears) : ∃ u, m.toUniversal? = some u ∧ u.WellFormed ∧
    u.offset.getD 0 = 0 ∧ u.elapsed = m.elapsed ∧ 1000 ≤ u.year ∧
      Stamped m u.stamp (60000 * (m.elapsed / 60000000)) := by
  obtain ⟨u, huniversal, hu, hoffset, helapsed⟩ := exists_toUniversal h hyears
  have huyears : u.InStampYears := by
    rw [inStampYears_iff, helapsed]
    exact inStampYears_iff.1 hyears
  have hyear := year_of_elapsed hu hoffset huyears.start_le
  have hwritten := stampOf_of_toUniversal huniversal
  refine ⟨u, huniversal, hu, hoffset, helapsed, hyear, hwritten, ?_, fun field => ?_, rfl, ?_⟩
  · rw [Value.stamped, hwritten]
    rfl
  · rw [← helapsed, ← epochMillis_toMinute hu huyears hoffset]
    simp only [Value.epochMillis, readStamp_stamp hu hyear]
  · omega

end Moment

/-- Every moment of the years 1000 to 9999 has a stamp, which is read as the last whole minute of universal time, less
than a minute before the moment; and the stamps of moments are in the order of the moments, as read and as texts. -/
theorem stamps_keep_minute_and_order {m : Moment} (h : m.WellFormed) (hyears : m.InStampYears) :
    (∃ text millis, Stamped m text millis) ∧
      ∀ later : Moment, later.WellFormed → later.InStampYears → m.elapsed ≤ later.elapsed →
        ∀ text millis text' millis', Stamped m text millis → Stamped later text' millis' →
          millis ≤ millis' ∧ text ≤ text' := by
  obtain ⟨u, huniversal, hu, hoffset, helapsed, hyear, hstamped⟩ := exists_stamped h hyears
  refine ⟨⟨_, _, hstamped⟩, fun later hlater hyears' hle text millis text' millis' hearly hlate => ⟨?_, ?_⟩⟩
  · rw [hearly.minutes, hlate.minutes]
    omega
  · obtain ⟨u', huniversal', hu', hoffset', helapsed', hyear', -⟩ := exists_stamped hlater hyears'
    obtain rfl := Except.ok.inj (hearly.written.symm.trans (stampOf_of_toUniversal huniversal))
    obtain rfl := Except.ok.inj (hlate.written.symm.trans (stampOf_of_toUniversal huniversal'))
    rw [← helapsed, ← helapsed'] at hle
    exact stamp_le_stamp hu hu' hyear hyear' (showsNoLater_of_elapsed_le hu hu' hoffset hoffset' hle)

/-- The last instant of a February without a leap day, on a clock where it is March already. -/
def endOfFebruary : Moment :=
  ⟨1900, 3, 1, 0, 59, 59, 999999, some 3600000000⟩

def leapDay : Moment :=
  ⟨2000, 2, 29, 0, 0, 0, 0, none⟩

theorem stamps_keep_minute_and_order_leap : (endOfFebruary.WellFormed ∧ endOfFebruary.InStampYears) ∧
    (leapDay.WellFormed ∧ leapDay.InStampYears) ∧ endOfFebruary.elapsed ≤ leapDay.elapsed ∧
      Stamped endOfFebruary "1900-02-28T23:59Z" (-2203891260000) ∧ ∃ text millis, Stamped leapDay text millis ∧
        -2203891260000 ≤ millis ∧ "1900-02-28T23:59Z" ≤ text := by
  have hearly : endOfFebruary.WellFormed := ⟨by decide, by decide, by decide, by decide, by decide⟩
  have hlate : leapDay.WellFormed := ⟨by decide, by decide, by decide, by decide, by decide⟩
  have helapsed : endOfFebruary.elapsed = -2203891200000001 := hearly.epochMicros_eq.symm.trans (by decide +kernel)
  have helapsed' : leapDay.elapsed = 951782400000000 := hlate.epochMicros_eq.symm.trans (by decide +kernel)
  have hyears : endOfFebruary.InStampYears := by
    rw [inStampYears_iff, helapsed]
    decide
  have hyears' : leapDay.InStampYears := by
    rw [inStampYears_iff, helapsed']
    decide
  have hle : endOfFebruary.elapsed ≤ leapDay.elapsed := by
    rw [helapsed, helapsed']
    decide
  obtain ⟨⟨text, millis, hstamped⟩, horder⟩ := stamps_keep_minute_and_order hearly hyears
  obtain ⟨⟨text', millis', hstamped'⟩, -⟩ := stamps_keep_minute_and_order hlate hyears'
  have htext : stampOf endOfFebruary = .ok "1900-02-28T23:59Z" := rfl
  obtain rfl := Except.ok.inj (htext.symm.trans hstamped.written)
  have hmillis : millis = -2203891260000 := by
    rw [hstamped.minutes, helapsed]
    decide
  subst hmillis
  exact ⟨⟨hearly, hyears⟩, ⟨hlate, hyears'⟩, hle, hstamped, text', millis', hstamped',
    horder leapDay hlate hyears' hle _ _ _ _ hstamped hstamped'⟩

end FleetCache.Time
