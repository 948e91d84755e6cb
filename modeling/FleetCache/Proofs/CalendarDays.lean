import FleetCache.Time.Calendar
/-!
Days counted one by one. The number of a day by eras of 400 years is the number of days in all the years, and in all the
months of its year, that lie before it; and the date that is found for a number is the day that has this number.
-/
set_option autoImplicit false

namespace FleetCache.Time

theorem isLeap_iff (year : Nat) : isLeap year = true ↔ year % 4 = 0 ∧ (year % 100 ≠ 0 ∨ year % 400 = 0) := by
  simp [isLeap]

def daysInYear (year : Nat) : Nat :=
  if isLeap year then 366 else 365

def daysBeforeYear : Nat → Nat
  | 0 => 0
  | year + 1 => daysBeforeYear year + daysInYear year

def daysBeforeMonth (year : Nat) : Nat → Nat
  | 0 => 0
  | 1 => 0
  | month + 2 => daysBeforeMonth year (month + 1) + daysInMonth year (month + 1)

def dayCount (year month day : Nat) : Nat :=
  daysBeforeYear year + daysBeforeMonth year month + day

theorem isDate_iff (year month day : Nat) : isDate year month day = true ↔
    (1 ≤ year ∧ year ≤ 9999) ∧ (1 ≤ month ∧ month ≤ 12) ∧ 1 ≤ day ∧ day ≤ daysInMonth year month := by
  simp [isDate, and_assoc]

/-! ## Years that start in March -/

def marchDays (year : Int) : Int :=
  365 * year + year / 4 - year / 100 + year / 400

theorem marchDays_add_eras (year eras : Int) : marchDays (year + 400 * eras) = marchDays year + 146097 * eras := by
  simp only [marchDays]
  omega

theorem daysBeforeYear_succ (year : Nat) : (daysBeforeYear (year + 1) : Int) = marchDays year + 366 := by
  induction year with
  | zero => decide
  | succ year ih =>
    have hleap := isLeap_iff (year + 1)
    rw [daysBeforeYear, Int.natCast_add, ih]
    simp only [marchDays, daysInYear]
    split
    · rename_i h
      have := hleap.1 h
      omega
    · rename_i h
      have := mt hleap.2 h
      omega

def marchMonthDays (month : Int) : Int :=
  (153 * month + 2) / 5

theorem daysBeforeMonth_of_le_two (year : Nat) {month : Nat} (h : 1 ≤ month ∧ month ≤ 2) :
    (daysBeforeMonth year month : Int) + 306 = marchMonthDays (month + 9) := by
  obtain rfl | rfl : month = 1 ∨ month = 2 := by omega
  · rfl
  · rfl

theorem daysBeforeMonth_of_three_le (year : Nat) {month : Nat} (h : 3 ≤ month ∧ month ≤ 12) :
    (daysBeforeMonth year month : Int) + 306 = daysInYear year + marchMonthDays (month - 3) := by
  obtain rfl | rfl | rfl | rfl | rfl | rfl | rfl | rfl | rfl | rfl : month = 3 ∨ month = 4 ∨ month = 5 ∨ month = 6 ∨
      month = 7 ∨ month = 8 ∨ month = 9 ∨ month = 10 ∨ month = 11 ∨ month = 12 := by omega
  all_goals
    simp only [daysBeforeMonth, daysInYear, daysInMonth]
    cases isLeap year <;> rfl

theorem dayCount_first (year : Nat) : (dayCount (year + 1) 1 1 : Int) = marchDays year + 367 := by
  have hmonths : daysBeforeMonth (year + 1) 1 = 0 := rfl
  rw [dayCount, hmonths, Int.natCast_add, Int.natCast_add, daysBeforeYear_succ]
  omega

theorem dayNumber_eq {year month : Nat} (day : Nat) (hyear : 1 ≤ year) (hmonth : 1 ≤ month ∧ month ≤ 12) :
    (Date.mk year month day).dayNumber = (dayCount year month day : Int) - dayCount 1970 1 1 := by
  obtain ⟨last, rfl⟩ : ∃ last, year = last + 1 := ⟨year - 1, by omega⟩
  have hyears := daysBeforeYear_succ last
  have hepoch : (dayCount 1970 1 1 : Int) = 719529 := dayCount_first 1969
  rw [hepoch]
  simp only [Date.dayNumber, dayCount]
  by_cases hearly : month ≤ 2
  · have hmonths := daysBeforeMonth_of_le_two (last + 1) ⟨hmonth.1, hearly⟩
    rw [if_pos hearly, if_neg (by omega)]
    simp only [marchDays, marchMonthDays] at hyears hmonths
    omega
  · have hmonths := daysBeforeMonth_of_three_le (last + 1) ⟨by omega, hmonth.2⟩
    have hnext := daysBeforeYear_succ (last + 1)
    rw [daysBeforeYear] at hnext
    rw [if_neg hearly, if_pos (by omega)]
    simp only [marchDays, marchMonthDays] at hnext hmonths
    omega

/-! ## The date of a day -/

def eraYear (day : Int) : Int :=
  (day - day / 1460 + day / 36524 - day / 146096) / 365

theorem eraYear_mono {day later : Int} (h : day ≤ later) : eraYear day ≤ eraYear later := by
  have hyears : day - day / 1460 ≤ later - later / 1460 := by omega
  have hcenturies : day / 36524 - day / 146096 ≤ later / 36524 - later / 146096 := by omega
  simp only [eraYear]
  omega

theorem eraYear_bounds {day : Int} (h : 0 ≤ day ∧ day < 146097) : 0 ≤ eraYear day ∧ eraYear day < 400 := by
  have hfirst : eraYear 0 ≤ eraYear day := eraYear_mono h.1
  have hlast : eraYear day ≤ eraYear 146096 := eraYear_mono (Int.le_sub_one_of_lt h.2)
  exact ⟨hfirst, Int.lt_of_le_sub_one hlast⟩

theorem eraYear_first (year : Int) (h : 0 ≤ year ∧ year < 400) : eraYear (marchDays year) = year := by
  have hall : ∀ year : Fin 400, eraYear (marchDays year.val) = year.val := by decide +kernel
  have hyear := hall ⟨year.toNat, by omega⟩
  rwa [Int.toNat_of_nonneg h.1] at hyear

theorem eraYear_last (year : Int) (h : 0 ≤ year ∧ year < 400) : eraYear (marchDays (year + 1) - 1) = year := by
  have hall : ∀ year : Fin 400, eraYear (marchDays (year.val + 1) - 1) = year.val := by decide +kernel
  have hyear := hall ⟨year.toNat, by omega⟩
  rwa [Int.toNat_of_nonneg h.1] at hyear

structure InMarchYear (year day : Int) : Prop where
  first_le : marchDays year ≤ day
  lt_next : day < marchDays (year + 1)

theorem inMarchYear_eraYear {day : Int} (h : 0 ≤ day ∧ day < 146097) : InMarchYear (eraYear day) day := by
  have hbounds := eraYear_bounds h
  constructor
  · refine Int.not_lt.1 (fun hlt => ?_)
    have hfirst : eraYear day ≠ 0 := by
      intro hzero
      rw [hzero] at hlt
      exact absurd hlt (Int.not_lt.2 h.1)
    have hbefore := eraYear_last (eraYear day - 1) (by omega)
    rw [Int.sub_add_cancel] at hbefore
    have := eraYear_mono (Int.le_sub_one_of_lt hlt)
    omega
  · refine Int.not_le.1 (fun hle => ?_)
    have hlast : eraYear day ≠ 399 := by
      intro hlast
      rw [hlast] at hle
      exact absurd h.2 (Int.not_lt.2 hle)
    have hafter := eraYear_first (eraYear day + 1) (by omega)
    have := eraYear_mono hle
    omega

def civilMonth (month : Int) : Int :=
  if month < 10 then month + 3 else month - 9

def marchDate (year day : Int) : Date :=
  let month := (5 * day + 2) / 153
  ⟨year + (if civilMonth month ≤ 2 then 1 else 0), (civilMonth month).toNat, (day - marchMonthDays month + 1).toNat⟩

theorem ofDayNumber_eq (number : Int) : ∃ year, InMarchYear year (number + 719468) ∧
    Date.ofDayNumber number = marchDate year (number + 719468 - marchDays year) := by
  have hdate : ∀ day year : Int, number + 719468 = day → eraYear (day - day / 146097 * 146097) = year →
      Date.ofDayNumber number = marchDate (year + day / 146097 * 400)
        (day - day / 146097 * 146097 - (365 * year + year / 4 - year / 100)) := by
    rintro day year rfl rfl
    rfl
  obtain ⟨day, hday⟩ : ∃ day, number + 719468 = day := ⟨_, rfl⟩
  have hera : 0 ≤ day - day / 146097 * 146097 ∧ day - day / 146097 * 146097 < 146097 := by omega
  obtain ⟨year, hyear⟩ : ∃ year, eraYear (day - day / 146097 * 146097) = year := ⟨_, rfl⟩
  have hwithin := inMarchYear_eraYear hera
  have hbounds := eraYear_bounds hera
  rw [hyear] at hwithin hbounds
  have hfirst := marchDays_add_eras year (day / 146097)
  have hnext := marchDays_add_eras (year + 1) (day / 146097)
  rw [Int.add_right_comm] at hnext
  rw [hday]
  refine ⟨year + 400 * (day / 146097), ⟨?_, ?_⟩, ?_⟩
  · have := hwithin.first_le
    omega
  · have := hwithin.lt_next
    omega
  · have hplain : marchDays year = 365 * year + year / 4 - year / 100 := by
      simp only [marchDays]
      omega
    have hplace : day - day / 146097 * 146097 - (365 * year + year / 4 - year / 100) =
        day - marchDays (year + 400 * (day / 146097)) := by
      rw [← hplain, hfirst]
      omega
    rw [hdate day year hday hyear, hplace, Int.mul_comm]

theorem dayNumber_marchDate (year : Int) {day : Int} (h : 0 ≤ day ∧ day < 366) :
    (marchDate year day).dayNumber = marchDays year + day - 719468 := by
  obtain ⟨month, hmonth⟩ : ∃ month, (5 * day + 2) / 153 = month := ⟨_, rfl⟩
  simp only [marchDate, civilMonth, Date.dayNumber, marchDays, marchMonthDays, hmonth]
  by_cases hlate : month < 10
  · rw [if_pos hlate, if_neg (by omega), if_neg (by omega), if_pos (by omega)]
    omega
  · rw [if_neg hlate, if_pos (by omega), if_pos (by omega), if_neg (by omega)]
    omega

theorem InMarchYear.day_bounds {year day : Int} (h : InMarchYear year day) :
    0 ≤ day - marchDays year ∧ day - marchDays year < 366 := by
  obtain ⟨hfirst, hnext⟩ := h
  simp only [marchDays] at hfirst hnext ⊢
  omega

theorem InMarchYear.isLeap_of_last {year day : Int} (h : InMarchYear year day) (hyear : 0 ≤ year)
    (hlast : day - marchDays year = 365) : isLeap (year + 1).toNat = true := by
  have hnext := h.lt_next
  simp only [marchDays] at hnext hlast
  rw [isLeap_iff]
  omega

theorem marchMonthDays_bounds {month day : Int} (h : (5 * day + 2) / 153 = month) :
    marchMonthDays month ≤ day ∧ day < marchMonthDays (month + 1) := by
  simp only [marchMonthDays]
  omega

theorem daysInMonth_civilMonth (year : Nat) {month : Int} (h : 0 ≤ month ∧ month ≤ 10) :
    (daysInMonth year (civilMonth month).toNat : Int) = marchMonthDays (month + 1) - marchMonthDays month := by
  obtain rfl | rfl | rfl | rfl | rfl | rfl | rfl | rfl | rfl | rfl | rfl : month = 0 ∨ month = 1 ∨ month = 2 ∨ month = 3 ∨
      month = 4 ∨ month = 5 ∨ month = 6 ∨ month = 7 ∨ month = 8 ∨ month = 9 ∨ month = 10 := by omega
  all_goals rfl

theorem isDate_marchDate {year day : Int} (h : InMarchYear year day)
    (hyears : 1 ≤ (marchDate year (day - marchDays year)).year ∧ (marchDate year (day - marchDays year)).year ≤ 9999) :
    isDate (marchDate year (day - marchDays year)).year.toNat (marchDate year (day - marchDays year)).month
      (marchDate year (day - marchDays year)).day = true := by
  have hday := h.day_bounds
  have hleap := h.isLeap_of_last
  obtain ⟨within, hwithin⟩ : ∃ within, day - marchDays year = within := ⟨_, rfl⟩
  rw [hwithin] at hday hleap hyears ⊢
  obtain ⟨month, hmonth⟩ : ∃ month, (5 * within + 2) / 153 = month := ⟨_, rfl⟩
  obtain ⟨hlow, hhigh⟩ := marchMonthDays_bounds hmonth
  simp only [marchDate, hmonth] at hyears ⊢
  refine (isDate_iff _ _ _).2 ⟨by omega, ?_, by omega, ?_⟩
  · simp only [civilMonth]
    split <;> omega
  · by_cases hfebruary : month = 11
    · subst hfebruary
      have hyear : year + 1 ≤ 9999 ∧ 1 ≤ year + 1 := ⟨hyears.2, hyears.1⟩
      change (within - 337 + 1).toNat ≤ if isLeap (year + 1).toNat then 29 else 28
      split
      · omega
      · have : within ≠ 365 := fun hlast => absurd (hleap (by omega) hlast) ‹_›
        omega
    · have hmonths : 0 ≤ month ∧ month ≤ 10 := by omega
      have hlength := daysInMonth_civilMonth (year + if civilMonth month ≤ 2 then 1 else 0).toNat hmonths
      omega

theorem dayNumber_ofDayNumber (number : Int) : (Date.ofDayNumber number).dayNumber = number := by
  obtain ⟨year, hyear, hdate⟩ := ofDayNumber_eq number
  rw [hdate, dayNumber_marchDate year hyear.day_bounds]
  omega

theorem isDate_ofDayNumber {number : Int}
    (h : 1 ≤ (Date.ofDayNumber number).year ∧ (Date.ofDayNumber number).year ≤ 9999) :
    isDate (Date.ofDayNumber number).year.toNat (Date.ofDayNumber number).month (Date.ofDayNumber number).day = true := by
  obtain ⟨year, hyear, hdate⟩ := ofDayNumber_eq number
  rw [hdate] at h ⊢
  exact isDate_marchDate hyear h

/-! ## Years and the days in them -/

theorem marchDays_mono {year later : Int} (h : year ≤ later) : marchDays year ≤ marchDays later := by
  simp only [marchDays]
  omega

theorem year_ofDayNumber (number : Int) : marchDays ((Date.ofDayNumber number).year - 1) + 306 ≤ number + 719468 ∧
    number + 719468 < marchDays (Date.ofDayNumber number).year + 306 := by
  obtain ⟨year, hyear, hdate⟩ := ofDayNumber_eq number
  have hbounds := hyear.day_bounds
  obtain ⟨hfirst, hnext⟩ := hyear
  obtain ⟨within, hwithin⟩ : ∃ within, number + 719468 - marchDays year = within := ⟨_, rfl⟩
  obtain ⟨month, hmonth⟩ : ∃ month, (5 * within + 2) / 153 = month := ⟨_, rfl⟩
  rw [hwithin] at hbounds
  rw [hdate, hwithin]
  simp only [marchDate, civilMonth, hmonth]
  by_cases hlate : month < 10
  · rw [if_pos hlate, if_neg (by omega), Int.add_zero]
    simp only [marchDays] at *
    omega
  · rw [if_neg hlate, if_pos (by omega), Int.add_sub_cancel]
    simp only [marchDays] at *
    omega

theorem le_year_ofDayNumber {year : Nat} {number : Int} (hyear : 1 ≤ year)
    (h : (dayCount year 1 1 : Int) - dayCount 1970 1 1 ≤ number) : (year : Int) ≤ (Date.ofDayNumber number).year := by
  obtain ⟨before, rfl⟩ : ∃ before, year = before + 1 := ⟨year - 1, by omega⟩
  rw [dayCount_first before, dayCount_first 1969] at h
  refine Int.not_lt.1 (fun hlt => ?_)
  have hyears : (Date.ofDayNumber number).year ≤ before := Int.le_of_lt_add_one hlt
  have := marchDays_mono hyears
  have := (year_ofDayNumber number).2
  change marchDays before + 367 - 719529 ≤ number at h
  omega

theorem year_ofDayNumber_lt {year : Nat} {number : Int} (hyear : 1 ≤ year)
    (h : number < (dayCount year 1 1 : Int) - dayCount 1970 1 1) : (Date.ofDayNumber number).year < year := by
  obtain ⟨before, rfl⟩ : ∃ before, year = before + 1 := ⟨year - 1, by omega⟩
  rw [dayCount_first before, dayCount_first 1969] at h
  refine Int.not_le.1 (fun hle => ?_)
  have hyears : (before : Int) ≤ (Date.ofDayNumber number).year - 1 := Int.le_sub_one_of_lt hle
  have := marchDays_mono hyears
  have := (year_ofDayNumber number).1
  change number < marchDays before + 367 - 719529 at h
  omega

theorem daysBeforeMonth_succ (year : Nat) {month : Nat} (h : 1 ≤ month) :
    daysBeforeMonth year (month + 1) = daysBeforeMonth year month + daysInMonth year month := by
  obtain ⟨before, rfl⟩ : ∃ before, month = before + 1 := ⟨month - 1, by omega⟩
  rfl

theorem daysBeforeMonth_thirteen (year : Nat) : daysBeforeMonth year 13 = daysInYear year := by
  simp only [daysBeforeMonth, daysInYear, daysInMonth]
  cases isLeap year <;> rfl

theorem daysBeforeMonth_add_daysInMonth_le (year : Nat) {month later : Nat} (h : 1 ≤ month) (hlater : month < later) :
    daysBeforeMonth year month + daysInMonth year month ≤ daysBeforeMonth year later := by
  induction hlater with
  | refl => exact Nat.le_of_eq (daysBeforeMonth_succ year h).symm
  | step hle ih =>
    rw [daysBeforeMonth_succ year (Nat.le_trans (Nat.le_succ_of_le h) hle)]
    exact Nat.le_add_right_of_le ih

theorem dayCount_lt_of_month_lt {year month day later : Nat} (h : isDate year month day = true) (hlater : month < later)
    {laterDay : Nat} (hday : 1 ≤ laterDay) : dayCount year month day < dayCount year later laterDay := by
  obtain ⟨-, hmonth, hbounds⟩ := (isDate_iff year month day).1 h
  have := daysBeforeMonth_add_daysInMonth_le year hmonth.1 hlater
  simp only [dayCount]
  omega

theorem dayCount_lt_of_year_lt {year month day later : Nat} (h : isDate year month day = true) (hlater : year < later)
    (laterMonth : Nat) {laterDay : Nat} (hday : 1 ≤ laterDay) :
    dayCount year month day < dayCount later laterMonth laterDay := by
  obtain ⟨-, hmonth, hbounds⟩ := (isDate_iff year month day).1 h
  have hwithin := daysBeforeMonth_add_daysInMonth_le year hmonth.1 (Nat.lt_succ_of_le hmonth.2)
  rw [daysBeforeMonth_thirteen] at hwithin
  have hyears : daysBeforeYear (year + 1) ≤ daysBeforeYear later := by
    induction hlater with
    | refl => exact Nat.le_refl _
    | step _ ih => exact Nat.le_add_right_of_le ih
  rw [daysBeforeYear] at hyears
  simp only [dayCount]
  omega

end FleetCache.Time
