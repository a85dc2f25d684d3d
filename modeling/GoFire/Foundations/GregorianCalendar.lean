import Mathlib.Algebra.Order.SuccPred
import Mathlib.Data.Int.LeastGreatest
import Mathlib.Tactic.Ring

/-! The proleptic Gregorian calendar as arithmetic on day numbers.
Day 0 is Monday, 1 January of year 1. Decoding a day number and encoding a date are mutually
inverse, and the whole calendar repeats every 400 years.
-/

namespace GregorianCalendar

-----------------------------------------------------------------------------------------
-- Years
-----------------------------------------------------------------------------------------

/-- Every fourth year is a leap year, except the centuries not divisible by 400. -/
def leap (year : Int) : Bool :=
  year % 4 = 0 && (year % 100 ≠ 0 || year % 400 = 0)

/-- The leap day as a number of days, 0 or 1. -/
def leapDay (year : Int) : Int := if leap year then 1 else 0

/-- Days from day 0 to 1 January of the year. -/
def daysBeforeYear (year : Int) : Int :=
  365 * (year - 1) + (year - 1) / 4 - (year - 1) / 100 + (year - 1) / 400

/-- The days of one 400-year cycle, a whole number of weeks. -/
def cycleDays : Int := 146097

/-- The year of a day number: whole cycles, then centuries, leap groups and years. The last
century of a cycle and the last year of a leap group are one day longer than the others.
-/
def yearOf (day : Int) : Int :=
  let inCycle := day % 146097
  let centuries := min (inCycle / 36524) 3
  let inCentury := inCycle - 36524 * centuries
  let groups := inCentury / 1461
  let inGroup := inCentury - 1461 * groups
  400 * (day / 146097) + 100 * centuries + 4 * groups + min (inGroup / 365) 3 + 1

theorem leapDay_bounds (year : Int) : 0 ≤ leapDay year ∧ leapDay year ≤ 1 := by
  unfold leapDay
  split <;> omega

/-- A year is followed by the next after 365 days and its leap day, by leap-year cases. -/
theorem daysBeforeYear_succ (year : Int)
    : daysBeforeYear (year + 1) = daysBeforeYear year + 365 + leapDay year := by
  unfold daysBeforeYear leapDay
  split <;> rename_i h <;>
    simp only [leap, Bool.and_eq_true, decide_eq_true_eq, Bool.or_eq_true] at h <;> omega

/-- Years start in order, by stepping one year at a time. -/
theorem daysBeforeYear_lt {year year' : Int}
    : daysBeforeYear year < daysBeforeYear year' ↔ year < year' := by
  have increasing : StrictMono daysBeforeYear := by
    apply strictMono_int_of_lt_succ
    intro year
    have := leapDay_bounds year
    rw [daysBeforeYear_succ]
    omega
  exact increasing.lt_iff_lt

/-- The divisors see the whole cycles, centuries and groups of a year as exact multiples. -/
theorem year_quotients {centuries groups years : Int} (cycles : Int)
    (centuryRange : 0 ≤ centuries ∧ centuries ≤ 3) (groupRange : 0 ≤ groups ∧ groups ≤ 24)
    (yearRange : 0 ≤ years ∧ years ≤ 3)
    : (400 * cycles + 100 * centuries + 4 * groups + years) / 4
        = 100 * cycles + 25 * centuries + groups
      ∧ (400 * cycles + 100 * centuries + 4 * groups + years) / 100 = 4 * cycles + centuries
      ∧ (400 * cycles + 100 * centuries + 4 * groups + years) / 400 = cycles := by
  refine ⟨?_, ?_, ?_⟩ <;> omega

/-- Those of the next year, whose last parts may add up to one more multiple. -/
theorem nextYear_quotients (cycles centuries groups years : Int)
    : (400 * cycles + 100 * centuries + 4 * groups + years + 1) / 4
        = 100 * cycles + 25 * centuries + groups + (years + 1) / 4
      ∧ (400 * cycles + 100 * centuries + 4 * groups + years + 1) / 100
        = 4 * cycles + centuries + (4 * groups + years + 1) / 100
      ∧ (400 * cycles + 100 * centuries + 4 * groups + years + 1) / 400
        = cycles + (100 * centuries + 4 * groups + years + 1) / 400 := by
  refine ⟨?_, ?_, ?_⟩ <;> omega

/-- A day lies in its decoded year, by the lengths of cycles, centuries and leap groups. -/
theorem yearOf_spec (day : Int)
    : daysBeforeYear (yearOf day) ≤ day ∧ day < daysBeforeYear (yearOf day + 1) := by
  have hcycle := Int.emod_nonneg day (b := 146097) (by decide)
  have hcycle' := Int.emod_lt_of_pos day (b := 146097) (by decide)
  have hday := Int.mul_ediv_add_emod day 146097
  simp only [daysBeforeYear, yearOf]
  generalize day % 146097 = inCycle at *
  generalize day / 146097 = cycles at *
  generalize hc : min (inCycle / 36524) 3 = centuries
  generalize hg : (inCycle - 36524 * centuries) / 1461 = groups
  generalize hy : min ((inCycle - 36524 * centuries - 1461 * groups) / 365) 3 = years
  have centuryRange : 0 ≤ centuries ∧ centuries ≤ 3 := by omega
  have groupRange : 0 ≤ groups ∧ groups ≤ 24 := by omega
  have yearRange : 0 ≤ years ∧ years ≤ 3 := by omega
  obtain ⟨byFour, byHundred, byCycle⟩ := year_quotients cycles centuryRange groupRange yearRange
  obtain ⟨nextFour, nextHundred, nextCycle⟩ := nextYear_quotients cycles centuries groups years
  simp only [Int.add_sub_cancel, byFour, byHundred, byCycle, nextFour, nextHundred, nextCycle]
  constructor
  · omega
  -- only the fourth year of a group, and at a century's end only the fourth century,
  -- has a leap day for its last day
  · by_cases fourthYear : years = 3
    · by_cases lastGroup : groups = 24
      · by_cases fourthCentury : centuries = 3
        · have leapCentury : (100 * centuries + 4 * groups + years + 1) / 400 = 1 := by omega
          omega
        · have plainCentury : inCycle - 36524 * centuries < 36524 := by omega
          omega
      · have inside : (4 * groups + years + 1) / 100 = 0 := by omega
        omega
    · have early : (years + 1) / 4 = 0 := by omega
      have inside : (4 * groups + years + 1) / 100 = 0 := by omega
      omega

/-- A day belongs to one year only, since years start in order. -/
theorem yearOf_eq {day year : Int} (lower : daysBeforeYear year ≤ day)
    (upper : day < daysBeforeYear (year + 1))
    : yearOf day = year := by
  obtain ⟨h₁, h₂⟩ := yearOf_spec day
  have left := daysBeforeYear_lt.mp (lt_of_le_of_lt h₁ upper)
  have right := daysBeforeYear_lt.mp (lt_of_le_of_lt lower h₂)
  omega

-----------------------------------------------------------------------------------------
-- Months
-----------------------------------------------------------------------------------------

/-- Days from 1 January to the first of a month; month 13 gives the length of the year. From
March on, months come in blocks of five that have 153 days together.
-/
def daysBeforeMonth (leapDay month : Int) : Int :=
  if month ≤ 2 then 31 * (month - 1)
  else 59 + leapDay + (153 * (month - 3) + 2) / 5

/-- The month in which a day of the year falls. -/
def monthOfYearDay (leapDay yearDay : Int) : Int :=
  if yearDay < 59 + leapDay then yearDay / 31 + 1
  else (5 * (yearDay - 59 - leapDay) + 2) / 153 + 3

/-- Decoded months run from 1 to 12. -/
theorem monthOfYearDay_range {leapDay yearDay : Int} (leap : 0 ≤ leapDay ∧ leapDay ≤ 1)
    (inYear : 0 ≤ yearDay ∧ yearDay < 365 + leapDay)
    : 1 ≤ monthOfYearDay leapDay yearDay ∧ monthOfYearDay leapDay yearDay ≤ 12 := by
  unfold monthOfYearDay
  split <;> omega

/-- A day of the year lies between the starts of its month and of the next, before and
after the end of February.
-/
theorem monthOfYearDay_spec {leapDay yearDay : Int} (leap : 0 ≤ leapDay ∧ leapDay ≤ 1)
    (inYear : 0 ≤ yearDay ∧ yearDay < 365 + leapDay)
    : daysBeforeMonth leapDay (monthOfYearDay leapDay yearDay) ≤ yearDay
      ∧ yearDay < daysBeforeMonth leapDay (monthOfYearDay leapDay yearDay + 1) := by
  unfold monthOfYearDay daysBeforeMonth
  by_cases early : yearDay < 59 + leapDay
  · simp only [if_pos early]
    split <;> split <;> omega
  · simp only [if_neg early]
    split <;> split <;> omega

/-- Months start in order. -/
theorem daysBeforeMonth_mono {leapDay m n : Int} (leap : 0 ≤ leapDay ∧ leapDay ≤ 1)
    (h : m ≤ n)
    : daysBeforeMonth leapDay m ≤ daysBeforeMonth leapDay n := by
  unfold daysBeforeMonth
  split <;> split <;> omega

/-- A day of the year belongs to one month only, since months start in order. -/
theorem monthOfYearDay_eq {leapDay yearDay month : Int} (leap : 0 ≤ leapDay ∧ leapDay ≤ 1)
    (inYear : 0 ≤ yearDay ∧ yearDay < 365 + leapDay)
    (lower : daysBeforeMonth leapDay month ≤ yearDay)
    (upper : yearDay < daysBeforeMonth leapDay (month + 1))
    : monthOfYearDay leapDay yearDay = month := by
  obtain ⟨h₁, h₂⟩ := monthOfYearDay_spec leap inYear
  by_contra different
  rcases lt_or_gt_of_ne different with before | after
  · have := daysBeforeMonth_mono leap
      (show monthOfYearDay leapDay yearDay + 1 ≤ month by omega)
    omega
  · have := daysBeforeMonth_mono leap
      (show month + 1 ≤ monthOfYearDay leapDay yearDay by omega)
    omega

-----------------------------------------------------------------------------------------
-- Dates
-----------------------------------------------------------------------------------------

/-- The zero-based day of the year. -/
def yearDay (day : Int) : Int := day - daysBeforeYear (yearOf day)

/-- The month of a day number, 1 to 12. -/
def monthOf (day : Int) : Int := monthOfYearDay (leapDay (yearOf day)) (yearDay day)

/-- The day of the month of a day number, from 1. -/
def dayOf (day : Int) : Int :=
  yearDay day - daysBeforeMonth (leapDay (yearOf day)) (monthOf day) + 1

/-- The day of the week, 0 for Sunday to 6 for Saturday; day 0 is a Monday. -/
def weekdayOf (day : Int) : Int := (day + 1) % 7

/-- The day number of a date. Months outside 1 to 12 carry into the year, days outside the
month carry into the neighbouring months.
-/
def dayNumber (year month day : Int) : Int :=
  let carried := year + (month - 1) / 12
  daysBeforeYear carried
    + daysBeforeMonth (leapDay carried) ((month - 1) % 12 + 1) + (day - 1)

/-- The day of the year stays below the year's length. -/
theorem yearDay_range (day : Int)
    : 0 ≤ yearDay day ∧ yearDay day < 365 + leapDay (yearOf day) := by
  obtain ⟨h₁, h₂⟩ := yearOf_spec day
  rw [daysBeforeYear_succ] at h₂
  unfold yearDay
  omega

theorem monthOf_range (day : Int) : 1 ≤ monthOf day ∧ monthOf day ≤ 12 :=
  monthOfYearDay_range (leapDay_bounds _) (yearDay_range day)

/-- The day of the month lies within its month. -/
theorem monthOf_spec (day : Int)
    : daysBeforeMonth (leapDay (yearOf day)) (monthOf day) ≤ yearDay day
      ∧ yearDay day < daysBeforeMonth (leapDay (yearOf day)) (monthOf day + 1) :=
  monthOfYearDay_spec (leapDay_bounds _) (yearDay_range day)

/-- Encoding a decoded date moved by some days moves the day number by as many. -/
theorem dayNumber_add (day shift : Int)
    : dayNumber (yearOf day) (monthOf day) (dayOf day + shift) = day + shift := by
  have range := monthOf_range day
  have carry : (monthOf day - 1) / 12 = 0 := by omega
  have month : (monthOf day - 1) % 12 + 1 = monthOf day := by omega
  simp only [dayNumber, carry, month, Int.add_zero, dayOf, yearDay]
  omega

/-- The first day of the month after the month of `day`. -/
def nextMonthStart (day : Int) : Int := dayNumber (yearOf day) (monthOf day + 1) 1

/-- The next month starts where the table ends the month of `day`; December carries into
the next year.
-/
theorem nextMonthStart_eq (day : Int)
    : nextMonthStart day
      = daysBeforeYear (yearOf day)
        + daysBeforeMonth (leapDay (yearOf day)) (monthOf day + 1) := by
  have range := monthOf_range day
  unfold nextMonthStart dayNumber
  by_cases december : monthOf day = 12
  · have carry : (monthOf day + 1 - 1) / 12 = 1 := by omega
    have month : (monthOf day + 1 - 1) % 12 + 1 = 1 := by omega
    simp only [carry, month, daysBeforeYear_succ]
    simp [december, daysBeforeMonth]
    omega
  · have carry : (monthOf day + 1 - 1) / 12 = 0 := by omega
    have month : (monthOf day + 1 - 1) % 12 + 1 = monthOf day + 1 := by omega
    simp only [carry, month, Int.add_zero]
    omega

theorem lt_nextMonthStart (day : Int) : day < nextMonthStart day := by
  have h := (monthOf_spec day).2
  rw [nextMonthStart_eq]
  unfold yearDay at h
  omega

/-- The days up to the next month's start are in the same month: they keep the year, and
the month table decodes them alike.
-/
theorem monthOf_before_nextMonthStart {day later : Int} (le : day ≤ later)
    (lt : later < nextMonthStart day)
    : monthOf later = monthOf day := by
  have leap := leapDay_bounds (yearOf day)
  obtain ⟨inYear, _⟩ := yearOf_spec day
  obtain ⟨inMonth, _⟩ := monthOf_spec day
  rw [nextMonthStart_eq] at lt
  have yearEnd : daysBeforeMonth (leapDay (yearOf day)) (monthOf day + 1)
      ≤ 365 + leapDay (yearOf day) := by
    have range := monthOf_range day
    have mono := daysBeforeMonth_mono leap (show monthOf day + 1 ≤ 13 by omega)
    have last : daysBeforeMonth (leapDay (yearOf day)) 13 = 365 + leapDay (yearOf day) := by
      simp only [daysBeforeMonth]
      omega
    omega
  have sameYear : yearOf later = yearOf day := by
    apply yearOf_eq (by omega)
    rw [daysBeforeYear_succ]
    omega
  have sameStart : yearDay later = later - daysBeforeYear (yearOf day) := by
    rw [yearDay, sameYear]
  have start : yearDay day = day - daysBeforeYear (yearOf day) := rfl
  conv_lhs => rw [monthOf, sameYear]
  exact monthOfYearDay_eq leap (by omega) (by omega) (by omega)

-----------------------------------------------------------------------------------------
-- The 400-year cycle
-----------------------------------------------------------------------------------------

theorem yearOf_add_cycle (day : Int) : yearOf (day + cycleDays) = yearOf day + 400 := by
  simp only [yearOf, cycleDays]
  have quotient : (day + 146097) / 146097 = day / 146097 + 1 := by omega
  have remainder : (day + 146097) % 146097 = day % 146097 := by omega
  rw [quotient, remainder]
  omega

theorem leapDay_add_cycle (year : Int) : leapDay (year + 400) = leapDay year := by
  have four : (year + 400) % 4 = year % 4 := by omega
  have hundred : (year + 400) % 100 = year % 100 := by omega
  have cycle : (year + 400) % 400 = year % 400 := by omega
  have same : leap (year + 400) = true ↔ leap year = true := by
    simp only [leap, Bool.and_eq_true, Bool.or_eq_true, decide_eq_true_eq, four, hundred, cycle]
  simp only [leapDay, same]

theorem yearDay_add_cycle (day : Int) : yearDay (day + cycleDays) = yearDay day := by
  unfold yearDay
  rw [yearOf_add_cycle]
  simp only [daysBeforeYear, cycleDays]
  omega

/-- Months repeat every 400 years, since leap years and the days of the year do. -/
theorem monthOf_add_cycle (day : Int) : monthOf (day + cycleDays) = monthOf day := by
  simp only [monthOf, yearOf_add_cycle, leapDay_add_cycle, yearDay_add_cycle]

/-- Days of the month repeat every 400 years. -/
theorem dayOf_add_cycle (day : Int) : dayOf (day + cycleDays) = dayOf day := by
  simp only [dayOf, monthOf_add_cycle, yearOf_add_cycle, leapDay_add_cycle,
    yearDay_add_cycle]

/-- Weekdays repeat every 400 years, which are 20871 whole weeks. -/
theorem weekdayOf_add_cycle (day : Int) : weekdayOf (day + cycleDays) = weekdayOf day := by
  simp only [weekdayOf, cycleDays]
  omega

/-- A property of dates that repeats every cycle and holds on some day holds on a day of
the cycle after any given day.
-/
theorem exists_in_cycle {P : Int → Prop} (periodic : ∀ day, P (day + cycleDays) ↔ P day)
    {day : Int} (holds : P day) (after : Int)
    : ∃ again, after < again ∧ again ≤ after + cycleDays ∧ P again := by
  have shift (n : Nat) : ∀ d, P (d + n * cycleDays) ↔ P d := by
    induction n with
    | zero => simp
    | succ n ih =>
        intro d
        have split : d + (n + 1 : Nat) * cycleDays = d + n * cycleDays + cycleDays := by
          push_cast; ring
        rw [split, periodic, ih]
  have shiftInt (n d : Int) : P (d + n * cycleDays) ↔ P d := by
    obtain ⟨k, rfl | rfl⟩ := Int.eq_nat_or_neg n
    · exact shift k d
    · have back := shift k (d + -(k : Int) * cycleDays)
      rw [← back]
      ring_nf
  refine ⟨day + -((day - after - 1) / cycleDays) * cycleDays, ?_, ?_, ?_⟩
  · unfold cycleDays; omega
  · unfold cycleDays; omega
  · exact (shiftInt _ _).mpr holds

-----------------------------------------------------------------------------------------
-- Dates that fall on the same weekday again
-----------------------------------------------------------------------------------------

/-- Years that start a whole number of days apart and have the same leap day have the same
months.
-/
theorem fields_add {day years days : Int}
    (start : daysBeforeYear (yearOf day + years) = daysBeforeYear (yearOf day) + days)
    (sameLeap : leapDay (yearOf day + years) = leapDay (yearOf day))
    : yearOf (day + days) = yearOf day + years ∧ monthOf (day + days) = monthOf day
      ∧ dayOf (day + days) = dayOf day := by
  have range := yearDay_range day
  have year : yearOf (day + days) = yearOf day + years := by
    unfold yearDay at range
    apply yearOf_eq
    · omega
    · rw [daysBeforeYear_succ]
      omega
  have inYear : yearDay (day + days) = yearDay day := by
    rw [yearDay, year, start, yearDay]
    omega
  have month : monthOf (day + days) = monthOf day := by
    rw [monthOf, year, sameLeap, inYear, monthOf]
  exact ⟨year, month, by rw [dayOf, year, sameLeap, inYear, month, dayOf]⟩

/-- Some year at most 40 years later has the same calendar: 28 years later, or 40 where a
century without a leap day comes between; such a century itself is followed by one after 6.
-/
theorem exists_year_alike (year : Int)
    : ∃ years days, 0 < days ∧ days ≤ 14609 ∧ days % 7 = 0
        ∧ daysBeforeYear (year + years) = daysBeforeYear year + days
        ∧ leapDay (year + years) = leapDay year := by
  have leapCases (y : Int)
      : leapDay y = if y % 4 = 0 ∧ (y % 100 ≠ 0 ∨ y % 400 = 0) then 1 else 0 := by
    simp [leapDay, leap]
  simp only [leapCases, daysBeforeYear]
  by_cases century : year % 100 = 0 ∧ year % 400 ≠ 0
  · refine ⟨6, 2191, by omega, by omega, by omega, by omega, ?_⟩
    split <;> split <;> omega
  · by_cases near : (year + 28 - 1) / 100 - (year + 28 - 1) / 400
          = (year - 1) / 100 - (year - 1) / 400
        ∧ ¬ ((year + 28) % 100 = 0 ∧ (year + 28) % 400 ≠ 0)
    · refine ⟨28, 10227, by omega, by omega, by omega, by omega, ?_⟩
      split <;> split <;> omega
    · refine ⟨40, 14609, by omega, by omega, by omega, by omega, ?_⟩
      split <;> split <;> omega

/-- A property of the month, the day of the month and the weekday that holds on some day
holds again within 40 years of any given day.
-/
theorem exists_within_forty_years {P : Int → Prop}
    (dates : ∀ day day', monthOf day' = monthOf day → dayOf day' = dayOf day →
      weekdayOf day' = weekdayOf day → P day → P day')
    {day : Int} (holds : P day) (after : Int)
    : ∃ again, after < again ∧ again ≤ after + 14609 ∧ P again := by
  have periodic (d : Int) : P (d + cycleDays) ↔ P d := by
    have month := monthOf_add_cycle d
    have date := dayOf_add_cycle d
    have weekday := weekdayOf_add_cycle d
    exact ⟨dates _ _ month.symm date.symm weekday.symm, dates _ _ month date weekday⟩
  obtain ⟨earlier, -, notAfter, holdsEarlier⟩ := exists_in_cycle periodic holds (after - cycleDays)
  obtain ⟨last, ⟨before, holdsLast⟩, greatest⟩ := Int.exists_greatest_of_bdd
    (P := fun d => d ≤ after ∧ P d) ⟨after, fun _ h => h.1⟩
    ⟨earlier, by omega, holdsEarlier⟩
  obtain ⟨years, days, positive, soon, weeks, start, sameLeap⟩ := exists_year_alike (yearOf last)
  obtain ⟨-, month, date⟩ := fields_add start sameLeap
  have weekday : weekdayOf (last + days) = weekdayOf last := by
    simp only [weekdayOf]
    omega
  have holdsAgain := dates _ _ month date weekday holdsLast
  refine ⟨last + days, ?_, by omega, holdsAgain⟩
  by_contra notLater
  have := greatest (last + days) ⟨by omega, holdsAgain⟩
  omega

/-- 29 February 2000 was a Tuesday, and the day after it was 1 March. -/
example : (yearOf 730178, monthOf 730178, dayOf 730178, weekdayOf 730178) = (2000, 2, 29, 2)
    ∧ monthOf 730179 = 3 := by decide

end GregorianCalendar
