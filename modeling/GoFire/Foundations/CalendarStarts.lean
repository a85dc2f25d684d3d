import GoFire.Foundations.GregorianCalendar

/-! The first days of weeks, months and years, as the least days of their kind after a day. -/

namespace GregorianCalendar

theorem dayOf_range (day : Int) : 1 ≤ dayOf day ∧ dayOf day ≤ 31 := by
  have leap := leapDay_bounds (yearOf day)
  have range := monthOf_range day
  obtain ⟨first, last⟩ := monthOf_spec day
  have length : daysBeforeMonth (leapDay (yearOf day)) (monthOf day + 1)
      ≤ daysBeforeMonth (leapDay (yearOf day)) (monthOf day) + 31 := by
    unfold daysBeforeMonth
    split <;> split <;> omega
  unfold dayOf
  omega

-----------------------------------------------------------------------------------------
-- Weeks
-----------------------------------------------------------------------------------------

/-- The next Sunday. -/
theorem isLeast_nextSunday (today : Int)
    : IsLeast {day | today < day ∧ weekdayOf day = 0} (today + 7 - weekdayOf today) := by
  simp only [weekdayOf]
  refine ⟨⟨by omega, by omega⟩, ?_⟩
  intro day h
  obtain ⟨later, sunday⟩ := h
  omega

-----------------------------------------------------------------------------------------
-- Years
-----------------------------------------------------------------------------------------

/-- The first of January is the day of the year with number zero. -/
theorem firstOfYear_iff (day : Int) : monthOf day = 1 ∧ dayOf day = 1 ↔ yearDay day = 0 := by
  have leap := leapDay_bounds (yearOf day)
  have range := yearDay_range day
  constructor
  · intro h
    obtain ⟨january, first⟩ := h
    rw [dayOf, january] at first
    simp only [daysBeforeMonth] at first
    omega
  · intro first
    have january : monthOf day = 1 := by
      rw [monthOf, first, monthOfYearDay, if_pos (by omega)]
      rfl
    refine ⟨january, ?_⟩
    rw [dayOf, january, first]
    rfl

theorem yearDay_daysBeforeYear (year : Int) : yearDay (daysBeforeYear year) = 0 := by
  have decoded : yearOf (daysBeforeYear year) = year :=
    yearOf_eq le_rfl (daysBeforeYear_lt.mpr (lt_add_one year))
  rw [yearDay, decoded, sub_self]

/-- The first day of the next year. -/
theorem isLeast_nextYear (today : Int)
    : IsLeast {day | today < day ∧ monthOf day = 1 ∧ dayOf day = 1}
        (daysBeforeYear (yearOf today + 1)) := by
  refine ⟨⟨(yearOf_spec today).2, (firstOfYear_iff _).mpr (yearDay_daysBeforeYear _)⟩, ?_⟩
  intro day h
  obtain ⟨later, first⟩ := h
  have start : daysBeforeYear (yearOf day) = day := by
    have zero := (firstOfYear_iff day).mp first
    rw [yearDay] at zero
    omega
  have after : daysBeforeYear (yearOf today) < daysBeforeYear (yearOf day) := by
    have := (yearOf_spec today).1
    omega
  have years := daysBeforeYear_lt.mp after
  rw [← start]
  rcases (Int.add_one_le_of_lt years).eq_or_lt with same | earlier
  · rw [same]
  · exact (daysBeforeYear_lt.mpr earlier).le

-----------------------------------------------------------------------------------------
-- Months
-----------------------------------------------------------------------------------------

theorem daysBeforeMonth_lt {leapDay month : Int} (leap : 0 ≤ leapDay ∧ leapDay ≤ 1)
    : daysBeforeMonth leapDay month < daysBeforeMonth leapDay (month + 1) := by
  unfold daysBeforeMonth
  split <;> split <;> omega

theorem daysBeforeMonth_yearEnd (leapDay : Int) : daysBeforeMonth leapDay 13 = 365 + leapDay := by
  simp only [daysBeforeMonth]
  omega

theorem nextMonthStart_le_nextYear (day : Int)
    : nextMonthStart day ≤ daysBeforeYear (yearOf day + 1) := by
  have range := monthOf_range day
  have last := daysBeforeMonth_mono (leapDay_bounds (yearOf day))
    (show monthOf day + 1 ≤ 13 by omega)
  rw [daysBeforeMonth_yearEnd] at last
  rw [nextMonthStart_eq, daysBeforeYear_succ]
  omega

/-- Until the next month starts, days of the month count on. -/
theorem dayOf_before_nextMonthStart {day later : Int} (le : day ≤ later)
    (lt : later < nextMonthStart day)
    : dayOf later = dayOf day + (later - day) := by
  have month := monthOf_before_nextMonthStart le lt
  have sameYear : yearOf later = yearOf day :=
    yearOf_eq ((yearOf_spec day).1.trans le) (lt.trans_le (nextMonthStart_le_nextYear day))
  rw [dayOf, dayOf, month, sameYear, yearDay, yearDay, sameYear]
  omega

/-- The next month starts with its first day, in the same year or after December. -/
theorem dayOf_nextMonthStart (day : Int) : dayOf (nextMonthStart day) = 1 := by
  have leap := leapDay_bounds (yearOf day)
  have range := monthOf_range day
  by_cases december : monthOf day = 12
  · have start : nextMonthStart day = daysBeforeYear (yearOf day + 1) := by
      have last := daysBeforeMonth_yearEnd (leapDay (yearOf day))
      rw [nextMonthStart_eq, december, daysBeforeYear_succ, show (12 : Int) + 1 = 13 from rfl, last]
      omega
    rw [start]
    exact ((firstOfYear_iff _).mpr (yearDay_daysBeforeYear _)).2
  · have start := nextMonthStart_eq day
    have ordered : daysBeforeMonth (leapDay (yearOf day)) (monthOf day + 1)
        < daysBeforeMonth (leapDay (yearOf day)) (monthOf day + 1 + 1) := daysBeforeMonth_lt leap
    have january : daysBeforeMonth (leapDay (yearOf day)) 1 = 0 := rfl
    have first := daysBeforeMonth_mono leap (show 1 ≤ monthOf day + 1 by omega)
    have last := daysBeforeMonth_mono leap (show monthOf day + 1 + 1 ≤ 13 by omega)
    rw [daysBeforeMonth_yearEnd] at last
    have sameYear : yearOf (nextMonthStart day) = yearOf day := by
      refine yearOf_eq (by omega) ?_
      rw [daysBeforeYear_succ]
      omega
    have inYear : yearDay (nextMonthStart day)
        = daysBeforeMonth (leapDay (yearOf day)) (monthOf day + 1) := by
      rw [yearDay, sameYear]
      omega
    have month : monthOf (nextMonthStart day) = monthOf day + 1 := by
      rw [monthOf, sameYear, inYear]
      exact monthOfYearDay_eq leap (by omega) le_rfl ordered
    rw [dayOf, sameYear, month, inYear]
    omega

/-- The first day of the next month. -/
theorem isLeast_nextMonthStart (today : Int)
    : IsLeast {day | today < day ∧ dayOf day = 1} (nextMonthStart today) := by
  refine ⟨⟨lt_nextMonthStart today, dayOf_nextMonthStart today⟩, ?_⟩
  intro day h
  obtain ⟨later, first⟩ := h
  by_contra before
  have counted := dayOf_before_nextMonthStart later.le (lt_of_not_ge before)
  have := (dayOf_range today).1
  omega

end GregorianCalendar
