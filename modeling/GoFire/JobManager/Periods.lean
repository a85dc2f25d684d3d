import GoFire.CronParser.Int64Fields
import GoFire.CronParser.NextRunCorrectness
import GoFire.Foundations.CalendarStarts

/-! The expressions behind ScheduleEveryMinute to ScheduleEveryYear, and the instants at which they
run a job in UTC.
-/

namespace GoFire.JobManager

open GoFire.GoTime (Time utc)
open GoFire.CronParser GregorianCalendar

inductive Period where
  | minute
  | hour
  | day
  | week
  | month
  | year

namespace Period

def expression : Period → String
  | minute => "* * * * *"
  | hour => "0 * * * *"
  | day => "0 0 * * *"
  | week => "0 0 * * 0"
  | month => "0 0 1 * *"
  | year => "0 0 1 1 *"

/-- The first day of the next week, month or year; a week begins on Sunday. -/
def nextDay (period : Period) (today : Int) : Int :=
  match period with
  | week => today + 7 - weekdayOf today
  | month => nextMonthStart today
  | year => daysBeforeYear (yearOf today + 1)
  | _ => today + 1

/-- The beginning of the period after the one in which an instant lies. -/
def next (period : Period) (now : Int) : Int :=
  match period with
  | minute => (now / GoTime.minute + 1) * GoTime.minute
  | hour => (now / GoTime.hour + 1) * GoTime.hour
  | _ => period.nextDay (now / GoTime.day) * GoTime.day

-----------------------------------------------------------------------------------------
-- What the expressions accept
-----------------------------------------------------------------------------------------

/-- As many numbers from the first one on. -/
def numbers (first count : Nat) : List Int := (List.range' first count).map Int.ofNat

theorem mem_numbers {first count : Nat} {v : Int}
    : v ∈ numbers first count ↔ first ≤ v ∧ v < first + count := by
  rw [numbers, List.mem_map]
  constructor
  · intro h
    obtain ⟨n, mem, rfl⟩ := h
    rw [List.mem_range'_1] at mem
    simp only [Int.ofNat_eq_natCast]
    omega
  · intro h
    refine ⟨v.toNat, List.mem_range'_1.mpr (by omega), ?_⟩
    simp only [Int.ofNat_eq_natCast]
    omega

/-- The fields of the expression. -/
def cronExpr : Period → CronExpr
  | minute => ⟨numbers 0 60, numbers 0 24, numbers 1 31, numbers 1 12, numbers 0 7⟩
  | hour => ⟨[0], numbers 0 24, numbers 1 31, numbers 1 12, numbers 0 7⟩
  | day => ⟨[0], [0], numbers 1 31, numbers 1 12, numbers 0 7⟩
  | week => ⟨[0], [0], numbers 1 31, numbers 1 12, [0]⟩
  | month => ⟨[0], [0], [1], numbers 1 12, numbers 0 7⟩
  | year => ⟨[0], [0], [1], [1], numbers 0 7⟩

theorem accepted (period : Period) : parseCron int64 period.expression = .ok period.cronExpr := by
  cases period <;> decide +kernel

/-- The minutes between two beginnings on one day. -/
def minutes : Period → Int
  | minute => 1
  | hour => 60
  | _ => 1440

/-- The days on which some period begins. -/
def Begins (period : Period) (day : Int) : Prop :=
  match period with
  | week => weekdayOf day = 0
  | month => dayOf day = 1
  | year => monthOf day = 1 ∧ dayOf day = 1
  | _ => True

theorem dayMatches_iff (period : Period) (day : Int)
    : period.cronExpr.DayMatches day ↔ period.Begins day := by
  have anyMonth : monthOf day ∈ numbers 1 12 := by
    have := monthOf_range day
    rw [mem_numbers]
    omega
  have anyDate : dayOf day ∈ numbers 1 31 := by
    have := dayOf_range day
    rw [mem_numbers]
    omega
  have anyWeekday : weekdayOf day ∈ numbers 0 7 := by
    rw [mem_numbers, weekdayOf]
    omega
  cases period <;>
    simp [CronExpr.DayMatches, cronExpr, Begins, anyMonth, anyDate, anyWeekday]

theorem timeMatches_iff (period : Period) {minute : Int} (nonneg : 0 ≤ minute)
    (lt : minute < 1440)
    : period.cronExpr.TimeMatches minute ↔ minute % period.minutes = 0 := by
  have anyHour : minute / 60 ∈ numbers 0 24 := by
    rw [mem_numbers]
    omega
  have anyMinute : minute % 60 ∈ numbers 0 60 := by
    rw [mem_numbers]
    omega
  cases period with
  | minute => simp [CronExpr.TimeMatches, cronExpr, minutes, anyHour, anyMinute]
  | hour => simp [CronExpr.TimeMatches, cronExpr, minutes, anyHour]
  | _ =>
      simp only [CronExpr.TimeMatches, cronExpr, minutes, List.mem_singleton]
      omega

/-- The search stops at the beginnings of periods. -/
theorem found_iff (period : Period) (x : Int)
    : period.cronExpr.wallPass 0 x = .found
      ↔ x % period.minutes = 0 ∧ period.Begins (x / 1440) := by
  have within : x % 1440 % period.minutes = x % period.minutes := by
    cases period <;> simp only [minutes] <;> omega
  rw [wallPass_found, dayMatches_iff, timeMatches_iff period (by omega) (by omega), within]
  exact and_comm

-----------------------------------------------------------------------------------------
-- The next beginning
-----------------------------------------------------------------------------------------

theorem isLeast_nextDay (period : Period) (today : Int)
    : IsLeast {day | today < day ∧ period.Begins day} (period.nextDay today) := by
  cases period with
  | week => exact isLeast_nextSunday today
  | month => exact isLeast_nextMonthStart today
  | year => exact isLeast_nextYear today
  | minute | hour | day => exact ⟨⟨lt_add_one today, trivial⟩, fun _ h => Int.add_one_le_of_lt h.1⟩

/-- The next beginning counted in minutes. -/
def nextMinute (period : Period) (now : Int) : Int :=
  match period with
  | minute => now + 1
  | hour => (now / 60 + 1) * 60
  | _ => period.nextDay (now / 1440) * 1440

theorem nextMinute_eq (period : Period) (now : Int)
    : period.nextMinute (now / GoTime.minute) * GoTime.minute = period.next now := by
  have day : now / GoTime.minute / 1440 = now / GoTime.day := by
    simp only [GoTime.minute, GoTime.second, GoTime.day, GoTime.hour]
    omega
  cases period with
  | minute => rfl
  | hour =>
      simp only [nextMinute, next, GoTime.minute, GoTime.second, GoTime.hour]
      omega
  | _ =>
      simp only [nextMinute, next, day]
      simp only [GoTime.minute, GoTime.second, GoTime.day, GoTime.hour]
      omega

theorem isLeast_nextMinute (period : Period) (now : Int)
    : IsLeast {x | now + 1 ≤ x ∧ period.cronExpr.wallPass 0 x = .found}
        (period.nextMinute now) := by
  simp only [found_iff]
  have days := period.isLeast_nextDay (now / 1440)
  have ofDays (whole : period.minutes = 1440)
      : IsLeast {x | now + 1 ≤ x ∧ x % period.minutes = 0 ∧ period.Begins (x / 1440)}
          (period.nextDay (now / 1440) * 1440) := by
    have ofDay : period.nextDay (now / 1440) * 1440 / 1440 = period.nextDay (now / 1440) := by omega
    have later := days.1.1
    refine ⟨⟨by omega, whole ▸ Int.mul_emod_left _ _, ?_⟩, ?_⟩
    · rw [ofDay]
      exact days.1.2
    · intro x h
      obtain ⟨after, midnight, begins⟩ := h
      rw [whole] at midnight
      have := days.2 ⟨show now / 1440 < x / 1440 by omega, begins⟩
      omega
  cases period with
  | minute => exact ⟨⟨le_rfl, by simp [minutes], trivial⟩, fun _ h => h.1⟩
  | hour =>
      refine ⟨⟨by simp only [nextMinute]; omega, by simp [minutes, nextMinute], trivial⟩, ?_⟩
      intro x h
      obtain ⟨after, whole, -⟩ := h
      simp only [minutes, nextMinute] at whole ⊢
      omega
  | day | week | month | year => exact ofDays rfl

/-- From every instant in UTC the next run is the beginning of the next period. -/
theorem calculateNextRun_eq (period : Period) (now : Int)
    : calculateNextRun int64 period.expression ⟨now, utc⟩ = ⟨period.next now, utc⟩ := by
  have fits : period.cronExpr.DayMatches (period.nextDay 0) :=
    (period.dayMatches_iff _).mpr (period.isLeast_nextDay 0).1.2
  have midnight : period.cronExpr.TimeMatches 0 :=
    (period.timeMatches_iff le_rfl (by decide)).mpr (Int.zero_emod _)
  obtain ⟨goal, least, run⟩ :=
    exists_goal_utc period.accepted fits le_rfl (by decide) midnight now
  rw [Int.add_zero] at least
  rw [run, least.unique (period.isLeast_nextMinute _), nextMinute_eq]

end Period

end GoFire.JobManager
