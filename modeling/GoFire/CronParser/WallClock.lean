import GoFire.CronParser.NextRun

/-! The search loop read on the local wall clock of a zone with a fixed offset.
A whole minute is counted from local midnight of 1 January of year 1, so days are blocks of
1440 minutes and the offset only shows in where a truncation to 24 hours lands.
-/

namespace GoFire.CronParser

open GoFire.GoTime (Time fixedZone)
open BoundedSearch GregorianCalendar

/-- The instant at which clocks `offset` minutes ahead of UTC show the given whole minute. -/
def atWall (offset x : Int) : Time := ⟨(x - offset) * GoTime.minute, fixedZone (60 * offset)⟩

/-- The last whole minute not after `x` at which it is midnight in UTC. -/
def alignDay (offset x : Int) : Int := x - (x - offset) % 1440

def CronExpr.DayMatches (c : CronExpr) (day : Int) : Prop :=
  monthOf day ∈ c.month ∧ dayOf day ∈ c.dayOfMonth ∧ weekdayOf day ∈ c.dayOfWeek

def CronExpr.TimeMatches (c : CronExpr) (minute : Int) : Prop :=
  minute / 60 ∈ c.hour ∧ minute % 60 ∈ c.minute

instance (c : CronExpr) (day : Int) : Decidable (c.DayMatches day) :=
  inferInstanceAs (Decidable (_ ∧ _ ∧ _))

instance (c : CronExpr) (minute : Int) : Decidable (c.TimeMatches minute) :=
  inferInstanceAs (Decidable (_ ∧ _))

/-- A pass of the loop on wall-clock minutes. -/
def CronExpr.wallPass (c : CronExpr) (offset x : Int) : Pass Int :=
  if monthOf (x / 1440) ∉ c.month then
    .skip (alignDay offset (nextMonthStart (x / 1440) * 1440 + x % 1440))
  else if dayOf (x / 1440) ∉ c.dayOfMonth ∨ weekdayOf (x / 1440) ∉ c.dayOfWeek then
    .skip (alignDay offset (x + 1440))
  else if x % 1440 / 60 ∉ c.hour then .skip (x + (60 - x % 60))
  else if x % 60 ∈ c.minute then .found
  else .skip (x + 1)

-----------------------------------------------------------------------------------------
-- The loop in a fixed zone is the loop on wall-clock minutes
-----------------------------------------------------------------------------------------

section Fields

variable (offset x : Int)

theorem atWall_wall : (atWall offset x).wall = x * GoTime.minute := by
  simp only [atWall, Time.wall_fixedZone, GoTime.minute]
  ring

theorem atWall_localDay : (atWall offset x).localDay = x / 1440 := by
  simp only [Time.localDay, atWall_wall, GoTime.minute, GoTime.second, GoTime.day, GoTime.hour]
  omega

theorem atWall_clock : (atWall offset x).clock = x % 1440 * GoTime.minute := by
  simp only [Time.clock, atWall_wall, GoTime.minute, GoTime.second, GoTime.day, GoTime.hour]
  omega

theorem atWall_hour : (atWall offset x).hour = x % 1440 / 60 := by
  simp only [Time.hour, atWall_wall, GoTime.minute, GoTime.second, GoTime.day, GoTime.hour]
  omega

theorem atWall_minute : (atWall offset x).minute = x % 60 := by
  simp only [Time.minute, atWall_wall, GoTime.minute, GoTime.second, GoTime.hour]
  omega

theorem atWall_month : (atWall offset x).month = monthOf (x / 1440) := by
  rw [Time.month, atWall_localDay]

theorem atWall_day : (atWall offset x).day = dayOf (x / 1440) := by
  rw [Time.day, atWall_localDay]

theorem atWall_weekday : (atWall offset x).weekday = weekdayOf (x / 1440) := by
  rw [Time.weekday, atWall_localDay]

theorem atWall_add (minutes : Int)
    : (atWall offset x).add (minutes * GoTime.minute) = atWall offset (x + minutes) := by
  simp only [atWall, Time.add, Time.mk.injEq, and_true]
  ring

theorem atWall_truncate_day
    : (atWall offset x).truncate (24 * GoTime.hour) = atWall offset (alignDay offset x) := by
  simp only [atWall, Time.truncate, alignDay, GoTime.minute, GoTime.second, GoTime.hour,
    Time.mk.injEq, and_true]
  omega

/-- Moving the date keeps the clock and lands on the encoded day. -/
theorem atWall_addDate (months days : Int)
    : (atWall offset x).addDate 0 months days
      = atWall offset (dayNumber (yearOf (x / 1440)) (monthOf (x / 1440) + months)
          (dayOf (x / 1440) + days) * 1440 + x % 1440) := by
  have zone : (atWall offset x).loc = fixedZone (60 * offset) := rfl
  rw [Time.addDate, zone, Time.ofWall_fixedZone, atWall_month, atWall_day, atWall_clock,
    Time.year, atWall_localDay, Int.add_zero]
  simp only [atWall, GoTime.minute, GoTime.second, GoTime.day, GoTime.hour, Time.mk.injEq,
    and_true]
  ring

theorem atWall_nextMonth
    : (atWall offset x).addDate 0 1 (-(atWall offset x).day + 1)
      = atWall offset (nextMonthStart (x / 1440) * 1440 + x % 1440) := by
  rw [atWall_addDate, atWall_day]
  have first : dayOf (x / 1440) + (-dayOf (x / 1440) + 1) = 1 := by ring
  rw [first, nextMonthStart]

theorem atWall_nextDay : (atWall offset x).addDate 0 0 1 = atWall offset (x + 1440) := by
  rw [atWall_addDate, Int.add_zero, dayNumber_add]
  congr 1
  omega

end Fields

/-- A pass in a fixed zone is the pass on its wall-clock minutes, branch by branch. -/
theorem CronExpr.pass_atWall {c : CronExpr} (sorted : c.Sorted) (offset x : Int)
    : c.pass (atWall offset x) = (c.wallPass offset x).map (atWall offset) := by
  have month := contains_iff sorted.month (monthOf (x / 1440))
  have day := contains_iff sorted.dayOfMonth (dayOf (x / 1440))
  have weekday := contains_iff sorted.dayOfWeek (weekdayOf (x / 1440))
  have hour := contains_iff sorted.hour (x % 1440 / 60)
  have minute := contains_iff sorted.minute (x % 60)
  have toNextHour : GoTime.hour - x % 60 * GoTime.minute = (60 - x % 60) * GoTime.minute := by
    simp only [GoTime.hour]
    ring
  have toNextMinute : GoTime.minute = 1 * GoTime.minute := by ring
  rw [CronExpr.pass, CronExpr.wallPass, atWall_nextMonth, atWall_nextDay, atWall_truncate_day,
    atWall_truncate_day, atWall_month, atWall_day, atWall_weekday, atWall_hour, atWall_minute,
    toNextHour, atWall_add]
  simp only [Bool.not_eq_true', ← Bool.not_eq_true, Bool.or_eq_true, month, day, weekday, hour,
    minute]
  split
  · rfl
  split
  · rfl
  split
  · rfl
  split
  · rfl
  · rw [toNextMinute, atWall_add]
    rfl

/-- The whole search in a fixed zone runs on wall-clock minutes. -/
theorem CronExpr.search_atWall {c : CronExpr} (sorted : c.Sorted) (offset : Int) (fuel : Nat)
    (x : Int)
    : search c.pass fuel (atWall offset x)
      = (search (c.wallPass offset) fuel x).map (atWall offset) :=
  search_map (fun x => c.pass_atWall sorted offset x) fuel x

end GoFire.CronParser
