import GoFire.CronParser.WallClock
import Mathlib.Data.Int.LeastGreatest

/-! What the loop skips and how many passes it needs. A jump over days lands at the hour at
which the days of UTC begin on the local clock, so an earlier time of day is only met on a day
that the loop enters by minutes and hours.
-/

namespace GoFire.CronParser

open BoundedSearch GregorianCalendar

variable {c : CronExpr} {offset : Int}

/-- What a jump from `x` to `next` tells: either no day before the landing day fits, or the
day fits and no time before `next` does.
-/
inductive CronExpr.Skips (c : CronExpr) (offset x next : Int) : Prop where
  | days (day : Int) (unfit : ∀ e, x / 1440 ≤ e → e < day → ¬ c.DayMatches e)
      (ahead : x / 1440 < day) (lands : next = alignDay offset (day * 1440 + x % 1440))
  | times (fits : c.DayMatches (x / 1440)) (ahead : x < next)
      (within : next ≤ (x / 1440 + 1) * 1440)
      (unfit : ∀ y, x ≤ y → y < next → ¬ c.TimeMatches (y % 1440))

theorem wallPass_found {x : Int}
    : c.wallPass offset x = .found ↔ c.DayMatches (x / 1440) ∧ c.TimeMatches (x % 1440) := by
  have minute : x % 1440 % 60 = x % 60 := by omega
  unfold CronExpr.wallPass CronExpr.DayMatches CronExpr.TimeMatches
  rw [minute]
  split
  · simp_all
  split
  · simp_all
    tauto
  split
  · simp_all
  split
  · simp_all
  · simp_all

/-- One case for each jump of the loop. -/
theorem wallPass_skip {x next : Int} (h : c.wallPass offset x = .skip next)
    : c.Skips offset x next := by
  unfold CronExpr.wallPass at h
  split at h
  case isTrue month =>
    cases h
    refine .days (nextMonthStart (x / 1440)) ?_ (lt_nextMonthStart _) rfl
    intro e le lt fits
    exact month (monthOf_before_nextMonthStart le lt ▸ fits.1)
  case isFalse month =>
    split at h
    case isTrue day =>
      cases h
      refine .days (x / 1440 + 1) ?_ (by omega) ?_
      · intro e le lt fits
        obtain rfl : e = x / 1440 := by omega
        exact day.elim (· fits.2.1) (· fits.2.2)
      · congr 1
        omega
    case isFalse day =>
      have fits : c.DayMatches (x / 1440) := by
        unfold CronExpr.DayMatches
        tauto
      split at h
      case isTrue hour =>
        cases h
        refine .times fits (by omega) (by omega) ?_
        intro y le lt accepted
        have same : y % 1440 / 60 = x % 1440 / 60 := by omega
        exact hour (same ▸ accepted.1)
      case isFalse hour =>
        split at h
        case isTrue => cases h
        case isFalse minute =>
          cases h
          refine .times fits (by omega) (by omega) ?_
          intro y le lt accepted
          obtain rfl : y = x := by omega
          have same : y % 1440 % 60 = y % 60 := by omega
          exact minute (same ▸ accepted.2)

/-- Where a jump over days lands: on the day found at the aligned time of day, or on the day
before it when that time lies later than the clock.
-/
theorem alignDay_lands (offset x day : Int)
    : (offset % 1440 ≤ x % 1440
        ∧ alignDay offset (day * 1440 + x % 1440) = day * 1440 + offset % 1440)
      ∨ (x % 1440 < offset % 1440
        ∧ alignDay offset (day * 1440 + x % 1440) = (day - 1) * 1440 + offset % 1440) := by
  unfold alignDay
  omega

theorem wallPass_forward (c : CronExpr) (offset : Int) : Forward (c.wallPass offset) := by
  intro x next h
  cases wallPass_skip h with
  | days day unfit ahead lands =>
      have := alignDay_lands offset x day
      omega
  | times fits ahead within unfit => exact ahead

/-- The loop at `x` meets `goal`: it comes late enough in its day for any landing, or no day
is jumped over on the way.
-/
def CronExpr.Meets (c : CronExpr) (offset goal x : Int) : Prop :=
  offset % 1440 ≤ goal % 1440 ∨ ∀ e, x / 1440 ≤ e → e ≤ goal / 1440 → c.DayMatches e

theorem wallPass_meets {goal x next : Int} (accepted : c.wallPass offset goal = .found)
    (le : x ≤ goal) (meets : c.Meets offset goal x) (h : c.wallPass offset x = .skip next)
    : next ≤ goal ∧ c.Meets offset goal next := by
  obtain ⟨day, time⟩ := wallPass_found.mp accepted
  have forward := wallPass_forward c offset x next h
  refine ⟨?_, meets.imp id fun all e lower => all e (by omega)⟩
  by_contra passed
  cases wallPass_skip h with
  | times fits ahead within unfit => exact unfit goal le (by omega) time
  | days landing unfit ahead lands =>
      have later : landing ≤ goal / 1440 := by
        by_contra earlier
        exact unfit _ (by omega) (by omega) day
      rcases meets with late | all
      · have := alignDay_lands offset x landing
        omega
      · exact unfit _ le_rfl ahead (all _ le_rfl (by omega))

-----------------------------------------------------------------------------------------
-- The cap is never reached while an accepted point exists
-----------------------------------------------------------------------------------------

/-- The passes still needed to reach `goal`: at most two for each day that does not fit, and
the minutes of the first and the last day.
-/
def CronExpr.passesLeft (c : CronExpr) (offset goal x : Int) : Int :=
  if x / 1440 = goal / 1440 then goal - x
  else if c.DayMatches (x / 1440) then
    1440 - x % 1440 + 2 * (goal / 1440 - x / 1440) + 1441
  else 2 * (goal / 1440 - x / 1440) + (if x % 1440 < offset % 1440 then 1 else 0) + 1440

theorem passesLeft_nonneg (c : CronExpr) (offset : Int) {goal x : Int} (le : x ≤ goal)
    : 0 ≤ c.passesLeft offset goal x := by
  unfold CronExpr.passesLeft
  split
  · omega
  · split <;> omega

/-- Every jump on the way to the least accepted point lowers the passes needed: a day that
fits is only met first, since on a later one the goal's time of day would come earlier.
-/
theorem passesLeft_drops {start goal x next : Int}
    (goalLeast : IsLeast {y | start ≤ y ∧ c.wallPass offset y = .found} goal)
    (after : start ≤ x) (le : x ≤ goal) (reach : next ≤ goal)
    (h : c.wallPass offset x = .skip next)
    : c.passesLeft offset goal next < c.passesLeft offset goal x := by
  obtain ⟨⟨_, accepted⟩, least⟩ := goalLeast
  obtain ⟨goalDay, goalTime⟩ := wallPass_found.mp accepted
  have between (day : Int) (later : x / 1440 < day) (earlier : day < goal / 1440)
      : ¬ c.DayMatches day := by
    intro fits
    have found : c.wallPass offset (day * 1440 + goal % 1440) = .found := by
      rw [wallPass_found]
      have whole : (day * 1440 + goal % 1440) / 1440 = day := by omega
      have time : (day * 1440 + goal % 1440) % 1440 = goal % 1440 := by omega
      rw [whole, time]
      exact ⟨fits, goalTime⟩
    have := least ⟨by omega, found⟩
    omega
  cases wallPass_skip h with
  | days day unfit ahead lands =>
      have notYet : ¬ c.DayMatches (x / 1440) := unfit _ le_rfl ahead
      have apart : x / 1440 ≠ goal / 1440 := fun same => notYet (same ▸ goalDay)
      have : day ≤ goal / 1440 := by
        by_contra beyond
        exact unfit _ (by omega) (by omega) goalDay
      simp only [CronExpr.passesLeft, apart, notYet, if_false]
      rcases alignDay_lands offset x day with ⟨early, landing⟩ | ⟨late, landing⟩
      · by_cases reached : next / 1440 = goal / 1440
        · simp only [reached, if_true]
          omega
        · have := between (next / 1440) (by omega) (by omega)
          simp only [reached, this, if_false]
          omega
      · have notGoal : next / 1440 ≠ goal / 1440 := by
          intro same
          exact unfit (next / 1440) (by omega) (by omega) (same ▸ goalDay)
        have := unfit (next / 1440) (by omega) (by omega)
        simp only [notGoal, this, if_false]
        omega
  | times fits ahead within unfit =>
      by_cases onGoal : x / 1440 = goal / 1440
      · have : next / 1440 = goal / 1440 := by omega
        simp only [CronExpr.passesLeft, onGoal, this, if_true]
        omega
      · simp only [CronExpr.passesLeft, onGoal, fits, if_false, if_true]
        by_cases reached : next / 1440 = goal / 1440
        · simp only [reached, if_true]
          omega
        · by_cases sameDay : next / 1440 = x / 1440
          · simp only [sameDay, onGoal, fits, if_false, if_true]
            omega
          · have := between (next / 1440) (by omega) (by omega)
            simp only [reached, this, if_false]
            omega

/-- Days that fit repeat every 400 years. -/
theorem dayMatches_add_cycle (c : CronExpr) (day : Int)
    : c.DayMatches (day + cycleDays) ↔ c.DayMatches day := by
  simp only [CronExpr.DayMatches, monthOf_add_cycle, dayOf_add_cycle, weekdayOf_add_cycle]

/-- Some accepted point lies less than 400 years and a day after any start, and then there
is a least one.
-/
theorem exists_least_found {day minute : Int} (fits : c.DayMatches day)
    (nonneg : 0 ≤ minute) (lt : minute < 1440) (time : c.TimeMatches minute)
    (offset start : Int)
    : ∃ goal, IsLeast {y | start ≤ y ∧ c.wallPass offset y = .found} goal
      ∧ goal / 1440 ≤ start / 1440 + cycleDays := by
  obtain ⟨again, later, soon, fitsAgain⟩ :=
    exists_in_cycle (dayMatches_add_cycle c) fits (start / 1440)
  have whole : (again * 1440 + minute) / 1440 = again := by omega
  have ofDay : (again * 1440 + minute) % 1440 = minute := by omega
  have found : c.wallPass offset (again * 1440 + minute) = .found := by
    rw [wallPass_found, whole, ofDay]
    exact ⟨fitsAgain, time⟩
  obtain ⟨goal, accepted, least⟩ := Int.exists_least_of_bdd
    (P := fun y => start ≤ y ∧ c.wallPass offset y = .found)
    ⟨start, fun _ h => h.1⟩ ⟨again * 1440 + minute, by omega, found⟩
  have := least _ ⟨by omega, found⟩
  exact ⟨goal, ⟨accepted, least⟩, by omega⟩

/-- When the loop meets the least accepted point, the capped search returns it. -/
theorem search_eq_least {start goal : Int}
    (goalLeast : IsLeast {y | start ≤ y ∧ c.wallPass offset y = .found} goal)
    (near : goal / 1440 ≤ start / 1440 + cycleDays) (meets : c.Meets offset goal start)
    : search (c.wallPass offset) 525600 start = some goal := by
  have enough : (c.passesLeft offset goal start).toNat < 525600 := by
    have := goalLeast.1.1
    unfold CronExpr.passesLeft
    unfold cycleDays at near
    split
    · omega
    · split <;> omega
  refine (wallPass_forward c offset).search_eq_least goalLeast (c.Meets offset goal)
    (fun x => (c.passesLeft offset goal x).toNat) ?_ meets enough
  intro x next after le meets h
  obtain ⟨reach, meets'⟩ := wallPass_meets goalLeast.1.2 le meets h
  have drops := passesLeft_drops goalLeast after le reach h
  have nonneg := passesLeft_nonneg c offset reach
  exact ⟨reach, meets', by omega⟩

theorem search_eq_none {start : Int}
    (empty : ∀ y, start ≤ y → c.wallPass offset y ≠ .found)
    : search (c.wallPass offset) 525600 start = none :=
  (wallPass_forward c offset).search_eq_none empty 525600

end GoFire.CronParser
