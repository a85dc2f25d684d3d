import GoFire.CronParser.NextRun

/-! When the passes of the search move forward in a location whose UTC offset changes. A jump
over days adds days to the local clock and rounds down to a whole day of UTC, which can take
back all of a day that the clocks have made shorter.
-/

namespace GoFire.CronParser

open GoFire.GoTime (Time Location)
open BoundedSearch GregorianCalendar

/-- The local reading at which AddDate puts the clock some days on. -/
def daysOn (t : Time) (days : Int) : Int := t.wall + days * GoTime.day

/-- By how many seconds the clocks have been put forward some days on. -/
def clocksGain (t : Time) (days : Int) : Int :=
  Time.wallOffset (daysOn t days) t.loc - (t.loc.lookup (t.ns / GoTime.second)).offset

/-- The days to the first of the next month. -/
def daysToNextMonth (t : Time) : Int := nextMonthStart t.localDay - t.localDay

/-- The clocks gain no more on the way than the time since midnight in UTC and the days jumped
over after the first.
-/
def GainFits (t : Time) (days : Int) : Prop :=
  clocksGain t days * GoTime.second ≤ t.ns % GoTime.day + (days - 1) * GoTime.day

instance (t : Time) (days : Int) : Decidable (GainFits t days) :=
  inferInstanceAs (Decidable (_ ≤ _))

/-- The clocks allow the jump over days that the pass makes, if it makes one. -/
def CronExpr.ClocksAllow (c : CronExpr) (t : Time) : Prop :=
  (t.month ∉ c.month → GainFits t (daysToNextMonth t))
  ∧ (t.month ∈ c.month → t.day ∉ c.dayOfMonth ∨ t.weekday ∉ c.dayOfWeek → GainFits t 1)

instance (c : CronExpr) (t : Time) : Decidable (c.ClocksAllow t) :=
  inferInstanceAs (Decidable (_ ∧ _))

-----------------------------------------------------------------------------------------
-- Jumps
-----------------------------------------------------------------------------------------

section Jumps

variable (t : Time)

theorem wall_eq : t.wall = t.localDay * GoTime.day + t.clock := by
  have split := Int.mul_ediv_add_emod t.wall GoTime.day
  rw [Time.localDay, Time.clock]
  linarith

/-- Moving the date by days moves the local clock by as many. -/
theorem addDate_days (days : Int) : t.addDate 0 0 days = Time.ofWall (daysOn t days) t.loc := by
  rw [Time.addDate, Int.add_zero, Int.add_zero, daysOn, wall_eq]
  have date : dayNumber t.year t.month (t.day + days) = t.localDay + days :=
    dayNumber_add t.localDay days
  rw [date]
  congr 1
  ring

theorem addDate_nextMonth
    : t.addDate 0 1 (-t.day + 1) = Time.ofWall (daysOn t (daysToNextMonth t)) t.loc := by
  have first : t.day + (-t.day + 1) = 1 := by ring
  have date : dayNumber t.year (t.month + 1) 1 = nextMonthStart t.localDay := rfl
  rw [Time.addDate, Int.add_zero, first, date, daysOn, daysToNextMonth, wall_eq]
  congr 1
  ring

/-- The instant a jump lands on: the days, less what the clocks gain, rounded down. -/
theorem jump_ns (days : Int)
    : ((Time.ofWall (daysOn t days) t.loc).truncate (24 * GoTime.hour)).ns
      = (t.ns + days * GoTime.day - clocksGain t days * GoTime.second) / GoTime.day
        * GoTime.day := by
  have landing : (Time.ofWall (daysOn t days) t.loc).ns
      = t.ns + days * GoTime.day - clocksGain t days * GoTime.second := by
    rw [Time.ofWall_eq]
    simp only [daysOn, clocksGain, Time.wall]
    ring
  have whole := Int.mul_ediv_add_emod (Time.ofWall (daysOn t days) t.loc).ns GoTime.day
  rw [← landing]
  simp only [Time.truncate, GoTime.day] at whole ⊢
  linarith

/-- A jump over days moves forward exactly when the clocks leave it a midnight to land on. -/
theorem jump_forward_iff (days : Int)
    : t.ns < ((Time.ofWall (daysOn t days) t.loc).truncate (24 * GoTime.hour)).ns
      ↔ GainFits t days := by
  rw [jump_ns, GainFits]
  generalize clocksGain t days * GoTime.second = gain
  simp only [GoTime.day, GoTime.hour, GoTime.minute, GoTime.second]
  omega

/-- The minutes to the next full hour are at least one. -/
theorem toNextHour_pos : 0 < GoTime.hour - t.minute * GoTime.minute := by
  simp only [Time.minute, GoTime.hour, GoTime.minute, GoTime.second]
  omega

end Jumps

/-- A pass that accepts nothing moves forward exactly when the clocks allow it. Jumps to the
next hour and to the next minute always do.
-/
theorem CronExpr.pass_forward_iff {c : CronExpr} (sorted : c.Sorted) (t : Time)
    : (∀ next, c.pass t = .skip next → t.ns < next.ns) ↔ c.ClocksAllow t := by
  have month := contains_iff sorted.month t.month
  have day := contains_iff sorted.dayOfMonth t.day
  have weekday := contains_iff sorted.dayOfWeek t.weekday
  unfold CronExpr.pass CronExpr.ClocksAllow
  simp only [Bool.not_eq_true', ← Bool.not_eq_true, Bool.or_eq_true, month, day, weekday]
  split
  case isTrue outside =>
    simp only [Pass.skip.injEq, forall_eq', addDate_nextMonth, jump_forward_iff, outside,
      not_false_eq_true, true_imp_iff, false_imp_iff, and_true]
  case isFalse inside =>
    have member : t.month ∈ c.month := not_not.mp inside
    split
    case isTrue unfit =>
      simp only [Pass.skip.injEq, forall_eq', addDate_days, jump_forward_iff, member, unfit,
        not_true_eq_false, true_imp_iff, false_imp_iff, true_and]
    case isFalse fits =>
      refine iff_of_true ?_ ⟨fun outside => absurd outside inside, fun _ unfit => absurd unfit fits⟩
      intro next skip
      split at skip
      case isTrue =>
        obtain rfl := Pass.skip.inj skip
        exact lt_add_of_pos_right _ (toNextHour_pos t)
      case isFalse =>
        split at skip
        case isTrue => cases skip
        case isFalse =>
          obtain rfl := Pass.skip.inj skip
          exact lt_add_of_pos_right _ (by decide)

/-- The instant at which the search for the next run begins. -/
def searchStart (start : Time) : Time := (start.add GoTime.minute).truncate GoTime.minute

/-- Every pass of the search that accepts nothing moves forward exactly when the clocks allow
every one of them; then the search comes to no instant twice.
-/
theorem search_advances_iff {arith : IntArith} {expr : String} {c : CronExpr}
    (accepted : parseCron arith expr = .ok c) (start : Time)
    : (Advances c.pass Time.ns 525600 (searchStart start)
        ↔ ∀ n < 525600, ∀ t, visited c.pass (searchStart start) n = some t → c.ClocksAllow t)
      ∧ (Advances c.pass Time.ns 525600 (searchStart start)
        → ∀ m n first second, m < n → n ≤ 525600
          → visited c.pass (searchStart start) m = some first
          → visited c.pass (searchStart start) n = some second → first.ns < second.ns) := by
  have sorted := parseCron_sorted accepted
  refine ⟨?_, fun advances m n first second later within before after =>
    advances.visited_lt later within before after⟩
  constructor
  · intro advances n lt t reached
    exact (c.pass_forward_iff sorted t).mp fun next skip => advances n lt t next reached skip
  · intro allowed n lt t next reached skip
    exact (c.pass_forward_iff sorted t).mpr (allowed n lt t reached) next skip

-----------------------------------------------------------------------------------------
-- Clocks that do not change
-----------------------------------------------------------------------------------------

theorem CronExpr.pass_loc {c : CronExpr} {t next : Time} (skip : c.pass t = .skip next)
    : next.loc = t.loc := by
  unfold CronExpr.pass at skip
  split at skip
  · exact (Pass.skip.inj skip) ▸ rfl
  · split at skip
    · exact (Pass.skip.inj skip) ▸ rfl
    · split at skip
      · exact (Pass.skip.inj skip) ▸ rfl
      · split at skip
        · cases skip
        · exact (Pass.skip.inj skip) ▸ rfl

/-- The next run is read on the clock that the search began with. -/
theorem calculateNextRun_loc (arith : IntArith) (expr : String) (start : Time)
    : (calculateNextRun arith expr start).loc = start.loc := by
  unfold calculateNextRun
  split
  · rfl
  case h_2 c parsed =>
    cases found : search c.pass 525600 ((start.add GoTime.minute).truncate GoTime.minute) with
    | none =>
        simp only [found, Option.getD_none]
        rfl
    | some t =>
        simp only [found, Option.getD_some]
        exact search_invariant (fun point => point.loc = start.loc)
          (fun _ _ same skip => (CronExpr.pass_loc skip).trans same) rfl found

theorem gainFits_fixedZone {offset ns days : Int} (some : 1 ≤ days)
    : GainFits ⟨ns, GoTime.fixedZone offset⟩ days := by
  have still : clocksGain ⟨ns, GoTime.fixedZone offset⟩ days = 0 := by
    simp [clocksGain, Time.wallOffset, GoTime.fixedZone]
  rw [GainFits, still]
  simp only [GoTime.day, GoTime.hour, GoTime.minute, GoTime.second]
  omega

theorem clocksAllow_fixedZone (c : CronExpr) (offset ns : Int)
    : c.ClocksAllow ⟨ns, GoTime.fixedZone offset⟩ := by
  have ahead := lt_nextMonthStart (Time.localDay ⟨ns, GoTime.fixedZone offset⟩)
  exact ⟨fun _ => gainFits_fixedZone (by unfold daysToNextMonth; omega),
    fun _ _ => gainFits_fixedZone (le_refl 1)⟩

/-- Mondays at nine. -/
def mondaysAtNine : CronExpr :=
  ⟨[0], [9], (List.range' 1 31).map Int.ofNat, (List.range' 1 12).map Int.ofNat, [1]⟩

theorem mondaysAtNine_accepted : parseCron unbounded "0 9 * * 1" = .ok mondaysAtNine := by
  decide +kernel

theorem search_advances_iff_utc
    : Advances mondaysAtNine.pass Time.ns 525600 (searchStart ⟨0, GoTime.utc⟩) := by
  refine (search_advances_iff mondaysAtNine_accepted ⟨0, GoTime.utc⟩).1.mpr ?_
  intro n _ t reached
  have zone : t.loc = GoTime.utc :=
    visited_invariant (fun point => point.loc = GoTime.utc)
      (fun _ _ same skip => (CronExpr.pass_loc skip).trans same) rfl reached
  obtain ⟨ns, loc⟩ := t
  obtain rfl : loc = GoTime.utc := zone
  exact clocksAllow_fixedZone mondaysAtNine 0 ns

-----------------------------------------------------------------------------------------
-- Summer time
-----------------------------------------------------------------------------------------

/-- Seconds since the zero time at the given hour of a day, in UTC. -/
def hoursOf (year month day hours : Int) : Int :=
  dayNumber year month day * 86400 + hours * 3600

/-- The clocks of London in 2025: an hour ahead of UTC from 30 March to 26 October. -/
def london2025 : Location where
  lookup := fun unix =>
    if unix < hoursOf 2025 3 30 1 then { offset := 0, stop := some (hoursOf 2025 3 30 1) }
    else if unix < hoursOf 2025 10 26 1 then
      { offset := 3600, start := some (hoursOf 2025 3 30 1), stop := some (hoursOf 2025 10 26 1) }
    else { offset := 0, start := some (hoursOf 2025 10 26 1) }

def londonTime (year month day hours : Int) : Time :=
  ⟨hoursOf year month day hours * GoTime.second, london2025⟩

/-- From a Saturday the search jumps to the midnight of a Sunday of 23 hours, and from there to
the same midnight.
-/
theorem london_passes
    : mondaysAtNine.pass (searchStart (londonTime 2025 3 29 12))
        = .skip (londonTime 2025 3 30 0)
      ∧ mondaysAtNine.pass (londonTime 2025 3 30 0) = .skip (londonTime 2025 3 30 0) :=
  ⟨rfl, rfl⟩

/-- Mondays at nine are not found from noon of 29 March 2025 in London: the search stays at the
midnight of 30 March, and the result is an hour after the start.
-/
theorem search_stuck_in_london
    : parseCron unbounded "0 9 * * 1" = .ok mondaysAtNine
      ∧ ¬ Advances mondaysAtNine.pass Time.ns 525600 (searchStart (londonTime 2025 3 29 12))
      ∧ calculateNextRun unbounded "0 9 * * 1" (londonTime 2025 3 29 12)
        = londonTime 2025 3 29 13 := by
  obtain ⟨first, second⟩ := london_passes
  refine ⟨mondaysAtNine_accepted, ?_, ?_⟩
  · intro advances
    have reached : visited mondaysAtNine.pass (searchStart (londonTime 2025 3 29 12)) 1
        = some (londonTime 2025 3 30 0) := by
      simp only [visited, Option.bind_some, first]
    exact absurd (advances 1 (by decide) _ _ reached second) (lt_irrefl _)
  · have nowhere : search mondaysAtNine.pass 525600 (searchStart (londonTime 2025 3 29 12))
        = none :=
      (search_skip first 525599).trans (search_stuck second 525599)
    have result : calculateNextRun unbounded "0 9 * * 1" (londonTime 2025 3 29 12)
        = (search mondaysAtNine.pass 525600 (searchStart (londonTime 2025 3 29 12))).getD
            ((londonTime 2025 3 29 12).add GoTime.hour) := by
      simp only [calculateNextRun, mondaysAtNine_accepted, searchStart]
    rw [result, nowhere]
    rfl

end GoFire.CronParser
