import GoFire.CronParser.WallSearch

/-! CalculateNextRun in UTC returns the first minute after its start that the expression
accepts, however far ahead that is, and an hour later when there is none.
-/

namespace GoFire.CronParser

open GoFire.GoTime (Time fixedZone utc)
open BoundedSearch GregorianCalendar

/-- The whole minutes after `start`, in UTC, that the expression accepts. -/
def CronExpr.laterRuns (c : CronExpr) (start : Int) : Set Int :=
  {n | start < n ∧ n % GoTime.minute = 0 ∧ c.Matches ⟨n, utc⟩}

/-- The loop accepts a whole minute when all its local fields are accepted. -/
theorem matches_atWall (c : CronExpr) (offset x : Int)
    : c.Matches (atWall offset x) ↔ c.wallPass offset x = .found := by
  have minute : x % 1440 % 60 = x % 60 := by omega
  rw [wallPass_found, CronExpr.Matches, atWall_month, atWall_day, atWall_weekday, atWall_hour,
    atWall_minute, CronExpr.DayMatches, CronExpr.TimeMatches, minute]
  tauto

/-- The loop starts at the next whole minute. -/
theorem start_atWall (offset ns : Int)
    : ((⟨ns, fixedZone (60 * offset)⟩ : Time).add GoTime.minute).truncate GoTime.minute
      = atWall offset (ns / GoTime.minute + offset + 1) := by
  simp only [Time.add, Time.truncate, atWall, GoTime.minute, GoTime.second, Time.mk.injEq,
    and_true]
  omega

/-- In a zone with a fixed offset the next run is found on wall-clock minutes. -/
theorem calculateNextRun_fixedZone {arith : IntArith} {expr : String} {c : CronExpr}
    (accepted : parseCron arith expr = .ok c) (offset ns : Int)
    : calculateNextRun arith expr ⟨ns, fixedZone (60 * offset)⟩
      = ((search (c.wallPass offset) 525600 (ns / GoTime.minute + offset + 1)).map
          (atWall offset)).getD ⟨ns + GoTime.hour, fixedZone (60 * offset)⟩ := by
  rw [← c.search_atWall (parseCron_sorted accepted), ← start_atWall]
  simp only [calculateNextRun, accepted, Time.add]

/-- Whole minutes in UTC are counted by the loop. -/
theorem utc_eq_atWall {n : Int} (whole : n % GoTime.minute = 0)
    : (⟨n, utc⟩ : Time) = atWall 0 (n / GoTime.minute) := by
  have scaled : n = (n / GoTime.minute - 0) * GoTime.minute := by
    simp only [GoTime.minute, GoTime.second] at whole ⊢
    omega
  rw [atWall, ← scaled]
  rfl

/-- Counting in minutes, the accepted minutes after `start` are those the loop accepts from
its first point on.
-/
theorem laterRuns_atWall (c : CronExpr) (start x : Int)
    : x * GoTime.minute ∈ c.laterRuns start
      ↔ start / GoTime.minute + 0 + 1 ≤ x ∧ c.wallPass 0 x = .found := by
  have whole : x * GoTime.minute % GoTime.minute = 0 := Int.mul_emod_left _ _
  have counted : x * GoTime.minute / GoTime.minute = x := by
    simp only [GoTime.minute, GoTime.second]
    omega
  have after : start < x * GoTime.minute ↔ start / GoTime.minute + 0 + 1 ≤ x := by
    simp only [GoTime.minute, GoTime.second]
    omega
  simp only [CronExpr.laterRuns, Set.mem_ofPred_eq, whole, utc_eq_atWall whole, counted, after,
    matches_atWall, true_and]

theorem laterRuns_whole {c : CronExpr} {start n : Int} (h : n ∈ c.laterRuns start)
    : n = n / GoTime.minute * GoTime.minute := by
  have := Int.mul_ediv_add_emod n GoTime.minute
  rw [h.2.1, mul_comm] at this
  omega

/-- An expression that accepts some minute in UTC accepts one within 40 years of any start. -/
theorem exists_later_run {c : CronExpr} {n : Int} (whole : n % GoTime.minute = 0)
    (accepts : c.Matches ⟨n, utc⟩) (start : Int)
    : ∃ soon ∈ c.laterRuns start, soon ≤ start + 14610 * GoTime.day := by
  rw [utc_eq_atWall whole, matches_atWall, wallPass_found] at accepts
  obtain ⟨fits, time⟩ := accepts
  have dates (day day' : Int) (month : monthOf day' = monthOf day)
      (date : dayOf day' = dayOf day) (weekday : weekdayOf day' = weekdayOf day)
      (fits : c.DayMatches day)
      : c.DayMatches day' := by
    rw [CronExpr.DayMatches, month, date, weekday]
    exact fits
  obtain ⟨again, later, near, fitsAgain⟩ :=
    exists_within_forty_years dates fits (start / GoTime.minute / 1440)
  have day : (again * 1440 + n / GoTime.minute % 1440) / 1440 = again := by omega
  have ofDay : (again * 1440 + n / GoTime.minute % 1440) % 1440 = n / GoTime.minute % 1440 := by
    omega
  refine ⟨(again * 1440 + n / GoTime.minute % 1440) * GoTime.minute, ?_, ?_⟩
  · rw [laterRuns_atWall, wallPass_found, day, ofDay]
    exact ⟨by omega, fitsAgain, time⟩
  · simp only [GoTime.minute, GoTime.second, GoTime.day, GoTime.hour] at later near ⊢
    omega

/-- When some minute of some day is accepted, the next run in UTC is the least accepted minute
after the start.
-/
theorem exists_goal_utc {arith : IntArith} {expr : String} {c : CronExpr}
    (accepted : parseCron arith expr = .ok c) {day minute : Int} (fits : c.DayMatches day)
    (nonneg : 0 ≤ minute) (lt : minute < 1440) (time : c.TimeMatches minute) (start : Int)
    : ∃ goal, IsLeast {y | start / GoTime.minute + 0 + 1 ≤ y ∧ c.wallPass 0 y = .found} goal
        ∧ calculateNextRun arith expr ⟨start, utc⟩ = ⟨goal * GoTime.minute, utc⟩ := by
  have run := calculateNextRun_fixedZone accepted 0 start
  obtain ⟨goal, least, near⟩ := exists_least_found fits nonneg lt time 0
    (start / GoTime.minute + 0 + 1)
  have meets : c.Meets 0 goal (start / GoTime.minute + 0 + 1) := Or.inl (by omega)
  rw [search_eq_least least near meets] at run
  refine ⟨goal, least, run.trans ?_⟩
  simp only [Option.map_some, Option.getD_some, atWall, Int.sub_zero]
  rfl

/-- The next run in UTC is the least accepted minute after the start, and an hour after the
start when no later minute is accepted.
-/
theorem calculateNextRun_utc {arith : IntArith} {expr : String} {c : CronExpr}
    (accepted : parseCron arith expr = .ok c) (start : Int)
    : ((c.laterRuns start).Nonempty
        → ∃ next, IsLeast (c.laterRuns start) next
          ∧ calculateNextRun arith expr ⟨start, utc⟩ = ⟨next, utc⟩)
      ∧ (c.laterRuns start = ∅
        → calculateNextRun arith expr ⟨start, utc⟩
          = (⟨start, utc⟩ : Time).add GoTime.hour) := by
  refine ⟨?_, ?_⟩
  · intro h
    obtain ⟨n, later⟩ := h
    have found := later
    rw [laterRuns_whole later, laterRuns_atWall] at found
    obtain ⟨fits, time⟩ := wallPass_found.mp found.2
    obtain ⟨goal, least, run⟩ := exists_goal_utc accepted fits (by omega) (by omega) time start
    refine ⟨goal * GoTime.minute, ⟨(laterRuns_atWall c start goal).mpr least.1, ?_⟩, run⟩
    intro other otherLater
    have whole := laterRuns_whole otherLater
    rw [whole, laterRuns_atWall] at otherLater
    have := least.2 otherLater
    simp only [GoTime.minute, GoTime.second] at whole this ⊢
    omega
  · intro empty
    have run := calculateNextRun_fixedZone accepted 0 start
    have nowhere (x : Int) (le : start / GoTime.minute + 0 + 1 ≤ x)
        : c.wallPass 0 x ≠ .found := by
      intro found
      have mem := (laterRuns_atWall c start x).mpr ⟨le, found⟩
      simp [empty] at mem
    rw [search_eq_none nowhere] at run
    exact run

/-- From the first instant of the calendar the search for a 29th of February that is a Sunday
has a result, since 2032 has one.
-/
theorem calculateNextRun_utc_leapSunday
    : ∃ next, IsLeast ((CronExpr.mk [0] [0] [29] [2] [0]).laterRuns 0) next
        ∧ calculateNextRun unbounded "0 0 29 2 0" ⟨0, utc⟩ = ⟨next, utc⟩ :=
  (calculateNextRun_utc
      (show parseCron unbounded "0 0 29 2 0" = .ok ⟨[0], [0], [29], [2], [0]⟩ by decide) 0).1
    ⟨GregorianCalendar.dayNumber 2032 2 29 * GoTime.day, by decide, by decide, by decide⟩

end GoFire.CronParser
