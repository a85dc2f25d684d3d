import GoFire.CronParser.NextRunCorrectness

/-! Two runs of the search on the same wall-clock reading, in UTC and in a zone with a fixed
offset. Truncation to 24 hours works on absolute time, so after a jump over days the local
clock shows the time of midnight in UTC, and an earlier accepted time of that day is lost.
-/

namespace GoFire.CronParser

open GoFire.GoTime (Time fixedZone utc)
open BoundedSearch GregorianCalendar

/-- The next runs after a wall-clock reading, taken `offset` minutes ahead of UTC and taken in
UTC, have the same reading on their own clocks.
-/
def SameReading (arith : IntArith) (expr : String) (offset reading : Int) : Prop :=
  (calculateNextRun arith expr (Time.ofWall reading (fixedZone (60 * offset)))).wall
    = (calculateNextRun arith expr (Time.ofWall reading utc)).wall

instance (arith : IntArith) (expr : String) (offset reading : Int)
    : Decidable (SameReading arith expr offset reading) :=
  inferInstanceAs (Decidable (_ = _))

/-- The reading of the next run comes from the search on wall-clock minutes alone. -/
theorem nextReading {arith : IntArith} {expr : String} {c : CronExpr}
    (accepted : parseCron arith expr = .ok c) (offset reading : Int)
    : (calculateNextRun arith expr (Time.ofWall reading (fixedZone (60 * offset)))).wall
      = ((search (c.wallPass offset) 525600 (reading / GoTime.minute + 1)).map
          (· * GoTime.minute)).getD (reading + GoTime.hour) := by
  have begins : (reading - 60 * offset * GoTime.second) / GoTime.minute + offset + 1
      = reading / GoTime.minute + 1 := by
    simp only [GoTime.minute, GoTime.second]
    omega
  rw [Time.ofWall_fixedZone, calculateNextRun_fixedZone accepted, begins]
  cases search (c.wallPass offset) 525600 (reading / GoTime.minute + 1) with
  | none =>
      simp only [Option.map_none, Option.getD_none, Time.wall_fixedZone]
      ring
  | some found => exact atWall_wall offset found

theorem sameReading_iff_search {arith : IntArith} {expr : String} {c : CronExpr}
    (accepted : parseCron arith expr = .ok c) (offset reading : Int)
    : SameReading arith expr offset reading
      ↔ ((search (c.wallPass offset) 525600 (reading / GoTime.minute + 1)).map
          (· * GoTime.minute)).getD (reading + GoTime.hour)
        = ((search (c.wallPass 0) 525600 (reading / GoTime.minute + 1)).map
          (· * GoTime.minute)).getD (reading + GoTime.hour) := by
  have inUtc := nextReading accepted 0 reading
  rw [SameReading, nextReading accepted, ← inUtc]
  rfl

/-- Whether a minute is accepted does not depend on the zone. -/
theorem found_zone (c : CronExpr) (offset x : Int)
    : c.wallPass offset x = .found ↔ c.wallPass 0 x = .found := by
  rw [wallPass_found, wallPass_found]

/-- When the day before the goal's does not fit and the goal comes before the time at which
jumps over days land, a search from an earlier day never stops at the goal.
-/
theorem search_misses {c : CronExpr} {offset goal start : Int}
    (accepted : c.wallPass offset goal = .found)
    (early : goal % 1440 < offset % 1440) (before : ¬ c.DayMatches (goal / 1440 - 1))
    (earlier : start / 1440 < goal / 1440) (fuel : Nat)
    : search (c.wallPass offset) fuel start ≠ some goal := by
  intro h
  obtain ⟨day, -⟩ := wallPass_found.mp accepted
  have apart := search_invariant (fun x => x / 1440 < goal / 1440 ∨ goal < x)
    (fun x next inv skip => by
      have forward := wallPass_forward c offset x next skip
      rcases inv with dayBefore | past
      · cases wallPass_skip skip with
        | times fits ahead within unfit =>
            have : x / 1440 ≠ goal / 1440 - 1 := fun same => before (same ▸ fits)
            exact Or.inl (by omega)
        | days landing unfit ahead lands =>
            have reach : landing ≤ goal / 1440 := by
              by_contra beyond
              exact unfit _ (by omega) (by omega) day
            have := alignDay_lands offset x landing
            omega
      · exact Or.inr (by omega))
    (Or.inl earlier) h
  omega

/-- With a later accepted minute that is not exactly an hour ahead, the readings agree if and
only if the local search meets the first one.
-/
theorem sameReading_iff_meets {arith : IntArith} {expr : String} {c : CronExpr}
    (accepted : parseCron arith expr = .ok c) {offset reading goal : Int}
    (least : IsLeast {y | reading / GoTime.minute + 1 ≤ y ∧ c.wallPass 0 y = .found} goal)
    (near : goal / 1440 ≤ (reading / GoTime.minute + 1) / 1440 + cycleDays)
    : (c.Meets offset goal (reading / GoTime.minute + 1)
        → SameReading arith expr offset reading)
      ∧ (SameReading arith expr offset reading → goal * GoTime.minute ≠ reading + GoTime.hour
        → c.Meets offset goal (reading / GoTime.minute + 1)) := by
  have meetsUtc : c.Meets 0 goal (reading / GoTime.minute + 1) := Or.inl (by omega)
  have local' : IsLeast {y | reading / GoTime.minute + 1 ≤ y ∧ c.wallPass offset y = .found}
      goal := by
    simpa only [found_zone c offset] using least
  rw [sameReading_iff_search accepted, search_eq_least least near meetsUtc]
  refine ⟨?_, ?_⟩
  · intro meets
    rw [search_eq_least local' near meets]
  · intro same notFallback
    by_contra missed
    obtain ⟨early, someDay⟩ := not_or.mp missed
    obtain ⟨after, found⟩ := least.1
    obtain ⟨goalDay, goalTime⟩ := wallPass_found.mp found
    have before : ¬ c.DayMatches (goal / 1440 - 1) := by
      intro fits
      apply someDay
      intro e le ge
      by_contra unfit
      have : e ≠ goal / 1440 := fun h => unfit (h ▸ goalDay)
      have : e ≠ goal / 1440 - 1 := fun h => unfit (h ▸ fits)
      have whole : (goal - 1440) / 1440 = goal / 1440 - 1 := by omega
      have time : (goal - 1440) % 1440 = goal % 1440 := by omega
      have dayEarlier : goal ≤ goal - 1440 := least.2 ⟨by omega, by
        rw [wallPass_found, whole, time]
        exact ⟨fits, goalTime⟩⟩
      omega
    have earlier : (reading / GoTime.minute + 1) / 1440 < goal / 1440 := by
      by_contra sameDay
      apply someDay
      intro e le ge
      obtain rfl : e = goal / 1440 := by omega
      exact goalDay
    have misses := search_misses local'.1.2 (by omega) before earlier 525600
    cases result : search (c.wallPass offset) 525600 (reading / GoTime.minute + 1) with
    | none =>
        rw [result] at same
        exact notFallback same.symm
    | some other =>
        have sameMinute : other = goal := by
          rw [result] at same
          simp only [Option.map_some, Option.getD_some, GoTime.minute, GoTime.second] at same
          omega
        exact misses (sameMinute ▸ result)

/-- A day that fits after a day that does not, when there are both. -/
theorem exists_first_fit {c : CronExpr} {fit unfit : Int} (fits : c.DayMatches fit)
    (fails : ¬ c.DayMatches unfit)
    : ∃ day, c.DayMatches day ∧ ¬ c.DayMatches (day - 1) := by
  obtain ⟨again, later, -, fitsAgain⟩ := exists_in_cycle (dayMatches_add_cycle c) fits unfit
  obtain ⟨day, ⟨after, fitsDay⟩, least⟩ := Int.exists_least_of_bdd
    (P := fun d => unfit < d ∧ c.DayMatches d) ⟨unfit, fun _ h => by omega⟩
    ⟨again, later, fitsAgain⟩
  refine ⟨day, fitsDay, fun fitsBefore => ?_⟩
  have notUnfit : day - 1 ≠ unfit := fun same => fails (same ▸ fitsBefore)
  have := least (day - 1) ⟨by omega, fitsBefore⟩
  omega

end GoFire.CronParser
