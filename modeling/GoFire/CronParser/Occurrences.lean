import GoFire.CronParser.Int64Fields
import GoFire.CronParser.NextRunCorrectness
import GoFire.Foundations.NextPoints
import Mathlib.Data.Int.Interval

/-! All runs of an expression in UTC. A job that always computes its next run from its last one
meets every minute that the expression accepts, and no other.
-/

namespace GoFire.CronParser

open GoFire.GoTime (Time utc)

/-- The minutes that the expression accepts in UTC. -/
def CronExpr.runs (c : CronExpr) : Set Int := {n | n % GoTime.minute = 0 ∧ c.Matches ⟨n, utc⟩}

variable {arith : IntArith} {expr : String} {c : CronExpr}

/-- When the expression accepts any minute, the next run is the least later one. -/
theorem leads_calculateNextRun (accepted : parseCron arith expr = .ok c) (nonempty : c.runs.Nonempty)
    : NextPoints.Leads (fun start => (calculateNextRun arith expr ⟨start, utc⟩).ns) c.runs
      ∧ ∀ start, (calculateNextRun arith expr ⟨start, utc⟩).loc = utc := by
  obtain ⟨n, whole, accepts⟩ := nonempty
  rw [utc_eq_atWall whole, matches_atWall] at accepts
  obtain ⟨fits, time⟩ := wallPass_found.mp accepts
  have goal (start : Int) := exists_goal_utc accepted fits (by omega) (by omega) time start
  refine ⟨fun start => ?_, fun start => ?_⟩
  · obtain ⟨goal, least, run⟩ := goal start
    simp only [run]
    refine ⟨(laterRuns_atWall c start goal).mpr least.1, ?_⟩
    intro other later
    have whole := laterRuns_whole (c := c) later
    have found := least.2 ((laterRuns_atWall c start _).mp (whole ▸ later))
    simp only [GoTime.minute, GoTime.second] at whole found ⊢
    omega
  · obtain ⟨goal, -, run⟩ := goal start
    rw [run]

/-- Computing each next run from the last one yields, from any instant in UTC, all the minutes after
it that the expression accepts, each once and in their order.
-/
theorem runs_enumerated (accepted : parseCron arith expr = .ok c) (nonempty : c.runs.Nonempty)
    (start : Int)
    : (∀ k l, k < l → ((calculateNextRun arith expr)^[k] ⟨start, utc⟩).ns
          < ((calculateNextRun arith expr)^[l] ⟨start, utc⟩).ns)
      ∧ ∀ n, n ∈ c.laterRuns start
        ↔ ∃ k, (calculateNextRun arith expr)^[k + 1] ⟨start, utc⟩ = ⟨n, utc⟩ := by
  obtain ⟨leads, zone⟩ := leads_calculateNextRun accepted nonempty
  have iterated (k : Nat)
      : (calculateNextRun arith expr)^[k] ⟨start, utc⟩
        = ⟨(fun start => (calculateNextRun arith expr ⟨start, utc⟩).ns)^[k] start, utc⟩ := by
    induction k with
    | zero => rfl
    | succ k ih =>
        rw [Function.iterate_succ_apply', ih, Function.iterate_succ_apply', Time.mk.injEq]
        exact ⟨rfl, zone _⟩
  refine ⟨fun k l less => ?_, fun n => ?_⟩
  · simp only [iterated]
    exact leads.strictMono start less
  · simp only [iterated, Time.mk.injEq, and_true]
    exact (Set.ext_iff.mp (leads.range_iterate start) n).symm

/-- The 29ths of February that are Sundays. -/
theorem runs_enumerated_leapSunday
    : ∃ c, parseCron int64 "0 0 29 2 0" = .ok c
        ∧ ∀ n, n ∈ c.laterRuns 0
          ↔ ∃ k, (calculateNextRun int64 "0 0 29 2 0")^[k + 1] ⟨0, utc⟩ = ⟨n, utc⟩ :=
  ⟨⟨[0], [0], [29], [2], [0]⟩, by decide,
    (runs_enumerated (by decide)
      ⟨GregorianCalendar.dayNumber 2032 2 29 * GoTime.day, by decide, by decide⟩ 0).2⟩

end GoFire.CronParser
