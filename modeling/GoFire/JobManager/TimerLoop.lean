import GoFire.CronParser.NextRunCorrectness
import GoFire.Foundations.TransitionSystem

/-! The loop that runs a function on a schedule, following runWithTimerInternal. Its runs are
for increasing accepted minutes, and none is skipped that lies after the reading from which the
next one was computed.
-/

namespace GoFire.JobManager

open GoFire.GoTime (Time utc)
open GoFire.CronParser TransitionSystem

/-- One call of the function: the reading its target was computed from, the target and the
time at which the call began.
-/
structure Execution where
  read : Int
  instant : Int
  began : Int
deriving DecidableEq

/-- Where the loop is. A target is kept with the reading it was computed from. -/
inductive Phase where
  | top
  | targeted (read next : Int)
  | waiting (read next expires : Int)
  | due (read next : Int)
  | running
  | returned
deriving DecidableEq

/-- The loop and the last reading of the clock, in nanoseconds. -/
structure TimerLoop where
  clock : Int
  phase : Phase
deriving DecidableEq

inductive Action where
  | now
  | untilNext
  | timerFires
  | ctxDone
  | call
  | finish (err : Option String)
deriving DecidableEq

inductive Event where
  | internal
  | began (execution : Execution)
  | logged (text : String)
  | stopped
deriving DecidableEq

def Event.execution : Event → Option Execution
  | .began execution => some execution
  | _ => none

/-- The calls of the function in the order in which they began. -/
def executions (log : List Event) : List Execution := log.filterMap Event.execution

/-- time.Until: the difference of two instants, saturated at the ends of the durations. -/
def timeUntil (next now : Int) : Int := max (-2 ^ 63) (min (2 ^ 63 - 1) (next - now))

namespace TimerLoop

/-- One step of the loop with the clock's reading at it. The clock does not go back, and a
timer does not fire before its duration is over.
-/
def step (arith : IntArith) (expr : String) (s : TimerLoop)
    : Int × Action → Option (TimerLoop × Event)
  | (reading, action) =>
      if reading < s.clock then none
      else
        match s.phase, action with
        | .top, .now =>
            let next := (calculateNextRun arith expr ⟨reading, utc⟩).ns
            some (⟨reading, .targeted reading next⟩, .internal)
        | .targeted read next, .untilNext =>
            if timeUntil next reading ≤ 0 then some (⟨reading, .due read next⟩, .internal)
            else some (⟨reading, .waiting read next (reading + timeUntil next reading)⟩, .internal)
        | .waiting read next expires, .timerFires =>
            if reading < expires then none else some (⟨reading, .due read next⟩, .internal)
        | .waiting _ _ _, .ctxDone => some (⟨reading, .returned⟩, .stopped)
        | .due read next, .call => some (⟨reading, .running⟩, .began ⟨read, next, reading⟩)
        | .running, .finish none => some (⟨reading, .top⟩, .internal)
        | .running, .finish (some err) =>
            some (⟨reading, .top⟩, .logged ("Job execution error: " ++ err))
        | _, _ => none

/-- The loop before its first pass. -/
def initial (clock : Int) : TimerLoop := ⟨clock, .top⟩

/-- What a step does, one case for each of them. -/
inductive Moves (arith : IntArith) (expr : String) (s : TimerLoop) : Event → TimerLoop → Prop
  | targeted {reading : Int} (at_ : s.phase = .top) (later : s.clock ≤ reading)
      : Moves arith expr s .internal
          ⟨reading, .targeted reading (calculateNextRun arith expr ⟨reading, utc⟩).ns⟩
  | overdue {reading read next : Int} (at_ : s.phase = .targeted read next)
      (later : s.clock ≤ reading) (past : timeUntil next reading ≤ 0)
      : Moves arith expr s .internal ⟨reading, .due read next⟩
  | waiting {reading read next : Int} (at_ : s.phase = .targeted read next)
      (later : s.clock ≤ reading) (ahead : 0 < timeUntil next reading)
      : Moves arith expr s .internal
          ⟨reading, .waiting read next (reading + timeUntil next reading)⟩
  | fired {reading read next expires : Int} (at_ : s.phase = .waiting read next expires)
      (later : s.clock ≤ reading) (expired : expires ≤ reading)
      : Moves arith expr s .internal ⟨reading, .due read next⟩
  | returned {reading read next expires : Int} (at_ : s.phase = .waiting read next expires)
      (later : s.clock ≤ reading)
      : Moves arith expr s .stopped ⟨reading, .returned⟩
  | called {reading read next : Int} (at_ : s.phase = .due read next)
      (later : s.clock ≤ reading)
      : Moves arith expr s (.began ⟨read, next, reading⟩) ⟨reading, .running⟩
  | finished {reading : Int} {e : Event} (at_ : s.phase = .running)
      (later : s.clock ≤ reading) (quiet : e.execution = none)
      : Moves arith expr s e ⟨reading, .top⟩

theorem step_moves {arith : IntArith} {expr : String} {s : TimerLoop} {action : Int × Action}
    {next : TimerLoop × Event} (h : step arith expr s action = some next)
    : s.Moves arith expr next.2 next.1 := by
  obtain ⟨reading, action⟩ := action
  simp only [step] at h
  split at h
  case isTrue => cases h
  case isFalse early =>
    have later : s.clock ≤ reading := not_lt.mp early
    split at h
    case h_1 at_ =>
      cases h
      exact .targeted at_ later
    case h_2 at_ =>
      split at h
      case isTrue past =>
        cases h
        exact .overdue at_ later past
      case isFalse ahead =>
        cases h
        exact .waiting at_ later (not_le.mp ahead)
    case h_3 at_ =>
      split at h
      case isTrue => cases h
      case isFalse expired =>
        cases h
        exact .fired at_ later (not_lt.mp expired)
    case h_4 at_ =>
      cases h
      exact .returned at_ later
    case h_5 at_ =>
      cases h
      exact .called at_ later
    case h_6 at_ =>
      cases h
      exact .finished at_ later rfl
    case h_7 at_ =>
      cases h
      exact .finished at_ later rfl
    case h_8 => cases h

end TimerLoop

-----------------------------------------------------------------------------------------
-- The invariant of the loop
-----------------------------------------------------------------------------------------

/-- A whole minute the expression accepts in UTC. -/
def Matching (c : CronExpr) (n : Int) : Prop := n % GoTime.minute = 0 ∧ c.Matches ⟨n, utc⟩

instance (c : CronExpr) (n : Int) : Decidable (Matching c n) :=
  inferInstanceAs (Decidable (_ ∧ _))

/-- The call is for the first accepted minute after its reading and not early. -/
structure Execution.Meets (c : CronExpr) (execution : Execution) : Prop where
  target : IsLeast (c.laterRuns execution.read) execution.instant
  notEarly : execution.instant ≤ execution.began

/-- The loop's current target: the first accepted minute after a reading that no earlier call
began after.
-/
structure Targeting (c : CronExpr) (earlier : List Execution) (clock read next : Int) : Prop where
  target : IsLeast (c.laterRuns read) next
  after : ∀ execution ∈ earlier, execution.began ≤ read
  taken : read ≤ clock

def Phase.Sound (c : CronExpr) (earlier : List Execution) (clock : Int) : Phase → Prop
  | .targeted read next => Targeting c earlier clock read next
  | .waiting read next expires => Targeting c earlier clock read next ∧ next ≤ expires
  | .due read next => Targeting c earlier clock read next ∧ next ≤ clock
  | .top | .running | .returned => True

structure Inv (c : CronExpr) (log : List Event) (s : TimerLoop) : Prop where
  meets : ∀ execution ∈ executions log, execution.Meets c
  ordered : (executions log).Pairwise (fun first second => first.began ≤ second.read)
  past : ∀ execution ∈ executions log, execution.began ≤ s.clock
  phase : s.phase.Sound c (executions log) s.clock

theorem executions_quiet {log : List Event} {e : Event} (quiet : e.execution = none)
    : executions (log ++ [e]) = executions log := by
  simp [executions, quiet]

theorem executions_began (log : List Event) (execution : Execution)
    : executions (log ++ [.began execution]) = executions log ++ [execution] := by
  simp [executions, Event.execution]

theorem Targeting.later {c : CronExpr} {earlier : List Execution} {clock clock' read next : Int}
    (h : Targeting c earlier clock read next) (later : clock ≤ clock')
    : Targeting c earlier clock' read next :=
  ⟨h.target, h.after, h.taken.trans later⟩

/-- A step that calls nothing keeps what is known of the calls. -/
theorem Inv.quiet {c : CronExpr} {log : List Event} {s s' : TimerLoop} {e : Event}
    (inv : Inv c log s) (quiet : e.execution = none) (later : s.clock ≤ s'.clock)
    (phase : s'.phase.Sound c (executions log) s'.clock)
    : Inv c (log ++ [e]) s' := by
  refine ⟨?_, ?_, ?_, ?_⟩ <;> rw [executions_quiet quiet]
  · exact inv.meets
  · exact inv.ordered
  · exact fun execution member => (inv.past execution member).trans later
  · exact phase

section Rounds

variable {arith : IntArith} {expr : String} {c : CronExpr}

/-- The target is less than the longest duration ahead, so a timer set for it does not end
before it.
-/
theorem Targeting.expires {earlier : List Execution} {clock reading read next n : Int}
    (matching : Matching c n) (h : Targeting c earlier clock read next)
    (later : clock ≤ reading)
    : next ≤ reading + timeUntil next reading := by
  obtain ⟨soon, run, near⟩ := exists_later_run matching.1 matching.2 read
  have first := h.target.2 run
  have taken := h.taken
  simp only [timeUntil, GoTime.day, GoTime.hour, GoTime.minute, GoTime.second] at near ⊢
  omega

/-- Every step keeps the invariant, by the cases of a step. -/
theorem Inv.step (accepted : parseCron arith expr = .ok c) {n : Int} (matching : Matching c n)
    {log : List Event} {s s' : TimerLoop} {e : Event} (inv : Inv c log s)
    (moves : s.Moves arith expr e s')
    : Inv c (log ++ [e]) s' := by
  have phase := inv.phase
  cases moves with
  | @targeted reading at_ later =>
      obtain ⟨soon, run, -⟩ := exists_later_run matching.1 matching.2 reading
      obtain ⟨next, least, result⟩ := (calculateNextRun_utc accepted reading).1 ⟨soon, run⟩
      have after (execution : Execution) (member : execution ∈ executions log)
          : execution.began ≤ reading := (inv.past execution member).trans later
      refine inv.quiet rfl later ⟨?_, after, le_refl reading⟩
      rw [result]
      exact least
  | @overdue reading read next at_ later past =>
      rw [at_] at phase
      have reached : next ≤ reading := by
        simp only [timeUntil] at past
        omega
      exact inv.quiet rfl later ⟨phase.later later, reached⟩
  | waiting at_ later ahead =>
      rw [at_] at phase
      exact inv.quiet rfl later ⟨phase.later later, phase.expires matching later⟩
  | fired at_ later expired =>
      rw [at_] at phase
      exact inv.quiet rfl later ⟨phase.1.later later, phase.2.trans expired⟩
  | returned at_ later => exact inv.quiet rfl later trivial
  | @called reading read next at_ later =>
      rw [at_] at phase
      obtain ⟨⟨target, after, taken⟩, reached⟩ := phase
      refine ⟨?_, ?_, ?_, trivial⟩ <;> rw [executions_began]
      · intro execution member
        rcases List.mem_append.mp member with old | new
        · exact inv.meets execution old
        · obtain rfl := List.mem_singleton.mp new
          exact ⟨target, reached.trans later⟩
      · exact List.pairwise_append.mpr ⟨inv.ordered, List.pairwise_singleton _ _,
          fun execution member other new => by
            obtain rfl := List.mem_singleton.mp new
            exact after execution member⟩
      · intro execution member
        rcases List.mem_append.mp member with old | new
        · exact (inv.past execution old).trans later
        · obtain rfl := List.mem_singleton.mp new
          exact le_refl reading
  | finished at_ later quiet => exact inv.quiet quiet later trivial

theorem inv_of_runs (accepted : parseCron arith expr = .ok c) {n : Int}
    (matching : Matching c n) {clock : Int} {log : List Event} {s : TimerLoop}
    (run : Runs (Acts (TimerLoop.step arith expr)) (TimerLoop.initial clock) log s)
    : Inv c log s := by
  refine run.invariant (Inv c) ⟨by simp [executions], .nil, by simp [executions], trivial⟩ ?_
  intro log s e s' inv h
  obtain ⟨action, taken⟩ := h
  exact inv.step accepted matching (TimerLoop.step_moves taken)

/-- In every run of the loop the function is called for strictly increasing accepted minutes,
never early, and an accepted minute between two consecutive calls is not later than the reading
from which the second call's minute was computed.
-/
theorem timer_runs_on_schedule (accepted : parseCron arith expr = .ok c)
    (accepts : ∃ n, Matching c n) {clock : Int} {log : List Event} {s : TimerLoop}
    (run : Runs (Acts (TimerLoop.step arith expr)) (TimerLoop.initial clock) log s)
    : ((executions log).map Execution.instant).Pairwise (· < ·)
      ∧ (∀ execution ∈ executions log,
          Matching c execution.instant ∧ execution.instant ≤ execution.began)
      ∧ ∀ before first second after, executions log = before ++ first :: second :: after →
          ∀ n, Matching c n → first.instant < n → n < second.instant → n ≤ second.read := by
  obtain ⟨m, matching⟩ := accepts
  have inv := inv_of_runs accepted matching run
  refine ⟨?_, ?_, ?_⟩
  · rw [List.pairwise_map]
    refine List.Pairwise.imp_of_mem ?_ inv.ordered
    intro first second inFirst inSecond before
    have early := (inv.meets first inFirst).notEarly
    have later := (inv.meets second inSecond).target.1.1
    exact (early.trans before).trans_lt later
  · intro execution member
    have meets := inv.meets execution member
    exact ⟨meets.target.1.2, meets.notEarly⟩
  · intro before first second after same n matchingN _ early
    have member : second ∈ executions log := by
      rw [same]
      simp
    by_contra skipped
    have later : n ∈ c.laterRuns second.read := ⟨not_le.mp skipped, matchingN⟩
    exact absurd ((inv.meets second member).target.2 later) (not_le.mpr early)

end Rounds

/-- The second minute is waited for. Its call overruns the third and the fourth, and the fifth
has begun when the loop measures how far it is away, so it is called without a timer.
-/
def overrunningCall : List (Int × Action) :=
  [(0, .now), (1, .untilNext), (60 * GoTime.second, .timerFires), (60 * GoTime.second, .call),
    (200 * GoTime.second, .finish (some "timeout")), (200 * GoTime.second, .now),
    (241 * GoTime.second, .untilNext), (241 * GoTime.second, .call)]

theorem timer_runs_on_schedule_overrun
    : ∃ log s,
        Runs (Acts (TimerLoop.step unbounded "0-4 0 1 1 1")) (TimerLoop.initial 0) log s
        ∧ executions log
          = [⟨0, 60 * GoTime.second, 60 * GoTime.second⟩,
              ⟨200 * GoTime.second, 240 * GoTime.second, 241 * GoTime.second⟩]
        ∧ ∀ n, Matching ⟨[0, 1, 2, 3, 4], [0], [1], [1], [1]⟩ n →
            60 * GoTime.second < n → n < 240 * GoTime.second → n ≤ 200 * GoTime.second := by
  have performed : ∃ log s, perform (TimerLoop.step unbounded "0-4 0 1 1 1")
          (TimerLoop.initial 0) overrunningCall = some (s, log)
        ∧ executions log
          = [⟨0, 60 * GoTime.second, 60 * GoTime.second⟩,
              ⟨200 * GoTime.second, 240 * GoTime.second, 241 * GoTime.second⟩] :=
    ⟨_, _, rfl, rfl⟩
  obtain ⟨log, s, performed, calls⟩ := performed
  have run := runs_of_perform performed
  have accepted : parseCron unbounded "0-4 0 1 1 1" = .ok ⟨[0, 1, 2, 3, 4], [0], [1], [1], [1]⟩ := by
    decide
  have schedule := timer_runs_on_schedule accepted ⟨0, by decide⟩ run
  exact ⟨log, s, run, calls, schedule.2.2 [] _ _ [] calls⟩

end GoFire.JobManager
