import GoFire.CronManager.Lifecycle
import GoFire.Managers.Outcomes
import Mathlib.Tactic.Abel

/-! The outcomes that a cron manager holds: in goroutines that are about to send them, in the
result channel and in the hand of the result processor, which uses a context that is never
cancelled. Every step of the manager balances them.
-/

namespace GoFire.CronManager

open GoFire.State GoFire.Store GoFire.CronParser GoFire.Managers TransitionSystem

def Execution.endings (e : Execution) : Multiset HandlerEnd :=
  match e.stage with
  | .sending result => {.result result}
  | _ => 0

def Processor.endings : Processor → Multiset HandlerEnd
  | .marking result => {.result result}
  | _ => 0

/-- The end of the execution that a step has moved on. -/
def reported : Option Execution → Signal
  | some ⟨_, .sending result⟩ => .finished (.result result)
  | _ => .internal

/-- What the result processor passes to the store. -/
def Processor.passes : Processor → Signal
  | .marking result => .passed result true
  | _ => .internal

namespace Manager

def endings (m : Manager) : Multiset HandlerEnd :=
  total Execution.endings m.workers + total (fun result => {.result result}) m.jobResults
    + m.processor.endings

/-- What an action does to the outcomes. A panic ends the process. -/
def signal (m : Manager) (action : Action) (m' : Manager) : Signal :=
  match action with
  | .waitDone => .returned
  | .enter i => reported m'.workers[i]?
  | .execute i (.returned _) => reported m'.workers[i]?
  | .execute _ .panicked => .died m.endings
  | .mark _ => m.processor.passes
  | .crash => .died m.endings
  | _ => .internal

/-- The step balances the outcomes. -/
def Balances (m : Manager) (signal : Signal) (m' : Manager) : Prop :=
  m'.endings + signal.leaves = m.endings + signal.finishes

variable {arith : IntArith} {s s' : CronStore} {m m' : Manager} {event : Event}

theorem balances_internal (same : m'.endings = m.endings) : m.Balances .internal m' := by
  simp only [Balances, same, Signal.leaves, Signal.finishes]

theorem balances_crash (m : Manager) : m.Balances (.died m.endings) m.crashed := by
  have empty : m.crashed.endings = 0 := rfl
  simp only [Balances, empty, Signal.leaves, Signal.finishes, zero_add, add_zero]

/-- Moving one job goroutine on replaces its part of the outcomes. -/
theorem endings_set_worker {i : Nat} {e : Execution} (h : m.workers[i]? = some e)
    : ∃ rest, m.endings = e.endings + rest
      ∧ ∀ e', endings { m with workers := m.workers.set i e' } = e'.endings + rest := by
  obtain ⟨rest, all, others⟩ := total_set Execution.endings h
  refine ⟨rest + total (fun result => {.result result}) m.jobResults + m.processor.endings, ?_, ?_⟩
  · rw [endings, all]
    abel
  · intro e'
    rw [endings, others]
    abel

theorem endings_append_result (m : Manager) (result : JobResult)
    : endings { m with jobResults := m.jobResults ++ [result] }
      = m.endings + {.result result} := by
  simp only [endings, total_append, total_cons, total_nil]
  abel

/-- An execution that had no outcome moves on, maybe to one. -/
theorem balances_worker {i : Nat} {e : Execution} (h : m.workers[i]? = some e)
    (noOutcome : e.endings = 0) (e' : Execution)
    : m.Balances (reported (m.workers.set i e')[i]?)
        { m with workers := m.workers.set i e' } := by
  obtain ⟨rest, held, holds⟩ := endings_set_worker h
  obtain ⟨inBounds, -⟩ := List.getElem?_eq_some_iff.mp h
  rw [List.getElem?_set_self inBounds, Balances, held, holds, noOutcome, zero_add]
  obtain ⟨job, stage⟩ := e'
  cases stage with
  | sending result => exact (add_zero _).trans (add_comm _ _)
  | _ =>
      rw [show Execution.endings _ = 0 from rfl, zero_add]
      rfl

/-- The outcome goes from the goroutine to the channel. -/
theorem balances_sent {i : Nat} {job : CronJob} {result : JobResult}
    (h : m.workers[i]? = some ⟨job, .sending result⟩)
    : m.Balances .internal
        { m with workers := m.workers.set i ⟨job, .finished⟩,
                 jobResults := m.jobResults ++ [result] } := by
  obtain ⟨rest, held, holds⟩ := endings_set_worker h
  have moved := endings_append_result { m with workers := m.workers.set i ⟨job, .finished⟩ }
    result
  apply balances_internal
  rw [held, moved, holds]
  change 0 + rest + {.result result} = {.result result} + rest
  abel

/-- The result processor passes its outcome to the store. -/
theorem balances_passed {result : JobResult} (marking : m.processor = .marking result)
    : m.Balances m.processor.passes { m with processor := .updating result } := by
  simp only [Balances, endings, marking, Processor.passes, Processor.endings, Signal.leaves,
    Signal.finishes, add_zero]

theorem balances_updated {result : JobResult} (updating : m.processor = .updating result)
    : m.Balances .internal { m with processor := .receiving } := by
  apply balances_internal
  simp only [endings, updating, Processor.endings]

theorem step_balances {action : Action} (h : m.step arith s action = some (s', m', event))
    : m.Balances (m.signal action m') m' := by
  cases step_moves h with
  | acquired =>
      apply balances_internal
      simp only [endings, total_append, total_cons, total_nil, Execution.endings, add_zero]
  | entered found => exact balances_worker found rfl _
  | refused found => exact balances_worker found rfl _
  | executed found => exact balances_worker found rfl _
  | sent found => exact balances_sent found
  | finished found =>
      apply balances_internal
      unfold endings
      rw [total_eraseIdx Execution.endings found, Execution.endings, zero_add]
  | received receiving buffered =>
      apply balances_internal
      simp only [endings, receiving, buffered, Processor.endings, total_cons, add_zero]
      abel
  | unmarked marking => exact balances_passed marking
  | marked marking => exact balances_passed marking
  | updateRefused updating => exact balances_updated updating
  | updated updating => exact balances_updated updating
  | panicked => exact balances_crash m
  | crash => exact balances_crash m
  | _ => exact balances_internal rfl

/-- Nothing moves in a manager that has crashed. -/
theorem crashed_step {action : Action} (dead : m.poll = .crashed)
    (h : m.step arith s action = some (s', m', event))
    : m'.poll = .crashed := by
  cases step_moves h with
  | start alive | began alive | ended alive | counted alive | countFailed alive | fetched alive
  | selectFailed alive | locked alive | passedOver alive | lockLost alive | acquired alive
  | acquireFailed alive | pageEnded alive | woke alive | returned alive =>
      rw [dead] at alive
      cases alive
  | panicked => rfl
  | crash => rfl
  | _ => exact dead

/-- Only the ends of Start and of the process are no routine. -/
theorem signal_routine (m m' : Manager) (action : Action)
    : (m.signal action m').routine = true ∨ action = .waitDone ∨ action = .crash
      ∨ ∃ i, action = .execute i .panicked := by
  have report (e : Option Execution) : (reported e).routine = true := by
    simp only [reported]
    split
    · rfl
    · rfl
  cases action with
  | crash => exact Or.inr (Or.inr (Or.inl rfl))
  | waitDone => exact Or.inr (Or.inl rfl)
  | enter => exact Or.inl (report _)
  | execute i outcome =>
      cases outcome with
      | returned => exact Or.inl (report _)
      | panicked => exact Or.inr (Or.inr (Or.inr ⟨i, rfl⟩))
  | mark delivery =>
      left
      simp only [signal, Processor.passes]
      split
      · rfl
      · rfl
  | _ => exact Or.inl rfl

theorem crashed_of_died {action : Action} (h : m.step arith s action = some (s', m', event))
    {endings : Multiset HandlerEnd} (died : .died endings = m.signal action m')
    : m'.poll = .crashed := by
  rcases signal_routine m m' action with routine | rfl | rfl | ⟨i, rfl⟩
  · rw [← died] at routine
    cases routine
  · cases died
  · cases h
    rfl
  · cases step_moves h with
    | panicked => rfl

theorem waiting_of_returned {action : Action} (h : m.step arith s action = some (s', m', event))
    (returned : .returned = m.signal action m')
    : m.poll = .waiting := by
  rcases signal_routine m m' action with routine | rfl | rfl | ⟨i, rfl⟩
  · rw [← returned] at routine
    cases routine
  · cases step_moves h with
    | returned waiting => exact waiting
  · cases returned
  · cases returned

/-- The goroutines of a cron manager pass outcomes on. -/
theorem resultPipeline
    : ResultPipeline Manager.endings (Acts (observe arith signal)) (fun _ => True)
        (·.poll = .crashed) where
  sound_step _ _ := trivial
  balance _ h := by
    obtain ⟨s, s', event, action, taken, rfl⟩ := observed h
    exact step_balances taken
  dead_of_died h := by
    obtain ⟨s, s', event, action, taken, died⟩ := observed h
    exact crashed_of_died taken died
  dead_step dead h := by
    obtain ⟨s, s', event, action, taken, rfl⟩ := observed h
    exact crashed_step dead taken
  alive_of_returned h dead := by
    obtain ⟨s, s', event, action, taken, returned⟩ := observed h
    rw [waiting_of_returned taken returned] at dead
    cases dead

end Manager

end GoFire.CronManager
