import GoFire.Managers.Outcomes
import GoFire.QueueManager.Lifecycle
import Mathlib.Tactic.Abel

/-! The outcomes that an enqueue manager holds: in goroutines that are about to send them, in the
result channel and in the hand of the result processor. Every step of the manager balances them.
-/

namespace GoFire.QueueManager

open GoFire.State GoFire.Store GoFire.Managers TransitionSystem

def Execution.endings (e : Execution) : Multiset HandlerEnd :=
  match e.stage with
  | .sending result => {.result result}
  | _ => 0

def Processor.endings : Processor → Multiset HandlerEnd
  | .recording result => {.result result}
  | _ => 0

/-- The end of the execution that a step has moved on. -/
def reported : Option Execution → Signal
  | some ⟨_, .sending result⟩ => .finished (.result result)
  | _ => .internal

/-- A handler that panics ends its execution without a result. -/
def panicked : Option Execution → Signal
  | some e => .finished (.panic e.job.id)
  | none => .internal

/-- What the result processor passes to the store. -/
def Processor.passes (processor : Processor) (live : Bool) : Signal :=
  match processor with
  | .recording result => .passed result live
  | _ => .internal

namespace Manager

def endings (m : Manager) : Multiset HandlerEnd :=
  total Execution.endings m.workers + total Execution.endings m.manual
    + total (fun result => {.result result}) m.jobResults + m.processor.endings

/-- What an action does to the outcomes. -/
def signal (m : Manager) (action : Action) (m' : Manager) : Signal :=
  match action with
  | .unlockStaleJobs .answered => .internal
  | .unlockStaleJobs _ => .died m.endings
  | .waitDone => .returned
  | .enter i => reported m'.workers[i]?
  | .execute i (.returned _) => reported m'.workers[i]?
  | .execute i .panicked => panicked m.workers[i]?
  | .executeManual i (.returned _) => reported m'.manual[i]?
  | .executeManual i .panicked => panicked m.manual[i]?
  | .record _ => m.processor.passes (!m.cancelled)
  | .crash => .died m.endings
  | _ => .internal

/-- The step balances the outcomes. -/
def Balances (m : Manager) (signal : Signal) (m' : Manager) : Prop :=
  m'.endings + signal.leaves = m.endings + signal.finishes

variable {s s' : QueueStore} {m m' : Manager} {event : Event}

theorem balances_internal (same : m'.endings = m.endings) : m.Balances .internal m' := by
  simp only [Balances, same, Signal.leaves, Signal.finishes]

theorem balances_crash (m : Manager) : m.Balances (.died m.endings) m.crashed := by
  have empty : m.crashed.endings = 0 := rfl
  simp only [Balances, empty, Signal.leaves, Signal.finishes, zero_add, add_zero]

/-- Moving one job goroutine on replaces its part of the outcomes. -/
theorem endings_set_worker {i : Nat} {e : Execution} (h : m.workers[i]? = some e)
    : ∃ rest, m.endings = e.endings + rest
      ∧ ∀ e', endings { m with workers := m.workers.set i e' } = e'.endings + rest := by
  obtain ⟨rest, all, others⟩ := total_set Execution.endings h
  refine ⟨rest + total Execution.endings m.manual
    + total (fun result => {.result result}) m.jobResults + m.processor.endings, ?_, ?_⟩
  · rw [endings, all]
    abel
  · intro e'
    rw [endings, others]
    abel

theorem endings_set_manual {i : Nat} {e : Execution} (h : m.manual[i]? = some e)
    : ∃ rest, m.endings = e.endings + rest
      ∧ ∀ e', endings { m with manual := m.manual.set i e' } = e'.endings + rest := by
  obtain ⟨rest, all, others⟩ := total_set Execution.endings h
  refine ⟨total Execution.endings m.workers + rest
    + total (fun result => {.result result}) m.jobResults + m.processor.endings, ?_, ?_⟩
  · rw [endings, all]
    abel
  · intro e'
    rw [endings, others]
    abel

theorem endings_append_result (m : Manager) (result : JobResult)
    : endings { m with jobResults := m.jobResults ++ [result] }
      = m.endings + {.result result} := by
  simp only [endings, total_append, total_cons, total_nil]
  abel

/-- An execution that had no outcome moves on, maybe to one. -/
theorem balances_worker {i : Nat} {e : Execution} (h : m.workers[i]? = some e)
    (noOutcome : e.endings = 0) (e' : Execution)
    : m.Balances (reported (m.workers.set i e')[i]?)
        { m with workers := m.workers.set i e' } := by
  obtain ⟨rest, held, holds⟩ := endings_set_worker h
  obtain ⟨inBounds, -⟩ := List.getElem?_eq_some_iff.mp h
  rw [List.getElem?_set_self inBounds, Balances, held, holds, noOutcome, zero_add]
  obtain ⟨job, stage⟩ := e'
  cases stage with
  | sending result => exact (add_zero _).trans (add_comm _ _)
  | _ =>
      rw [show Execution.endings _ = 0 from rfl, zero_add]
      rfl

theorem balances_manual {i : Nat} {e : Execution} (h : m.manual[i]? = some e)
    (noOutcome : e.endings = 0) (e' : Execution)
    : m.Balances (reported (m.manual.set i e')[i]?)
        { m with manual := m.manual.set i e' } := by
  obtain ⟨rest, held, holds⟩ := endings_set_manual h
  obtain ⟨inBounds, -⟩ := List.getElem?_eq_some_iff.mp h
  rw [List.getElem?_set_self inBounds, Balances, held, holds, noOutcome, zero_add]
  obtain ⟨job, stage⟩ := e'
  cases stage with
  | sending result => exact (add_zero _).trans (add_comm _ _)
  | _ =>
      rw [show Execution.endings _ = 0 from rfl, zero_add]
      rfl

/-- A handler that panics leaves no outcome behind. -/
theorem balances_panicked {i : Nat} {job : EnqueuedJob} {args : Args}
    (h : m.workers[i]? = some ⟨job, .executing args⟩)
    : m.Balances (QueueManager.panicked m.workers[i]?)
        { m with workers := m.workers.set i ⟨job, .finished⟩ } := by
  obtain ⟨rest, held, holds⟩ := endings_set_worker h
  simp only [Balances, held, holds, h, QueueManager.panicked, Execution.endings, Signal.leaves,
    Signal.finishes]

theorem balances_panickedManual {i : Nat} {job : EnqueuedJob} {args : Args}
    (h : m.manual[i]? = some ⟨job, .executing args⟩)
    : m.Balances (QueueManager.panicked m.manual[i]?)
        { m with manual := m.manual.set i ⟨job, .finished⟩ } := by
  obtain ⟨rest, held, holds⟩ := endings_set_manual h
  simp only [Balances, held, holds, h, QueueManager.panicked, Execution.endings, Signal.leaves,
    Signal.finishes]

/-- The outcome goes from the goroutine to the channel. -/
theorem balances_sent {i : Nat} {job : EnqueuedJob} {result : JobResult}
    (h : m.workers[i]? = some ⟨job, .sending result⟩)
    : m.Balances .internal
        { m with workers := m.workers.set i ⟨job, .finished⟩,
                 jobResults := m.jobResults ++ [result] } := by
  obtain ⟨rest, held, holds⟩ := endings_set_worker h
  have moved := endings_append_result { m with workers := m.workers.set i ⟨job, .finished⟩ }
    result
  apply balances_internal
  rw [held, moved, holds]
  change 0 + rest + {.result result} = {.result result} + rest
  abel

theorem balances_sentManual {i : Nat} {job : EnqueuedJob} {result : JobResult}
    (h : m.manual[i]? = some ⟨job, .sending result⟩)
    : m.Balances .internal
        { m with manual := m.manual.set i ⟨job, .finished⟩,
                 jobResults := m.jobResults ++ [result] } := by
  obtain ⟨rest, held, holds⟩ := endings_set_manual h
  have moved := endings_append_result { m with manual := m.manual.set i ⟨job, .finished⟩ }
    result
  apply balances_internal
  rw [held, moved, holds]
  change 0 + rest + {.result result} = {.result result} + rest
  abel

theorem step_balances {action : Action} (inv : m.Started)
    (h : m.step s action = some (s', m', event))
    : m.Balances (m.signal action m') m' := by
  cases step_moves h with
  | start idle =>
      have off : m.processor.endings = 0 := by
        rw [inv.mpr idle]
        rfl
      apply balances_internal
      simp only [endings, off]
      rfl
  | unlockRefused | unlockLost | crash => exact balances_crash m
  | acquired =>
      apply balances_internal
      simp only [endings, total_append, total_cons, total_nil, Execution.endings, add_zero]
  | entered found | refused found | executed found => exact balances_worker found rfl _
  | panicked found => exact balances_panicked found
  | sent found => exact balances_sent found
  | finished found =>
      apply balances_internal
      unfold endings
      rw [total_eraseIdx Execution.endings found, Execution.endings, zero_add]
  | foundByID =>
      apply balances_internal
      simp only [endings, total_append, total_cons, total_nil, Execution.endings, add_zero]
  | enteredManual found | refusedManual found =>
      obtain ⟨rest, held, holds⟩ := endings_set_manual found
      apply balances_internal
      rw [held, holds, Execution.endings, Execution.endings]
  | executedManual found => exact balances_manual found rfl _
  | panickedManual found => exact balances_panickedManual found
  | sentManual found => exact balances_sentManual found
  | received receiving buffered =>
      apply balances_internal
      simp only [endings, receiving, buffered, Processor.endings, total_cons, add_zero]
      abel
  | unrecorded recording | recorded recording =>
      simp only [Balances, signal, endings, recording, Processor.passes, Processor.endings,
        Signal.leaves, Signal.finishes, add_zero]
  | stopped receiving =>
      apply balances_internal
      simp only [endings, receiving, Processor.endings]
  | _ => exact balances_internal rfl

/-- Only the ends of Start and of the process are no routine. -/
theorem signal_routine (m m' : Manager) (action : Action)
    : (m.signal action m').routine = true ∨ action = .waitDone ∨ action = .crash
      ∨ ∃ delivery, action = .unlockStaleJobs delivery := by
  have report (e : Option Execution) : (reported e).routine = true := by
    simp only [reported]
    split
    · rfl
    · rfl
  have panic (e : Option Execution) : (QueueManager.panicked e).routine = true := by
    cases e with
    | none => rfl
    | some e => rfl
  cases action with
  | unlockStaleJobs delivery => exact Or.inr (Or.inr (Or.inr ⟨delivery, rfl⟩))
  | crash => exact Or.inr (Or.inr (Or.inl rfl))
  | waitDone => exact Or.inr (Or.inl rfl)
  | enter => exact Or.inl (report _)
  | execute i outcome =>
      cases outcome with
      | returned => exact Or.inl (report _)
      | panicked => exact Or.inl (panic _)
  | executeManual i outcome =>
      cases outcome with
      | returned => exact Or.inl (report _)
      | panicked => exact Or.inl (panic _)
  | record delivery =>
      left
      simp only [signal, Processor.passes]
      split
      · rfl
      · rfl
  | _ => exact Or.inl rfl

theorem crashed_of_died {action : Action} (h : m.step s action = some (s', m', event))
    {endings : Multiset HandlerEnd} (died : .died endings = m.signal action m')
    : m'.poll = .crashed := by
  rcases signal_routine m m' action with routine | rfl | rfl | ⟨delivery, rfl⟩
  · rw [← died] at routine
    cases routine
  · cases died
  · cases h
    rfl
  · cases step_moves h with
    | unlocked => cases died
    | unlockRefused | unlockLost => rfl

theorem waiting_of_returned {action : Action} (h : m.step s action = some (s', m', event))
    (returned : .returned = m.signal action m')
    : m.poll = .waiting := by
  rcases signal_routine m m' action with routine | rfl | rfl | ⟨delivery, rfl⟩
  · rw [← returned] at routine
    cases routine
  · cases step_moves h with
    | returned waiting => exact waiting
  · cases returned
  · cases delivery with
    | _ => cases returned

/-- The goroutines of an enqueue manager pass outcomes on. -/
theorem resultPipeline
    : ResultPipeline Manager.endings (Acts (observe signal)) Started (·.poll = .crashed) where
  sound_step inv h := by
    obtain ⟨s, s', event, action, taken, rfl⟩ := observed h
    exact inv.step taken
  balance inv h := by
    obtain ⟨s, s', event, action, taken, rfl⟩ := observed h
    exact step_balances inv taken
  dead_of_died h := by
    obtain ⟨s, s', event, action, taken, died⟩ := observed h
    exact crashed_of_died taken died
  dead_step dead h := by
    obtain ⟨s, s', event, action, taken, rfl⟩ := observed h
    exact crashed_step dead taken
  alive_of_returned h dead := by
    obtain ⟨s, s', event, action, taken, returned⟩ := observed h
    rw [waiting_of_returned taken returned] at dead
    cases dead

end Manager

end GoFire.QueueManager
