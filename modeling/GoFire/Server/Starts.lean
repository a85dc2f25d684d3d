import GoFire.CronManager.ManagerSteps
import GoFire.QueueManager.ManagerSteps
import GoFire.Server.Lifecycle

/-! Start of both managers returns only when its context is cancelled, as the servers rely on: once a
manager is past its loop, its context is cancelled, and stays so.
-/

namespace GoFire.QueueManager

open GoFire.Store TransitionSystem

/-- Past the loop of Start the context is cancelled. -/
def Manager.EndsCancelled (m : Manager) : Prop :=
  m.poll = .waiting ∨ m.poll = .returned → m.cancelled = true

theorem Manager.endsCancelled_step {s s' : QueueStore} {m m' : Manager} {action : Action}
    {event : Event} (before : m.EndsCancelled) (h : m.step s action = some (s', m', event))
    : m'.EndsCancelled := by
  cases step_moves h with
  | ended _ cancelled => exact fun _ => cancelled
  | cancel | crash | unlockRefused | unlockLost => exact fun _ => rfl
  | returned waiting => exact fun _ => before (Or.inl waiting)
  | start | unlocked | began | counted | countFailed | fetched | selectFailed | locked | passedOver
  | lockLost | acquired | acquireFailed | batchEnded | woke =>
      intro past
      rcases past with waiting | returned
      · cases waiting
      · cases returned
  | _ => exact before

/-- A step of a manager on any tables. -/
def Manager.Steps (m : Manager) (event : Event) (m' : Manager) : Prop :=
  ∃ s s' action, m.step s action = some (s', m', event)

theorem Manager.returned_cancelled {name : String} {handlers : List String} {log : List Event}
    {m : Manager} (run : Runs Manager.Steps { name, handlers } log m) (returned : m.poll = .returned)
    : m.cancelled = true := by
  have ends : m.EndsCancelled := by
    refine run.invariant (fun _ m => m.EndsCancelled) ?_ ?_
    · intro past
      rcases past with waiting | returned
      · cases waiting
      · cases returned
    · intro _ m event m' before h
      obtain ⟨s, s', action, h⟩ := h
      exact endsCancelled_step before h
  exact ends (Or.inr returned)

end GoFire.QueueManager

namespace GoFire.CronManager

open GoFire.CronParser GoFire.Store TransitionSystem

/-- Past the loop of Start the context is cancelled. -/
def Manager.EndsCancelled (m : Manager) : Prop :=
  m.poll = .waiting ∨ m.poll = .returned → m.cancelled = true

theorem Manager.endsCancelled_step {arith : IntArith} {s s' : CronStore} {m m' : Manager}
    {action : Action} {event : Event} (before : m.EndsCancelled)
    (h : m.step arith s action = some (s', m', event))
    : m'.EndsCancelled := by
  cases step_moves h with
  | ended _ cancelled => exact fun _ => cancelled
  | cancel | crash | panicked => exact fun _ => rfl
  | returned waiting => exact fun _ => before (Or.inl waiting)
  | @pageEnded page more =>
      intro past
      cases more with
      | true | false =>
          rcases past with waiting | returned
          · cases waiting
          · cases returned
  | start | began | counted | countFailed | fetched | selectFailed | locked | passedOver
  | lockLost | acquired | acquireFailed | woke =>
      intro past
      rcases past with waiting | returned
      · cases waiting
      · cases returned
  | _ => exact before

/-- A step of a manager on any tables. -/
def Manager.Steps (arith : IntArith) (m : Manager) (event : Event) (m' : Manager) : Prop :=
  ∃ s s' action, m.step arith s action = some (s', m', event)

theorem Manager.returned_cancelled {arith : IntArith} {name : String} {handlers : List String}
    {loc : GoTime.Location} {log : List Event} {m : Manager}
    (run : Runs (Manager.Steps arith) { name, handlers, loc } log m) (returned : m.poll = .returned)
    : m.cancelled = true := by
  have ends : m.EndsCancelled := by
    refine run.invariant (fun _ m => m.EndsCancelled) ?_ ?_
    · intro past
      rcases past with waiting | returned
      · cases waiting
      · cases returned
    · intro _ m event m' before h
      obtain ⟨s, s', action, h⟩ := h
      exact endsCancelled_step before h
  exact ends (Or.inr returned)

end GoFire.CronManager
