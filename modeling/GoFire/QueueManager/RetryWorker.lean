import GoFire.QueueManager.Lifecycle

/-! The retry worker of an enqueue manager: how long it runs and how often it sweeps. It returns
when it cannot acquire its lock, while it goes on after every other error.
-/

namespace GoFire.QueueManager

open GoFire.Store TransitionSystem

/-- What a step does for the retry worker; a sweep may fail. -/
inductive WorkerEvent where
  | other
  | ticked
  | acquired
  | acquireFailed
  | swept (delivery : Delivery)
  | released
deriving DecidableEq

def WorkerEvent.isAcquire : WorkerEvent → Bool
  | .acquired => true
  | _ => false

def WorkerEvent.isSweep : WorkerEvent → Bool
  | .swept _ => true
  | _ => false

namespace Manager

def workerEvent (_ : Manager) (action : Action) (_ : Manager) : WorkerEvent :=
  match action with
  | .tick => .ticked
  | .acquireRetryLock true => .acquired
  | .acquireRetryLock false => .acquireFailed
  | .markRetryFailedJobs delivery => .swept delivery
  | .releaseRetryLock => .released
  | _ => .other

/-- The sweeps that are due for the lock the worker holds. -/
def sweepsDue (m : Manager) : Nat :=
  match m.retryWorker with
  | .sweeping => 1
  | _ => 0

/-- The worker runs, has swept the store once for every tick at which it acquired its lock, and
sweeps again when the next acquisition succeeds.
-/
structure KeepsSweeping (log : List WorkerEvent) (m : Manager) : Prop where
  running : m.retryWorker ≠ .stopped
  sweeps : log.countP WorkerEvent.isAcquire = log.countP WorkerEvent.isSweep + m.sweepsDue
  next : ∀ (s : QueueStore) (delivery : Delivery),
    ∃ (actions : List Action) (m' : Manager) (log' : List WorkerEvent),
      perform (observe workerEvent) m (actions.map (s, ·)) = some (m', log')
        ∧ .acquireFailed ∉ log' ∧ .swept delivery ∈ log'

variable {log : List WorkerEvent} {m : Manager}

/-- As long as the worker has not stopped, its own steps lead to the next sweep. -/
theorem sweeps_next (running : m.retryWorker ≠ .stopped) (s : QueueStore) (delivery : Delivery)
    : ∃ (actions : List Action) (m' : Manager) (log' : List WorkerEvent),
      perform (observe workerEvent) m (actions.map (s, ·)) = some (m', log')
        ∧ .acquireFailed ∉ log' ∧ .swept delivery ∈ log' := by
  have sweep (m : Manager) (sweeping : m.retryWorker = .sweeping)
      : observe workerEvent m (s, .markRetryFailedJobs delivery)
        = some ({ m with retryWorker := .releasing }, .swept delivery) := by
    cases delivery <;>
      simp only [observe, step, markRetryFailedJobs, sweeping, workerEvent, Option.map_some]
  have acquire (m : Manager) (acquiring : m.retryWorker = .acquiring)
      : observe workerEvent m (s, .acquireRetryLock true)
        = some ({ m with retryWorker := .sweeping }, .acquired) := by
    simp only [observe, step, acquireRetryLock, acquiring, workerEvent, Option.map_some, if_true]
  have tick (m : Manager) (waiting : m.retryWorker = .waiting)
      : observe workerEvent m (s, .tick)
        = some ({ m with retryWorker := .acquiring }, .ticked) := by
    simp only [observe, step, Manager.tick, waiting, workerEvent, Option.map_some]
  have release (m : Manager) (releasing : m.retryWorker = .releasing)
      : observe workerEvent m (s, .releaseRetryLock)
        = some ({ m with retryWorker := .waiting }, .released) := by
    simp only [observe, step, releaseRetryLock, releasing, workerEvent, Option.map_some]
  have fromSweeping (m : Manager) (sweeping : m.retryWorker = .sweeping) :=
    perform_cons (sweep m sweeping) (rfl : perform _ _ [] = _)
  have fromAcquiring (m : Manager) (acquiring : m.retryWorker = .acquiring) :=
    perform_cons (acquire m acquiring) (fromSweeping _ rfl)
  have fromWaiting (m : Manager) (waiting : m.retryWorker = .waiting) :=
    perform_cons (tick m waiting) (fromAcquiring _ rfl)
  cases worker : m.retryWorker with
  | sweeping =>
      exact ⟨[.markRetryFailedJobs delivery], _, _, fromSweeping m worker, by simp, by simp⟩
  | acquiring =>
      exact ⟨[.acquireRetryLock true, .markRetryFailedJobs delivery], _, _,
        fromAcquiring m worker, by simp, by simp⟩
  | waiting =>
      exact ⟨[.tick, .acquireRetryLock true, .markRetryFailedJobs delivery], _, _,
        fromWaiting m worker, by simp, by simp⟩
  | releasing =>
      exact ⟨[.releaseRetryLock, .tick, .acquireRetryLock true, .markRetryFailedJobs delivery], _, _,
        perform_cons (release m worker) (fromWaiting _ rfl), by simp, by simp⟩
  | stopped => exact absurd worker running

/-- While the process runs, the worker has stopped exactly if an acquisition failed, and it has
swept once for every other one.
-/
structure WorkerInv (log : List WorkerEvent) (m : Manager) : Prop where
  stopped : m.retryWorker = .stopped ↔ .acquireFailed ∈ log
  sweeps : log.countP WorkerEvent.isAcquire = log.countP WorkerEvent.isSweep + m.sweepsDue

/-- An event keeps the balance of acquisitions and sweeps when it keeps its own. -/
theorem sweeps_append {e : WorkerEvent} {due due' : Nat}
    (sweeps : log.countP WorkerEvent.isAcquire = log.countP WorkerEvent.isSweep + due)
    (balance : due + [e].countP WorkerEvent.isAcquire = [e].countP WorkerEvent.isSweep + due')
    : (log ++ [e]).countP WorkerEvent.isAcquire
      = (log ++ [e]).countP WorkerEvent.isSweep + due' := by
  rw [List.countP_append, List.countP_append, sweeps, Nat.add_assoc, balance, Nat.add_assoc]

theorem WorkerInv.step {m' : Manager} {e : WorkerEvent} (inv : WorkerInv log m)
    (h : Acts (observe workerEvent) m e m') (alive : m'.poll ≠ .crashed)
    : WorkerInv (log ++ [e]) m' := by
  obtain ⟨s, s', event, action, taken, rfl⟩ := observed h
  obtain ⟨stopped, sweeps⟩ := inv
  -- a step that leaves the worker in its state
  have quiet (same : m'.retryWorker = m.retryWorker) (silent : workerEvent m action m' = .other)
      : WorkerInv (log ++ [workerEvent m action m']) m' := by
    have due : m'.sweepsDue = m.sweepsDue := by simp only [sweepsDue, same]
    rw [silent]
    refine ⟨by simpa [same] using stopped, sweeps_append sweeps ?_⟩
    rw [due]
    exact (Nat.zero_add _).symm
  cases step_moves taken with
  | unlockRefused | unlockLost | crash => exact absurd rfl alive
  | ticked waiting =>
      simp only [sweepsDue, waiting] at sweeps
      rw [waiting] at stopped
      exact ⟨by simpa [workerEvent] using stopped, sweeps_append sweeps rfl⟩
  | @retryLocked acquired acquiring =>
      simp only [sweepsDue, acquiring] at sweeps
      rw [acquiring] at stopped
      cases acquired with
      | true => exact ⟨by simpa [workerEvent] using stopped, sweeps_append sweeps rfl⟩
      | false => exact ⟨by simp [workerEvent], sweeps_append sweeps rfl⟩
  | sweepFailed sweeping | swept sweeping =>
      simp only [sweepsDue, sweeping] at sweeps
      rw [sweeping] at stopped
      exact ⟨by simpa [workerEvent] using stopped, sweeps_append sweeps rfl⟩
  | retryReleased releasing =>
      simp only [sweepsDue, releasing] at sweeps
      rw [releasing] at stopped
      exact ⟨by simpa [workerEvent] using stopped, sweeps_append sweeps rfl⟩
  | _ => exact quiet rfl rfl

theorem workerInv_of_run {name : String} {handlers : List String}
    (run : Runs (Acts (observe workerEvent)) { name, handlers } log m) (alive : m.poll ≠ .crashed)
    : WorkerInv log m := by
  refine run.invariant (fun log m => m.poll ≠ .crashed → WorkerInv log m) ?_ ?_ alive
  · exact fun _ => ⟨by simp, rfl⟩
  · intro log m e m' inv h alive
    refine (inv fun dead => alive ?_).step h alive
    obtain ⟨s, s', event, action, taken, -⟩ := observed h
    exact crashed_step dead taken

/-- In every run of a manager whose process has not ended, the retry worker keeps sweeping if and
only if it never failed to acquire its lock, whatever the other errors were.
-/
theorem keeps_sweeping_iff {name : String} {handlers : List String}
    (run : Runs (Acts (observe workerEvent)) { name, handlers } log m) (alive : m.poll ≠ .crashed)
    : KeepsSweeping log m ↔ .acquireFailed ∉ log := by
  have inv := workerInv_of_run run alive
  constructor
  · exact fun keeps failed => keeps.running (inv.stopped.mpr failed)
  · intro unfailed
    have running : m.retryWorker ≠ .stopped := fun stopped => unfailed (inv.stopped.mp stopped)
    exact ⟨running, inv.sweeps, sweeps_next running⟩

/-- A sweep that fails does not stop the worker. -/
theorem keeps_sweeping_iff_failedSweep
    : ∃ m log, perform (observe workerEvent) { name := "a", handlers := [] }
          ([ .tick, .acquireRetryLock true, .markRetryFailedJobs .refused, .releaseRetryLock,
             .tick ].map ((⟨.empty, 0⟩ : QueueStore), ·))
        = some (m, log)
      ∧ KeepsSweeping log m := by
  have performed := show perform (observe workerEvent) { name := "a", handlers := [] }
      ([ .tick, .acquireRetryLock true, .markRetryFailedJobs .refused, .releaseRetryLock,
         .tick ].map ((⟨.empty, 0⟩ : QueueStore), ·))
    = some (_, _) from rfl
  exact ⟨_, _, performed,
    (keeps_sweeping_iff (runs_of_perform performed) Poll.noConfusion).mpr (by decide)⟩

/-- One failed acquisition stops the worker for good: it takes no further tick. -/
theorem failed_acquisition_stops
    : ∃ m log, perform (observe workerEvent) { name := "a", handlers := [] }
          ([.tick, .acquireRetryLock false].map ((⟨.empty, 0⟩ : QueueStore), ·))
        = some (m, log)
      ∧ m.retryWorker = .stopped ∧ (∀ s, m.tick s = none) ∧ ¬ KeepsSweeping log m :=
  ⟨_, _, rfl, rfl, fun _ => rfl, fun keeps => keeps.running rfl⟩

end Manager

end GoFire.QueueManager
