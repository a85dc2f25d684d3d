import GoFire.CronManager.GoroutineResults
import GoFire.QueueManager.GoroutineResults

/-! Every execution of a locked job sends exactly one result, unless a handler panics: the queue
manager recovers from the panic without a result, and in the cron manager it ends the process.
-/

namespace GoFire.Managers

open GoFire.State GoFire.Store GoFire.CronParser TransitionSystem

/-- In every run, a job goroutine that has ended has settled its job exactly when its handler did
not panic (queue) or no handler did (cron), and it can always come to its end.
-/
theorem settled_unless_panic (arith : IntArith) (behaviour : Args → HandlerOutcome)
    : (∀ (m : QueueManager.Manager) (i : Nat) (job : EnqueuedJob),
        m.workers[i]? = some ⟨job, .entered⟩ → m.poll ≠ .crashed
        → (∀ log f, Runs (Acts (QueueManager.view behaviour).follow) ⟨m, some i, []⟩ log f → f.Done
            → (QueueManager.Settled behaviour m.handlers job f
              ↔ ¬ QueueManager.JobPanics behaviour m.handlers job))
          ∧ (m.jobResults.length < resultCapacity
            → Leads (QueueManager.view behaviour).follow Followed.Done ⟨m, some i, []⟩))
      ∧ ∀ (m : CronManager.Manager) (i : Nat) (job : CronJob),
        m.workers[i]? = some ⟨job, .entered⟩ → m.poll ≠ .crashed
        → (∀ log f, Runs (Acts (CronManager.view arith behaviour).follow) ⟨m, some i, []⟩ log f
            → f.Done
            → (CronManager.Settled behaviour m.handlers job f
              ↔ ∀ action ∈ log, action.panics = false))
          ∧ (m.jobResults.length < resultCapacity
            → Leads (CronManager.view arith behaviour).follow Followed.Done ⟨m, some i, []⟩) := by
  refine ⟨fun m i job found alive => ⟨fun log f run ended => ?_, fun room => ?_⟩,
    fun m i job found alive => ⟨fun log f run ended => ?_, fun room => ?_⟩⟩
  · exact QueueManager.settled_iff found alive run ended
  · exact QueueManager.leads_enter ⟨.empty, 0⟩ found room []
  · exact CronManager.settled_iff found alive run ended
  · exact CronManager.leads_enter ⟨.empty, 0⟩ found room []

/-- An enqueue manager with the goroutine of a job it has locked. -/
def queueFirst : QueueManager.Manager :=
  { name := "a", handlers := ["mail"], poll := .locking [], processor := .receiving,
    workers := [⟨QueueStore.newJob "mail" .null 0 0 1, .entered⟩] }

/-- So for a cron manager. -/
def cronFirst : CronManager.Manager :=
  { name := "a", handlers := ["mail"], loc := GoTime.utc, poll := .locking [] 1 false,
    workers := [⟨CronStore.newJob "mail" 60000000000 "* * * * *" .null 0 1, .entered⟩] }

/-- Executions whose handlers return nil settle their jobs. -/
theorem settled_unless_panic_first
    : (∃ f own, perform (QueueManager.view fun _ => .returned none).follow ⟨queueFirst, some 0, []⟩
            [ (⟨.empty, 0⟩, .enter 0), (⟨.empty, 0⟩, .execute 0 (.returned none)),
              (⟨.empty, 0⟩, .send 0), (⟨.empty, 0⟩, .finish 0) ]
          = some (f, own)
        ∧ QueueManager.Settled (fun _ => .returned none) queueFirst.handlers
            (QueueStore.newJob "mail" .null 0 0 1) f)
      ∧ ∃ f own, perform (CronManager.view unbounded fun _ => .returned none).follow
            ⟨cronFirst, some 0, []⟩
            [ (⟨.empty, 0⟩, .enter 0), (⟨.empty, 0⟩, .execute 0 (.returned none)),
              (⟨.empty, 0⟩, .send 0), (⟨.empty, 0⟩, .finish 0) ]
          = some (f, own)
        ∧ CronManager.Settled (fun _ => .returned none) cronFirst.handlers
            (CronStore.newJob "mail" 60000000000 "* * * * *" .null 0 1) f := by
  obtain ⟨queue, cron⟩ := settled_unless_panic unbounded fun _ => .returned none
  constructor
  · have performed := show perform (QueueManager.view fun _ => .returned none).follow
        ⟨queueFirst, some 0, []⟩
        [ (⟨.empty, 0⟩, .enter 0), (⟨.empty, 0⟩, .execute 0 (.returned none)),
          (⟨.empty, 0⟩, .send 0), (⟨.empty, 0⟩, .finish 0) ]
      = some (_, _) from rfl
    have settles := (queue _ 0 _ rfl QueueManager.Poll.noConfusion).1 _ _
      (runs_of_perform performed) rfl
    exact ⟨_, _, performed, settles.mpr fun ⟨_, _, panics⟩ => HandlerOutcome.noConfusion panics⟩
  · have performed := show perform (CronManager.view unbounded fun _ => .returned none).follow
        ⟨cronFirst, some 0, []⟩
        [ (⟨.empty, 0⟩, .enter 0), (⟨.empty, 0⟩, .execute 0 (.returned none)),
          (⟨.empty, 0⟩, .send 0), (⟨.empty, 0⟩, .finish 0) ]
      = some (_, _) from rfl
    have settles := (cron _ 0 _ rfl CronManager.Poll.noConfusion).1 _ _
      (runs_of_perform performed) rfl
    exact ⟨_, _, performed, settles.mpr (by simp [CronManager.Action.panics])⟩

/-- An enqueue manager locks its first job and starts its goroutine. -/
def queueLocksFirst : List QueueManager.SystemAction :=
  QueueManager.oneManager ++ QueueManager.begins 0 ++ QueueManager.polls 0
    ++ [.lockJob .answered, .acquire].map (.manager 0)

/-- So does a cron manager, a minute after the job was scheduled. -/
def cronLocksFirst : List CronManager.SystemAction :=
  CronManager.schedulesJob ++ CronManager.passesMinute ++ CronManager.polls 0
    ++ [CronManager.locksJob 0, .manager 0 .acquire]

set_option maxRecDepth 4000 in
/-- A panic leaves the locked job of an enqueue manager in processing without a result, and ends
the process of a cron manager.
-/
theorem panic_unsettled
    : (∃ s log m job f own, perform QueueManager.System.step (QueueManager.System.initial 0)
          queueLocksFirst = some (s, log)
        ∧ s.managers[0]? = some m ∧ m.workers[0]? = some ⟨job, .entered⟩
        ∧ (s.store.jobs.get? job.id).map EnqueuedJob.status = some .processing
        ∧ perform (QueueManager.view fun _ => .panicked).follow ⟨m, some 0, []⟩
            [(s.store, .enter 0), (s.store, .execute 0 .panicked), (s.store, .finish 0)]
          = some (f, own)
        ∧ f.Done ∧ ¬ QueueManager.Settled (fun _ => .panicked) m.handlers job f)
      ∧ ∃ s log m job f own, perform (CronManager.System.step unbounded)
          (CronManager.System.initial 0) cronLocksFirst = some (s, log)
        ∧ s.managers[0]? = some m ∧ m.workers[0]? = some ⟨job, .entered⟩
        ∧ (s.store.jobs.get? job.id).map CronJob.status = some .processing
        ∧ perform (CronManager.view unbounded fun _ => .panicked).follow ⟨m, some 0, []⟩
            [(s.store, .enter 0), (s.store, .execute 0 .panicked)]
          = some (f, own)
        ∧ f.Done ∧ ¬ CronManager.Settled (fun _ => .panicked) m.handlers job f := by
  refine ⟨⟨_, _, _, _, _, _, rfl, rfl, rfl, rfl, rfl, rfl, ?_⟩,
    ⟨_, _, _, _, _, _, rfl, rfl, rfl, rfl, rfl, rfl, ?_⟩⟩
  · intro h
    obtain ⟨-, result, one, -⟩ := h
    cases one
  · intro h
    obtain ⟨running, -⟩ := h
    exact running rfl

end GoFire.Managers
