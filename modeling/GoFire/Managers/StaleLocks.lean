import GoFire.CronManager.Board
import GoFire.QueueManager.Board
import GoFire.Store.CronRows
import GoFire.Store.QueueRows

/-! Locks that a crashed process left behind. The fetch queries of both stores look for them,
but the queue manager asks for queued and retrying rows only, and neither LockJob takes a
processing row.
-/

namespace GoFire.QueueManager

open GoFire.State GoFire.Store TransitionSystem

/-- A due row, processing under a lock older than 60 minutes, whose job nobody executes. -/
structure StaleLock (s : System) (row : EnqueuedJob) : Prop where
  mem : row ∈ s.store.jobs.rows
  processing : row.status = .processing
  expired : ∃ lockedAt ∈ row.lockedAt, lockedAt < s.store.now - 60 * GoTime.minute
  due : row.scheduledAt ≤ s.store.now
  unexecuted : s.board.executions row.id = 0

/-- The manager fetches the row, and its LockJob on the row succeeds. -/
def Manager.TakesOver (s : QueueStore) (m : Manager) (row : EnqueuedJob) : Prop :=
  ∃ order m' items, m.selectDueJobs s .answered order = some (s, m', .fetched items)
    ∧ row ∈ items ∧ (s.lockJob row.id m.name).2 = true

/-- A poll returns only rows with the statuses it asks for. -/
theorem selectDueJobs_status {s s' : QueueStore} {m m' : Manager} {order : List Nat}
    {items : List EnqueuedJob} {row : EnqueuedJob}
    (h : m.selectDueJobs s .answered order = some (s', m', .fetched items)) (mem : row ∈ items)
    : row.status ∈ pollStatuses := by
  obtain ⟨rfl, now, _, -, ⟨result, fetched, rfl, same⟩ | ⟨-, same⟩⟩ :=
    Manager.selectDueJobs_cases h
  · cases same
    have due := (QueueStore.mem_fetchDueJobs fetched mem).2
    simp only [QueueStore.isDue, Bool.and_eq_true] at due
    simpa [pollStatuses] using due.1.2
  · cases same

theorem StaleLock.not_takesOver {s : System} {row : EnqueuedJob} (stale : StaleLock s row)
    (m : Manager)
    : ¬ m.TakesOver s.store row := by
  intro h
  obtain ⟨order, m', items, fetched, mem, -⟩ := h
  have asked := selectDueJobs_status fetched mem
  rw [stale.processing] at asked
  simp [pollStatuses] at asked

end GoFire.QueueManager

namespace GoFire.CronManager

open GoFire.State GoFire.Store TransitionSystem

/-- An active due row, processing under a lock older than 60 minutes, whose job no job
goroutine executes.
-/
structure StaleLock (s : System) (row : CronJob) : Prop where
  mem : row ∈ s.store.jobs.rows
  processing : row.status = .processing
  expired : ∃ lockedAt ∈ row.lockedAt, lockedAt < s.store.now - 60 * GoTime.minute
  active : row.isActive = true
  due : CronStore.isDueAt s.store.now row = true
  unexecuted : ∀ m ∈ s.managers, ∀ worker ∈ m.workers, worker.job.id ≠ row.id

/-- The manager fetches the row, and its LockJob on the row succeeds. -/
def Manager.TakesOver (s : CronStore) (m : Manager) (row : CronJob) : Prop :=
  ∃ order m' items, m.selectDueCronJobs s .answered order = some (s, m', .fetched items)
    ∧ row ∈ items ∧ (s.lockJob row.id m.name).2 = true

/-- LockJob fails on a processing row. -/
theorem lockJob_processing {s : CronStore} {row : CronJob} (mem : row ∈ s.jobs.rows)
    (processing : row.status = .processing) (lockedBy : String)
    : (s.lockJob row.id lockedBy).2 = false := by
  by_contra locked
  obtain ⟨found, inRows, lockable⟩ := CronStore.lockJob_ok.mp (Bool.not_eq_false _ ▸ locked)
  obtain rfl := Option.some.inj (inRows.symm.trans (KeyedTable.get?_of_mem mem))
  simp [CronStore.isLockable, processing] at lockable

theorem StaleLock.not_takesOver {s : System} {row : CronJob} (stale : StaleLock s row)
    (m : Manager)
    : ¬ m.TakesOver s.store row := by
  intro h
  obtain ⟨order, m', items, -, -, locked⟩ := h
  have refused := lockJob_processing stale.mem stale.processing m.name
  rw [locked] at refused
  cases refused

end GoFire.CronManager

namespace GoFire.Managers

open GoFire.CronParser TransitionSystem

/-- In no state that the managers of either table reach does a poll take over a stale lock. -/
theorem stale_lock_never_taken_over (arith : IntArith) (now : Int)
    : (∀ log s, Runs (Acts QueueManager.System.step) (QueueManager.System.initial now) log s
        → ∀ row, QueueManager.StaleLock s row
          → ∀ m : QueueManager.Manager, ¬ m.TakesOver s.store row)
      ∧ ∀ log s,
        Runs (Acts (CronManager.System.step arith)) (CronManager.System.initial now) log s
        → ∀ row, CronManager.StaleLock s row
          → ∀ m : CronManager.Manager, ¬ m.TakesOver s.store row :=
  ⟨fun _ _ _ _ stale => stale.not_takesOver, fun _ _ _ _ stale => stale.not_takesOver⟩

-----------------------------------------------------------------------------------------
-- A process crashes while it executes a job, and 61 minutes pass
-----------------------------------------------------------------------------------------

/-- The second manager of the queue table runs; the first crashes under its job. -/
def crashesQueued : List QueueManager.SystemAction :=
  QueueManager.twoManagers ++ QueueManager.begins 0 ++ QueueManager.begins 1
    ++ QueueManager.polls 0 ++ QueueManager.takesJob 0 ++ [.manager 0 .crash, .pass 3660000000000]

/-- The second manager of the cron table runs; the first crashes under its job. -/
def crashesScheduled : List CronManager.SystemAction :=
  CronManager.schedulesJob ++ CronManager.passesMinute ++ CronManager.polls 0
    ++ [CronManager.locksJob 0] ++ [.acquire, .enter 0, .crash].map (.manager 0)
    ++ [.pass 3660000000000]

theorem crashesQueued_stale
    : ∃ s log row, perform QueueManager.System.step (QueueManager.System.initial 0) crashesQueued
          = some (s, log)
        ∧ QueueManager.StaleLock s row :=
  ⟨_, _, _, rfl, .head _, rfl, ⟨_, rfl, by decide⟩, by decide, rfl⟩

set_option maxRecDepth 2000 in
theorem crashesScheduled_stale
    : ∃ s log row, perform (CronManager.System.step unbounded) (CronManager.System.initial 0)
          crashesScheduled = some (s, log)
        ∧ CronManager.StaleLock s row :=
  ⟨_, _, _, rfl, .head _, rfl, ⟨_, rfl, by decide⟩, rfl, by decide, by decide⟩

theorem stale_lock_never_taken_over_crashed
    : (∃ s log row, perform QueueManager.System.step (QueueManager.System.initial 0) crashesQueued
            = some (s, log)
          ∧ QueueManager.StaleLock s row
          ∧ ∀ m : QueueManager.Manager, ¬ m.TakesOver s.store row)
      ∧ ∃ s log row, perform (CronManager.System.step unbounded) (CronManager.System.initial 0)
            crashesScheduled = some (s, log)
          ∧ CronManager.StaleLock s row
          ∧ ∀ m : CronManager.Manager, ¬ m.TakesOver s.store row := by
  obtain ⟨s, log, row, performed, stale⟩ := crashesQueued_stale
  obtain ⟨s', log', row', performed', stale'⟩ := crashesScheduled_stale
  refine ⟨⟨s, log, row, performed, stale, ?_⟩, s', log', row', performed', stale', ?_⟩
  · exact (stale_lock_never_taken_over unbounded 0).1 _ _ (runs_of_perform performed) _ stale
  · exact (stale_lock_never_taken_over unbounded 0).2 _ _ (runs_of_perform performed') _ stale'

set_option maxRecDepth 2000 in
/-- The other manager polls with room in its batch. It does not see the stale row of the queue
table; it sees the one of the cron table, and its LockJob fails.
-/
theorem stale_locks_left
    : (∃ s log row s', perform QueueManager.System.step (QueueManager.System.initial 0)
            crashesQueued = some (s, log)
          ∧ QueueManager.StaleLock s row
          ∧ perform QueueManager.System.step s
              ([.loop, .countDueJobs .answered, .selectDueJobs .answered []].map (.manager 1))
            = some (s', [.internal, .internal, .fetched []]))
      ∧ ∃ s log row s' s'', perform (CronManager.System.step unbounded)
            (CronManager.System.initial 0) crashesScheduled = some (s, log)
          ∧ CronManager.StaleLock s row
          ∧ perform (CronManager.System.step unbounded) s (CronManager.polls 1)
            = some (s', [.internal, .internal, .fetched [row]])
          ∧ CronManager.System.step unbounded s' (CronManager.locksJob 1)
            = some (s'', .internal)
          ∧ s''.store = s'.store :=
  ⟨⟨_, _, _, _, rfl, ⟨.head _, rfl, ⟨_, rfl, by decide⟩, by decide, rfl⟩, rfl⟩,
    _, _, _, _, _, rfl, ⟨.head _, rfl, ⟨_, rfl, by decide⟩, rfl, by decide, by decide⟩, rfl,
    rfl, rfl⟩

end GoFire.Managers
