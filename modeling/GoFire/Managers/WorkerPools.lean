import GoFire.CronManager.ManagerSteps
import GoFire.Foundations.WorkerPool
import GoFire.QueueManager.ManagerSteps
import GoFire.Store.RowLookup

/-! The semaphore and the wait group of the two managers, each operation a step of its own: the
poll loop acquires a permit, adds to the wait group and starts the goroutine, and the two deferred
calls of the goroutine come one after the other. The store may be any at each step.
-/

namespace GoFire

open GoFire.State GoFire.Store GoFire.CronParser TransitionSystem WorkerPool

-----------------------------------------------------------------------------------------
-- The queue manager
-----------------------------------------------------------------------------------------

namespace QueueManager

def Execution.isExecuting : Execution → Bool
  | ⟨_, .executing _⟩ => true
  | _ => false

namespace Manager

/-- The handlers that run, those of manual executions included. -/
def handlersAtWork (m : Manager) : Nat :=
  m.workers.countP Execution.isExecuting + m.manual.countP Execution.isExecuting

/-- An error of UnlockStaleJobs ends the process. -/
def role : QueueStore × Action → Role
  | (_, .start _ _) | (_, .crash) => .outside
  | (_, .unlockStaleJobs delivery) => if delivery = .answered then .loop else .outside
  | (_, .loop) | (_, .countDueJobs _) | (_, .selectDueJobs _ _) | (_, .lockJob _)
  | (_, .acquireFailed) | (_, .endBatch) | (_, .wake) => .loop
  | (_, .acquire) => .acquire
  | (_, .waitDone) => .wait
  | (_, .enter i) | (_, .execute i _) | (_, .send i) => .body i
  | (_, .finish i) => .leave i
  | _ => .free

/-- A step of the manager, where ExecuteJobManually goes on only with a row that FindByID
returns.
-/
def stepOn (m : Manager) (action : QueueStore × Action) : Option Manager :=
  match action with
  | (s, .findByID jobID delivery) =>
      match s.findByID jobID delivery with
      | .returned _ => (m.findByID s jobID delivery).map fun next => next.2.1
      | _ => some m
  | (s, action) => (m.step s action).map fun next => next.2.1

theorem findByID_not_returned (s : QueueStore) (jobID : Nat) (delivery : Delivery)
    (job : EnqueuedJob)
    : s.findByID jobID delivery ≠ .returned job := by
  by_cases answered : delivery = .answered
  · rw [answered, QueueStore.findByID_answered]
    exact nofun
  · rw [QueueStore.findByID_unanswered s jobID answered]
    exact nofun

/-- A lookup changes nothing; every other action moves the manager. -/
theorem stepOn_cases {m m' : Manager} {s : QueueStore} {action : Action}
    (h : m.stepOn (s, action) = some m')
    : (m' = m ∧ role (s, action) = .free)
      ∨ ∃ s' event, m.Moves s action (s', m', event) ∧ ∀ jobID delivery,
          action ≠ .findByID jobID delivery := by
  cases action with
  | findByID jobID delivery =>
      simp only [stepOn] at h
      split at h
      case h_1 job returned => exact absurd returned (findByID_not_returned s jobID delivery job)
      case h_2 =>
        cases h
        exact Or.inl ⟨rfl, rfl⟩
  | _ =>
      simp only [stepOn, Option.map_eq_some_iff] at h
      obtain ⟨⟨s', m'', event⟩, stepped, rfl⟩ := h
      exact Or.inr ⟨s', event, step_moves stepped, fun _ _ => Action.noConfusion⟩

/-- The queue manager as a host: handleJob first releases its permit. -/
def host : Host Manager (QueueStore × Action) where
  first := .release
  step := stepOn
  role := role
  workers := fun m => m.workers.length
  permits := permits
  changes := by
    intro m m' action h
    obtain ⟨s, action⟩ := action
    rcases stepOn_cases h with ⟨rfl, free⟩ | ⟨s', event, moves, -⟩
    · rw [free]
      exact ⟨rfl, rfl⟩
    · cases moves with
      | acquired acquiring free live =>
          refine ⟨?_, (Nat.sub_add_cancel free).symm⟩
          simp
      | finished found => exact ⟨(perm_eraseIdx found).length_eq, rfl⟩
      | start | crash | unlockRefused | unlockLost => trivial
      | entered | refused | executed | panicked | sent =>
          refine ⟨?_, rfl⟩
          simp
      | _ => exact ⟨rfl, rfl⟩

theorem manual_nil_of_stepOn (m : Manager) (action : QueueStore × Action) (m' : Manager)
    (none : m.manual = []) (h : m.stepOn action = some m')
    : m'.manual = [] := by
  obtain ⟨s, action⟩ := action
  rcases stepOn_cases h with ⟨rfl, -⟩ | ⟨s', event, moves, notFound⟩
  · exact none
  · cases moves with
    | foundByID => exact absurd rfl (notFound _ _)
    | enteredManual found | refusedManual found | executedManual found | panickedManual found
    | sentManual found =>
        rw [none] at found
        cases found
    | crash | unlockRefused | unlockLost => rfl
    | _ => exact none

/-- A manager right after the call of Start. -/
def started (name : String) (handlers : List String) (workerCount batchSize : Nat) : Manager :=
  { name, handlers, poll := .unlocking, permits := workerCount, batchSize,
    processor := .receiving }

end Manager

end QueueManager

-----------------------------------------------------------------------------------------
-- The cron manager
-----------------------------------------------------------------------------------------

namespace CronManager

def Execution.isExecuting : Execution → Bool
  | ⟨_, .executing _ _ _⟩ => true
  | _ => false

namespace Manager

def handlersAtWork (m : Manager) : Nat := m.workers.countP Execution.isExecuting

/-- A panic of a handler ends the process. -/
def role : CronStore × Action → Role
  | (_, .start _ _) | (_, .crash) | (_, .execute _ .panicked) => .outside
  | (_, .loop) | (_, .countDueCronJobs _) | (_, .selectDueCronJobs _ _) | (_, .lockJob _)
  | (_, .acquireFailed) | (_, .endPage) | (_, .wake) => .loop
  | (_, .acquire) => .acquire
  | (_, .waitDone) => .wait
  | (_, .enter i) | (_, .execute i _) | (_, .send i) => .body i
  | (_, .finish i) => .leave i
  | _ => .free

/-- The cron manager as a host: of its two deferred calls the last one, Done, comes first. -/
def host (arith : IntArith) : Host Manager (CronStore × Action) where
  first := .done
  step := fun m action => (m.step arith action.1 action.2).map fun next => next.2.1
  role := role
  workers := fun m => m.workers.length
  permits := permits
  changes := by
    intro m m' action h
    obtain ⟨s, action⟩ := action
    simp only [Option.map_eq_some_iff] at h
    obtain ⟨⟨s', m'', event⟩, stepped, rfl⟩ := h
    cases step_moves stepped with
    | acquired acquiring free live =>
        refine ⟨?_, (Nat.sub_add_cancel free).symm⟩
        simp
    | finished found => exact ⟨(perm_eraseIdx found).length_eq, rfl⟩
    | start | crash | panicked => trivial
    | entered | refused | executed | sent =>
        refine ⟨?_, rfl⟩
        simp
    | _ => exact ⟨rfl, rfl⟩

/-- A manager right after the call of Start. -/
def started (name : String) (handlers : List String) (loc : GoTime.Location)
    (workerCount batchSize : Nat)
    : Manager :=
  { name, handlers, loc, poll := .polling, permits := workerCount, batchSize }

end Manager

end CronManager

-----------------------------------------------------------------------------------------
-- Both managers
-----------------------------------------------------------------------------------------

namespace Managers

variable {μ α : Type*}

/-- The manager with a new semaphore and wait group. -/
def pooled (m : μ) (workerCount : Nat) : Pooled μ := ⟨m, { size := workerCount }⟩

/-- At most `workerCount` handlers run; the permits and the counts that are out are those of the
pending goroutines and of the loop, and all others were given back exactly once.
-/
structure Bounded (h : Host μ α) (handlersAtWork : μ → Nat) (workerCount : Nat)
    (log : List WorkerPool.Event) (s : Pooled μ) : Prop where
  handlers : handlersAtWork s.host ≤ workerCount
  within : s.pool.held ≤ workerCount
  accounted : ∀ deferred, WorkerPool.Accounted h.first deferred log s.pool

theorem bounded_of_run {h : Host μ α} {handlersAtWork : μ → Nat} {workerCount : Nat}
    {log : List WorkerPool.Event} {start s : Pooled μ} (fresh : Fresh h workerCount start)
    (run : Runs (Acts h.act) start log s) (working : handlersAtWork s.host ≤ h.workers s.host)
    : Bounded h handlersAtWork workerCount log s :=
  ⟨working.trans (workers_le_of_run fresh run), (seen_of_run fresh run).within,
    accounted_of_run fresh run⟩

/-- So it is for both managers, in every run from the call of Start on. -/
theorem permits_accounted (workerCount batchSize : Nat) (handlers : List String)
    : (∀ name log s,
        Runs (Acts QueueManager.Manager.host.act)
          (pooled (.started name handlers workerCount batchSize) workerCount) log s
        → Bounded QueueManager.Manager.host QueueManager.Manager.handlersAtWork workerCount log s)
      ∧ ∀ arith name loc log s,
        Runs (Acts (CronManager.Manager.host arith).act)
          (pooled (.started name handlers loc workerCount batchSize) workerCount) log s
        → Bounded (CronManager.Manager.host arith) CronManager.Manager.handlersAtWork workerCount
            log s := by
  constructor
  · intro name log s run
    have none : s.host.manual = [] := by
      apply Host.invariant_of_run (fun m => m.manual = []) _ run rfl
      exact fun m action m' none => QueueManager.Manager.manual_nil_of_stepOn m action m' none
    apply bounded_of_run ⟨rfl, rfl, rfl⟩ run
    rw [QueueManager.Manager.handlersAtWork, none]
    exact List.countP_le_length
  · intro arith name loc log s run
    apply bounded_of_run ⟨rfl, rfl, rfl⟩ run
    exact List.countP_le_length

/-- The permits that the manager counts are those of the semaphore: where the semaphore has one,
the manager goes on, and Start returns where the wait group lets it.
-/
theorem queue_follows_pool {m : QueueManager.Manager} {workerCount : Nat}
    {log : List WorkerPool.Event} {s : Pooled QueueManager.Manager}
    (fresh : Fresh QueueManager.Manager.host workerCount (pooled m workerCount))
    (run : Runs (Acts QueueManager.Manager.host.act) (pooled m workerCount) log s)
    (nothing : s.pool.starting = .nothing) (store : QueueStore)
    : (∀ job items, s.host.poll = .acquiring job items → s.host.cancelled = false
        → s.pool.held < workerCount
        → (QueueManager.Manager.host.act s (.host (store, .acquire))).isSome = true)
      ∧ (s.host.poll = .waiting → s.pool.counter = 0
        → (QueueManager.Manager.host.act s (.host (store, .waitDone))).isSome = true) := by
  have sizes := (seen_of_run fresh run).sizes
  constructor
  · intro job items acquiring live free
    have permit : 0 < s.host.permits := permit_of_run fresh run free nothing
    simp [Host.act, QueueManager.Manager.host, QueueManager.Manager.role, Pool.act, Pool.acquire,
      nothing, sizes, free, QueueManager.Manager.stepOn, QueueManager.Manager.step,
      QueueManager.Manager.acquire, acquiring, live, permit]
  · intro waiting waited
    have idle : s.host.workers.length = 0 := no_worker_of_run fresh run waited nothing
    simp [Host.act, QueueManager.Manager.host, QueueManager.Manager.role, Pool.act, nothing,
      waited, QueueManager.Manager.stepOn, QueueManager.Manager.step,
      QueueManager.Manager.waitDone, waiting, List.length_eq_zero_iff.mp idle]

theorem cron_follows_pool {arith : IntArith} {m : CronManager.Manager} {workerCount : Nat}
    {log : List WorkerPool.Event} {s : Pooled CronManager.Manager}
    (fresh : Fresh (CronManager.Manager.host arith) workerCount (pooled m workerCount))
    (run : Runs (Acts (CronManager.Manager.host arith).act) (pooled m workerCount) log s)
    (nothing : s.pool.starting = .nothing) (store : CronStore)
    : (∀ job items page more, s.host.poll = .acquiring job items page more
        → s.host.cancelled = false → s.pool.held < workerCount
        → ((CronManager.Manager.host arith).act s (.host (store, .acquire))).isSome = true)
      ∧ (s.host.poll = .waiting → s.pool.counter = 0
        → ((CronManager.Manager.host arith).act s (.host (store, .waitDone))).isSome = true) := by
  have sizes := (seen_of_run fresh run).sizes
  constructor
  · intro job items page more acquiring live free
    have permit : 0 < s.host.permits := permit_of_run fresh run free nothing
    simp [Host.act, CronManager.Manager.host, CronManager.Manager.role, Pool.act, Pool.acquire,
      nothing, sizes, free, CronManager.Manager.step, CronManager.Manager.acquire, acquiring,
      live, permit]
  · intro waiting waited
    have idle : s.host.workers.length = 0 := no_worker_of_run fresh run waited nothing
    simp [Host.act, CronManager.Manager.host, CronManager.Manager.role, Pool.act, nothing,
      waited, CronManager.Manager.step, CronManager.Manager.waitDone, waiting,
      List.length_eq_zero_iff.mp idle]

/-- Two queued jobs, and a manager with one permit. The handler of the first job panics; its
permit is free again before it leaves the wait group.
-/
def queueRound : List (WorkerPool.Action (QueueStore × QueueManager.Action)) :=
  let store := ((⟨.empty, 0⟩ : QueueStore).insert "mail" 0 none).insert "mail" 0 none
  let acts (action : QueueManager.Action) := WorkerPool.Action.host (store, action)
  [ acts (.unlockStaleJobs .answered), acts .loop, acts (.countDueJobs .answered),
    acts (.selectDueJobs .answered [1, 2]), acts (.lockJob .answered), acts .acquire, .add, .spawn,
    acts (.enter 0), acts (.execute 0 .panicked), acts (.lockJob .answered), acts (.finish 0),
    acts .acquire, .finish 0 ]

/-- So a cron manager, whose job goroutine leaves the wait group first. -/
def cronRound : List (WorkerPool.Action (CronStore × CronManager.Action)) :=
  let store := ((⟨.empty, 0⟩ : CronStore).addOrUpdate "mail" 0 "* * * * *" none).1
  let acts (action : CronManager.Action) := WorkerPool.Action.host (store, action)
  [ acts .loop, acts (.countDueCronJobs .answered), acts (.selectDueCronJobs .answered [1]),
    acts (.lockJob .answered), acts .acquire, .add, .spawn, acts (.enter 0),
    acts (.execute 0 (.returned none)), acts (.send 0), acts (.finish 0), .finish 0 ]

theorem permits_accounted_rounds
    : (∃ s log, perform QueueManager.Manager.host.act (pooled (.started "a" ["mail"] 1 10) 1)
            queueRound = some (s, log)
        ∧ s.pool.held = 1 ∧ s.pool.counter = 0 ∧ s.pool.starting = .acquired
        ∧ log.count (.gaveBack .release 0) = 1
        ∧ Bounded QueueManager.Manager.host QueueManager.Manager.handlersAtWork 1 log s)
      ∧ ∃ s log, perform (CronManager.Manager.host unbounded).act
            (pooled (.started "a" ["mail"] GoTime.utc 1 10) 1) cronRound = some (s, log)
        ∧ s.pool.held = 0 ∧ s.pool.counter = 0 ∧ log.count (.gaveBack .done 0) = 1
        ∧ Bounded (CronManager.Manager.host unbounded) CronManager.Manager.handlersAtWork 1 log
            s := by
  have performed :=
    show perform QueueManager.Manager.host.act (pooled (.started "a" ["mail"] 1 10) 1) queueRound
      = some (_, _)
    from rfl
  have cron :=
    show perform (CronManager.Manager.host unbounded).act
        (pooled (.started "a" ["mail"] GoTime.utc 1 10) 1) cronRound
      = some (_, _)
    from rfl
  refine ⟨⟨_, _, performed, rfl, rfl, rfl, by decide, ?_⟩, ⟨_, _, cron, rfl, rfl, by decide, ?_⟩⟩
  · exact (permits_accounted 1 10 ["mail"]).1 "a" _ _ (runs_of_perform performed)
  · exact (permits_accounted 1 10 ["mail"]).2 unbounded "a" GoTime.utc _ _ (runs_of_perform cron)

end Managers

end GoFire
