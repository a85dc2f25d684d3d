import GoFire.CronManager.ManagerSteps
import GoFire.QueueManager.ManagerSteps
import GoFire.Store.CronRows
import GoFire.Store.QueueRows
import GoFire.Foundations.TransitionSystem

/-! Rows that a poll moves to processing and the executions it starts for them. A row is locked
before its permit is obtained, so a cancellation in between strands it.
-/

namespace GoFire.Managers

open GoFire.State GoFire.Store GoFire.CronParser TransitionSystem

/-- What a step does to the rows and executions of a poll. A lock that takes effect is answered or
its answer lost; a cancellation matters while a locked row waits for its permit.
-/
inductive PollEvent where
  | other
  | moved (jobID : Nat)
  | movedUnanswered (jobID : Nat)
  | started (jobID : Nat)
  | cancelledWaiting
deriving DecidableEq

/-- The row that a step moves to processing. -/
def PollEvent.moves : PollEvent → Option Nat
  | .moved jobID => some jobID
  | .movedUnanswered jobID => some jobID
  | _ => none

def PollEvent.starts : PollEvent → Option Nat
  | .started jobID => some jobID
  | _ => none

/-- The answer of a successful lock is lost, or the context is cancelled before the permit. -/
def PollEvent.strands : PollEvent → Bool
  | .movedUnanswered _ => true
  | .cancelledWaiting => true
  | _ => false

/-- What a poll owes: nothing, an execution for the row it has locked, or nothing any more because
the context is cancelled or the process has ended.
-/
inductive Owed where
  | nothing
  | execution (jobID : Nat)
  | cancelled (jobID : Nat)
  | ended

inductive Polls : Owed → PollEvent → Owed → Prop where
  | other {owed} : Polls owed .other owed
  | moved {jobID} : Polls .nothing (.moved jobID) (.execution jobID)
  | movedUnanswered {jobID} : Polls .nothing (.movedUnanswered jobID) .nothing
  | started {jobID} : Polls (.execution jobID) (.started jobID) .nothing
  | cancelled {jobID} : Polls (.execution jobID) .cancelledWaiting (.cancelled jobID)
  | dropped {jobID} : Polls (.cancelled jobID) .other .nothing
  | ended {owed} : Polls owed .other .ended

/-- The rows moved to processing, in the order of their locks. -/
def moved (log : List PollEvent) : List Nat := log.filterMap PollEvent.moves

/-- The rows whose execution was started. -/
def started (log : List PollEvent) : List Nat := log.filterMap PollEvent.starts

/-- No lock is left without an answer, and no cancellation comes before a permit. -/
def Smooth (log : List PollEvent) : Prop := ∀ e ∈ log, e.strands = false

variable {log : List PollEvent} {e : PollEvent}

theorem moved_append : moved (log ++ [e]) = moved log ++ e.moves.toList := by
  cases h : e.moves <;> simp [moved, h]

theorem started_append : started (log ++ [e]) = started log ++ e.starts.toList := by
  cases h : e.starts <;> simp [started, h]

theorem smooth_append : Smooth (log ++ [e]) ↔ Smooth log ∧ e.strands = false := by
  simp [Smooth, or_imp, forall_and]

/-- The rows moved so far against the executions started: equal but for the row that waits, and
more when a row was stranded.
-/
def Accounted (log : List PollEvent) : Owed → Prop
  | .nothing =>
      (Smooth log → moved log = started log)
        ∧ (¬ Smooth log → (started log).length < (moved log).length)
  | .execution jobID =>
      (Smooth log → moved log = started log ++ [jobID])
        ∧ (¬ Smooth log → (started log).length + 1 < (moved log).length)
  | .cancelled _ => ¬ Smooth log ∧ (started log).length < (moved log).length
  | .ended => True

theorem Accounted.step {owed owed' : Owed} (inv : Accounted log owed) (h : Polls owed e owed')
    : Accounted (log ++ [e]) owed' := by
  have quiet : Accounted (log ++ [.other]) = Accounted log := by
    have same : moved (log ++ [.other]) = moved log := moved_append.trans (List.append_nil _)
    have same' : started (log ++ [.other]) = started log :=
      started_append.trans (List.append_nil _)
    have smooth : Smooth (log ++ [.other]) ↔ Smooth log := smooth_append.trans (by
      simp [PollEvent.strands])
    funext owed
    cases owed <;> simp only [Accounted, same, same', smooth]
  cases h with
  | other => exact quiet ▸ inv
  | ended => trivial
  | @moved jobID =>
      obtain ⟨equal, more⟩ := inv
      simp only [Accounted, moved_append, started_append, smooth_append, PollEvent.moves,
        PollEvent.starts, PollEvent.strands, Option.toList_some, Option.toList_none,
        List.append_nil, List.length_append, List.length_singleton, and_true]
      exact ⟨fun smooth => by rw [equal smooth], fun rough => Nat.succ_lt_succ (more rough)⟩
  | @movedUnanswered jobID =>
      obtain ⟨equal, more⟩ := inv
      refine ⟨fun smooth => absurd (smooth_append.mp smooth).2 Bool.noConfusion, fun _ => ?_⟩
      rw [moved_append, started_append]
      simp only [PollEvent.moves, PollEvent.starts, Option.toList_some, Option.toList_none,
        List.append_nil, List.length_append, List.length_singleton]
      by_cases smooth : Smooth log
      · rw [equal smooth]
        exact Nat.lt_succ_self _
      · exact (more smooth).trans (Nat.lt_succ_self _)
  | @started jobID =>
      obtain ⟨equal, more⟩ := inv
      simp only [Accounted, moved_append, started_append, smooth_append, PollEvent.moves,
        PollEvent.starts, PollEvent.strands, Option.toList_some, Option.toList_none,
        List.append_nil, List.length_append, List.length_singleton, and_true]
      exact ⟨equal, more⟩
  | @cancelled jobID =>
      obtain ⟨equal, more⟩ := inv
      refine ⟨fun smooth => absurd (smooth_append.mp smooth).2 Bool.noConfusion, ?_⟩
      rw [moved_append, started_append]
      simp only [PollEvent.moves, PollEvent.starts, Option.toList_none, List.append_nil]
      by_cases smooth : Smooth log
      · rw [equal smooth, List.length_append, List.length_singleton]
        exact Nat.lt_succ_self _
      · exact (Nat.lt_succ_self _).trans (more smooth)
  | @dropped jobID =>
      obtain ⟨rough, fewer⟩ : Accounted (log ++ [.other]) (.cancelled jobID) := quiet ▸ inv
      exact ⟨fun smooth => absurd smooth rough, fun _ => fewer⟩

/-- When a poll that owed nothing owes nothing again, it has started an execution for every row it
moved to processing, in order, exactly if none was stranded.
-/
theorem moved_eq_started_iff (run : Runs Polls .nothing log .nothing)
    : moved log = started log ↔ Smooth log := by
  have inv : Accounted log .nothing :=
    run.invariant Accounted ⟨fun _ => rfl, fun rough => absurd (by simp [Smooth]) rough⟩
      fun _ _ _ _ inv h => inv.step h
  refine ⟨fun equal => ?_, inv.1⟩
  by_contra rough
  exact absurd (congrArg List.length equal) (inv.2 rough).ne'

end GoFire.Managers

-----------------------------------------------------------------------------------------
-- The poll of an enqueue manager
-----------------------------------------------------------------------------------------

namespace GoFire.QueueManager

open GoFire.Store GoFire.Managers TransitionSystem

/-- The steps of processDueJobs. -/
def Action.ofPoll : Action → Bool
  | .countDueJobs _ => true
  | .selectDueJobs _ _ => true
  | .lockJob _ => true
  | .acquire => true
  | .acquireFailed => true
  | .endBatch => true
  | _ => false

namespace Manager

/-- What a poll owes, by where it is. -/
def owed (m : Manager) : Owed :=
  match m.poll with
  | .acquiring job _ => if m.cancelled then .cancelled job.id else .execution job.id
  | .crashed => .ended
  | _ => .nothing

/-- What a step on a store does to the rows and executions of the poll. -/
def pollEvent (s : QueueStore) (m : Manager) : Action → PollEvent
  | .lockJob delivery =>
      match m.poll with
      | .locking (job :: _) =>
          match delivery, (s.lockJob job.id m.name).2 with
          | .answered, true => .moved job.id
          | .lost, true => .movedUnanswered job.id
          | _, _ => .other
      | _ => .other
  | .acquire =>
      match m.poll with
      | .acquiring job _ => .started job.id
      | _ => .other
  | .cancel =>
      match m.poll with
      | .acquiring _ _ => if m.cancelled then .other else .cancelledWaiting
      | _ => .other
  | _ => .other

/-- A step of the manager on some store, with what it does for the poll. -/
def watchPoll (m : Manager) (action : QueueStore × Action) : Option (Manager × PollEvent) :=
  (m.step action.1 action.2).map fun next => (next.2.1, m.pollEvent action.1 action.2)

variable {s s' : QueueStore} {m m' : Manager} {event : Event}

/-- A statement that is executed is made with a live context. -/
theorem lockJob_polls {delivery : Delivery} (h : m.lockJob s delivery = some (s', m', event))
    : Polls m.owed (m.pollEvent s (.lockJob delivery)) m'.owed := by
  simp only [lockJob] at h
  split at h
  case h_2 => cases h
  case h_1 job items locking =>
    have before : m.owed = .nothing := by simp only [owed, locking]
    split at h
    case isFalse => cases h
    case isTrue may =>
      cases delivery with
      | refused =>
          cases h
          simp only [before, pollEvent, locking]
          exact .other
      | answered =>
          have live : m.cancelled = false := by simpa [mayDeliver] using may
          cases ok : (s.lockJob job.id m.name).2 with
          | true =>
              simp only [ok, if_true] at h
              cases h
              simp only [before, pollEvent, locking, ok]
              simp only [owed, live, Bool.false_eq_true, if_false]
              exact .moved
          | false =>
              simp only [ok, Bool.false_eq_true, if_false] at h
              cases h
              simp only [before, pollEvent, locking, ok]
              exact .other
      | lost =>
          cases h
          cases ok : (s.lockJob job.id m.name).2 with
          | true =>
              simp only [before, pollEvent, locking, ok]
              exact .movedUnanswered
          | false =>
              simp only [before, pollEvent, locking, ok]
              exact .other

theorem watchPoll_polls {e : PollEvent} (h : Acts watchPoll m e m') : Polls m.owed e m'.owed := by
  obtain ⟨⟨s, action⟩, h⟩ := h
  simp only [watchPoll, Option.map_eq_some_iff, Prod.exists, Prod.mk.injEq] at h
  obtain ⟨s', m', event, taken, rfl, rfl⟩ := h
  cases step_moves taken with
  | unlockRefused | unlockLost | crash => exact .ended
  | start polling | unlocked polling | began polling | ended polling | counted polling
  | countFailed polling | fetched polling | selectFailed polling | batchEnded polling
  | woke polling | returned polling =>
      simp only [owed, polling, pollEvent]
      exact .other
  | cancel =>
      cases polling : m.poll with
      | acquiring job items =>
          cases before : m.cancelled with
          | false =>
              simp only [owed, polling, pollEvent, before, if_true, if_false, Bool.false_eq_true]
              exact .cancelled
          | true =>
              simp only [owed, polling, pollEvent, before, if_true]
              exact .other
      | _ =>
          simp only [owed, polling, pollEvent]
          exact .other
  | locked | passedOver | lockLost => exact lockJob_polls taken
  | acquired polling free live =>
      simp only [owed, polling, pollEvent, live, Bool.false_eq_true, if_false]
      exact .started
  | acquireFailed polling cancelled =>
      simp only [owed, polling, pollEvent, cancelled, if_true]
      exact .dropped
  | _ => exact .other

/-- A step of a poll keeps every row that it does not move to processing. -/
theorem poll_keeps {action : Action} (h : m.step s action = some (s', m', event))
    (polls : action.ofPoll = true) {row : EnqueuedJob} (mem : row ∈ s.jobs.rows)
    (unmoved : (m.pollEvent s action).moves ≠ some row.id)
    : row ∈ s'.jobs.rows := by
  cases step_moves h with
  | locked locking | lockLost locking =>
      apply QueueStore.kept_mem_lockJob mem
      intro ok same
      apply unmoved
      rw [← same]
      simp only [pollEvent, locking, ok, PollEvent.moves]
  | counted | countFailed | fetched | selectFailed | passedOver | acquired | acquireFailed
  | batchEnded => exact mem
  | _ => exact absurd polls Bool.noConfusion

end Manager

end GoFire.QueueManager

-----------------------------------------------------------------------------------------
-- The poll of a cron manager
-----------------------------------------------------------------------------------------

namespace GoFire.CronManager

open GoFire.Store GoFire.CronParser GoFire.Managers TransitionSystem

/-- The steps of processCronJobs. -/
def Action.ofPoll : Action → Bool
  | .countDueCronJobs _ => true
  | .selectDueCronJobs _ _ => true
  | .lockJob _ => true
  | .acquire => true
  | .acquireFailed => true
  | .endPage => true
  | _ => false

namespace Manager

/-- What a poll owes, by where it is. -/
def owed (m : Manager) : Owed :=
  match m.poll with
  | .acquiring job _ _ _ => if m.cancelled then .cancelled job.id else .execution job.id
  | .crashed => .ended
  | _ => .nothing

/-- What a step on a store does to the rows and executions of the poll. -/
def pollEvent (s : CronStore) (m : Manager) : Action → PollEvent
  | .lockJob delivery =>
      match m.poll with
      | .locking (job :: _) _ _ =>
          match delivery, (s.lockJob job.id m.name).2 with
          | .answered, true => .moved job.id
          | .lost, true => .movedUnanswered job.id
          | _, _ => .other
      | _ => .other
  | .acquire =>
      match m.poll with
      | .acquiring job _ _ _ => .started job.id
      | _ => .other
  | .cancel =>
      match m.poll with
      | .acquiring _ _ _ _ => if m.cancelled then .other else .cancelledWaiting
      | _ => .other
  | _ => .other

/-- A step of the manager on some store, with what it does for the poll. -/
def watchPoll (arith : IntArith) (m : Manager) (action : CronStore × Action)
    : Option (Manager × PollEvent) :=
  (m.step arith action.1 action.2).map fun next => (next.2.1, m.pollEvent action.1 action.2)

variable {arith : IntArith} {s s' : CronStore} {m m' : Manager} {event : Event}

/-- A statement that is executed is made with a live context. -/
theorem lockJob_polls {delivery : Delivery} (h : m.lockJob s delivery = some (s', m', event))
    : Polls m.owed (m.pollEvent s (.lockJob delivery)) m'.owed := by
  simp only [lockJob] at h
  split at h
  case h_2 => cases h
  case h_1 job items page more locking =>
    have before : m.owed = .nothing := by simp only [owed, locking]
    split at h
    case isFalse => cases h
    case isTrue may =>
      cases delivery with
      | refused =>
          cases h
          simp only [before, pollEvent, locking]
          exact .other
      | answered =>
          have live : m.cancelled = false := by simpa [mayDeliver] using may
          cases ok : (s.lockJob job.id m.name).2 with
          | true =>
              simp only [ok, if_true] at h
              cases h
              simp only [before, pollEvent, locking, ok]
              simp only [owed, live, Bool.false_eq_true, if_false]
              exact .moved
          | false =>
              simp only [ok, Bool.false_eq_true, if_false] at h
              cases h
              simp only [before, pollEvent, locking, ok]
              exact .other
      | lost =>
          cases h
          cases ok : (s.lockJob job.id m.name).2 with
          | true =>
              simp only [before, pollEvent, locking, ok]
              exact .movedUnanswered
          | false =>
              simp only [before, pollEvent, locking, ok]
              exact .other

theorem watchPoll_polls {e : PollEvent} (h : Acts (watchPoll arith) m e m')
    : Polls m.owed e m'.owed := by
  obtain ⟨⟨s, action⟩, h⟩ := h
  simp only [watchPoll, Option.map_eq_some_iff, Prod.exists, Prod.mk.injEq] at h
  obtain ⟨s', m', event, taken, rfl, rfl⟩ := h
  cases step_moves taken with
  | panicked | crash => exact .ended
  | start polling | began polling | ended polling | counted polling | countFailed polling
  | fetched polling | selectFailed polling | woke polling | returned polling =>
      simp only [owed, polling, pollEvent]
      exact .other
  | @pageEnded page more polling =>
      cases more <;>
        simp only [owed, polling, pollEvent, if_true, if_false, Bool.false_eq_true] <;>
        exact .other
  | cancel =>
      cases polling : m.poll with
      | acquiring job items page more =>
          cases before : m.cancelled with
          | false =>
              simp only [owed, polling, pollEvent, before, if_true, if_false, Bool.false_eq_true]
              exact .cancelled
          | true =>
              simp only [owed, polling, pollEvent, before, if_true]
              exact .other
      | _ =>
          simp only [owed, polling, pollEvent]
          exact .other
  | locked | passedOver | lockLost => exact lockJob_polls taken
  | acquired polling free live =>
      simp only [owed, polling, pollEvent, live, Bool.false_eq_true, if_false]
      exact .started
  | acquireFailed polling cancelled =>
      simp only [owed, polling, pollEvent, cancelled, if_true]
      exact .dropped
  | _ => exact .other

/-- A step of a poll keeps every row that it does not move to processing. -/
theorem poll_keeps {action : Action} (h : m.step arith s action = some (s', m', event))
    (polls : action.ofPoll = true) {row : CronJob} (mem : row ∈ s.jobs.rows)
    (unmoved : (m.pollEvent s action).moves ≠ some row.id)
    : row ∈ s'.jobs.rows := by
  cases step_moves h with
  | locked locking | lockLost locking =>
      apply CronStore.kept_mem_lockJob mem
      intro ok same
      apply unmoved
      rw [← same]
      simp only [pollEvent, locking, ok, PollEvent.moves]
  | counted | countFailed | fetched | selectFailed | passedOver | acquired | acquireFailed
  | pageEnded => exact mem
  | _ => exact absurd polls Bool.noConfusion

end Manager

end GoFire.CronManager

-----------------------------------------------------------------------------------------
-- One poll of either manager
-----------------------------------------------------------------------------------------

namespace GoFire.Managers

open GoFire.State GoFire.Store GoFire.CronParser TransitionSystem

/-- A poll that returns has started an execution for every row it moved to processing, in order,
exactly if no answer of a successful lock was lost and no cancellation came between a lock and its
permit. It keeps every row that it does not move.
-/
theorem locked_rows_started (arith : IntArith)
    : (∀ (m m' : QueueManager.Manager) (now : Int) (log : List PollEvent), m.poll = .counting now
        → Runs (Acts QueueManager.Manager.watchPoll) m log m' → m'.poll = .sleeping
        → (moved log = started log ↔ Smooth log))
      ∧ (∀ s m action s' m' event, QueueManager.Manager.step s m action = some (s', m', event)
        → action.ofPoll = true → ∀ row ∈ s.jobs.rows,
          (m.pollEvent s action).moves ≠ some row.id → row ∈ s'.jobs.rows)
      ∧ (∀ (m m' : CronManager.Manager) (page : Nat) (log : List PollEvent),
        m.poll = .counting page
        → Runs (Acts (CronManager.Manager.watchPoll arith)) m log m' → m'.poll = .sleeping
        → (moved log = started log ↔ Smooth log))
      ∧ ∀ s m action s' m' event, CronManager.Manager.step arith s m action = some (s', m', event)
        → action.ofPoll = true → ∀ row ∈ s.jobs.rows,
          (m.pollEvent s action).moves ≠ some row.id → row ∈ s'.jobs.rows := by
  refine ⟨fun m m' now log begins run returns => ?_, fun s m action s' m' event h polls row mem =>
    QueueManager.Manager.poll_keeps h polls mem, fun m m' page log begins run returns => ?_,
    fun s m action s' m' event h polls row mem => CronManager.Manager.poll_keeps h polls mem⟩
  · have owes := run.map fun _ _ _ h => QueueManager.Manager.watchPoll_polls h
    simp only [QueueManager.Manager.owed, begins, returns] at owes
    exact moved_eq_started_iff owes
  · have owes := run.map fun _ _ _ h => CronManager.Manager.watchPoll_polls h
    simp only [CronManager.Manager.owed, begins, returns] at owes
    exact moved_eq_started_iff owes

/-- A queue table with one job, and the manager whose poll has just begun. -/
def oneQueued : QueueStore := (⟨.empty, 0⟩ : QueueStore).insert "mail" 0 none

def queuePolling : QueueManager.Manager :=
  { name := "a", handlers := ["mail"], batchSize := 10, permits := 1, poll := .counting 0 }

/-- A cron table with one job, and the manager whose poll has just begun. -/
def oneScheduled : CronStore :=
  ((⟨.empty, 0⟩ : CronStore).addOrUpdate "mail" 0 "* * * * *" none).1

def cronPolling : CronManager.Manager :=
  { name := "a", handlers := ["mail"], loc := GoTime.utc, batchSize := 10, permits := 1,
    poll := .counting 1 }

/-- An undisturbed poll of each manager starts the job it locks. -/
theorem locked_rows_started_undisturbed
    : (∃ m log, perform QueueManager.Manager.watchPoll queuePolling
            ([ .countDueJobs .answered, .selectDueJobs .answered [1], .lockJob .answered, .acquire,
               .endBatch ].map (oneQueued, ·))
          = some (m, log)
        ∧ moved log = started log ∧ moved log = [1])
      ∧ (∃ m log, perform (CronManager.Manager.watchPoll unbounded) cronPolling
            ([ .countDueCronJobs .answered, .selectDueCronJobs .answered [1], .lockJob .answered,
               .acquire, .endPage ].map (oneScheduled, ·))
          = some (m, log)
        ∧ moved log = started log ∧ moved log = [1]) := by
  obtain ⟨queue, -, cron, -⟩ := locked_rows_started unbounded
  constructor
  · have performed := show perform QueueManager.Manager.watchPoll queuePolling
        ([ .countDueJobs .answered, .selectDueJobs .answered [1], .lockJob .answered, .acquire,
           .endBatch ].map (oneQueued, ·))
      = some (_, _) from rfl
    have all := queue _ _ 0 _ rfl (runs_of_perform performed) rfl
    exact ⟨_, _, performed, all.mpr (by unfold Smooth; decide), rfl⟩
  · have performed := show perform (CronManager.Manager.watchPoll unbounded) cronPolling
        ([ .countDueCronJobs .answered, .selectDueCronJobs .answered [1], .lockJob .answered,
           .acquire, .endPage ].map (oneScheduled, ·))
      = some (_, _) from rfl
    have all := cron _ _ 1 _ rfl (runs_of_perform performed) rfl
    exact ⟨_, _, performed, all.mpr (by unfold Smooth; decide), rfl⟩

/-- A cancellation between the lock and the permit, or a lost answer of the lock, leaves the row
in processing without an execution.
-/
theorem locked_row_stranded
    : (∃ m log, perform QueueManager.Manager.watchPoll queuePolling
            ([ .countDueJobs .answered, .selectDueJobs .answered [1], .lockJob .answered, .cancel,
               .acquireFailed ].map (oneQueued, ·))
          = some (m, log)
        ∧ m.poll = .sleeping ∧ moved log = [1] ∧ started log = [] ∧ m.workers = [])
      ∧ (∃ m log, perform QueueManager.Manager.watchPoll queuePolling
            ([ .countDueJobs .answered, .selectDueJobs .answered [1], .lockJob .lost,
               .endBatch ].map (oneQueued, ·))
          = some (m, log)
        ∧ m.poll = .sleeping ∧ moved log = [1] ∧ started log = [] ∧ m.workers = [])
      ∧ (∃ m log, perform (CronManager.Manager.watchPoll unbounded) cronPolling
            ([ .countDueCronJobs .answered, .selectDueCronJobs .answered [1], .lockJob .answered,
               .cancel, .acquireFailed, .endPage ].map (oneScheduled, ·))
          = some (m, log)
        ∧ m.poll = .sleeping ∧ moved log = [1] ∧ started log = [] ∧ m.workers = []) :=
  ⟨⟨_, _, rfl, rfl, rfl, rfl, rfl⟩, ⟨_, _, rfl, rfl, rfl, rfl, rfl⟩,
    ⟨_, _, rfl, rfl, rfl, rfl, rfl⟩⟩

end GoFire.Managers
