import GoFire.QueueManager.Lifecycle
import GoFire.Store.QueueRows
import Mathlib.Algebra.Order.Group.Nat

/-! Progress after a cancellation. The result channel has 1000 slots and one consumer that stops
with the context, while Start waits for every job goroutine to have sent its result.
-/

namespace GoFire.QueueManager

open GoFire.State GoFire.Store TransitionSystem

/-- The actions of the goroutines that Start runs: the poll loop, the job goroutines and the
result processor.
-/
def Action.ofStart : Action → Bool
  | .unlockStaleJobs _ | .loop | .countDueJobs _ | .selectDueJobs _ _ | .lockJob _ | .acquire
  | .acquireFailed | .endBatch | .wake | .waitDone | .enter _ | .execute _ _ | .send _
  | .finish _ | .receive | .record _ | .stopProcessor => true
  | _ => false

def Stage.isExecuting : Stage → Bool
  | .executing _ => true
  | _ => false

/-- Whether the execution may still send a result. -/
def Execution.unsent (e : Execution) : Nat :=
  match e.stage with
  | .finished => 0
  | _ => 1

namespace Manager

/-- The context is cancelled and all handlers have returned, but Start has not, and none of its
goroutines can take a step.
-/
structure Deadlocked (m : Manager) (s : QueueStore) : Prop where
  cancelled : m.cancelled = true
  started : m.poll ≠ .idle
  unreturned : m.poll ≠ .returned
  alive : m.poll ≠ .crashed
  handlersReturned : ∀ e ∈ m.workers ++ m.manual, e.stage.isExecuting = false
  stuck : ∀ action, action.ofStart = true → m.step s action = none

/-- How many results the job goroutines may still send. -/
def unsent (m : Manager) : Nat := total Execution.unsent m.workers

/-- The result processor stops when the channel has room for every result still to come, and a
manual execution takes none of that room afterwards.
-/
def DrainsAfterStop (m : Manager) : Action → Prop
  | .stopProcessor => m.jobResults.length + m.unsent ≤ resultCapacity
  | .sendManual _ => m.processor = .stopped → m.jobResults.length + m.unsent < resultCapacity
  | _ => True

instance : ∀ processor : Processor, Decidable (processor = .stopped)
  | .stopped => isTrue rfl
  | .off => isFalse nofun
  | .receiving => isFalse nofun
  | .recording _ => isFalse nofun

instance (m : Manager) : ∀ action, Decidable (m.DrainsAfterStop action)
  | .stopProcessor => Nat.decLe _ _
  | .sendManual _ =>
      inferInstanceAs (Decidable (m.processor = .stopped → _ < resultCapacity))
  | .start _ _ | .unlockStaleJobs _ | .cancel | .loop | .countDueJobs _ | .selectDueJobs _ _
  | .lockJob _ | .acquire | .acquireFailed | .endBatch | .wake | .waitDone | .enter _
  | .execute _ _ | .send _ | .finish _ | .findByID _ _ | .enterManual _ | .executeManual _ _
  | .receive | .record _ | .tick | .acquireRetryLock _ | .markRetryFailedJobs _
  | .releaseRetryLock | .crash => isTrue trivial

/-- Once the result processor has stopped, the channel has room for all results to come. -/
structure RoomLeft (m : Manager) : Prop where
  cancelled : m.processor = .stopped → m.cancelled = true
  room : m.processor = .stopped → m.jobResults.length + m.unsent ≤ resultCapacity

variable {s s' : QueueStore} {m m' : Manager} {event : Event} {action : Action}

namespace RoomLeft

/-- A step that takes no room. -/
theorem of_fewer (inv : m.RoomLeft) (cancelled : m.cancelled = true → m'.cancelled = true)
    (processor : m'.processor = .stopped → m.processor = .stopped)
    (fewer : m'.jobResults.length + m'.unsent ≤ m.jobResults.length + m.unsent)
    : m'.RoomLeft :=
  ⟨fun stopped => cancelled (inv.cancelled (processor stopped)),
    fun stopped => fewer.trans (inv.room (processor stopped))⟩

/-- The result processor has not stopped. -/
theorem of_unstopped (unstopped : m.processor ≠ .stopped) : m.RoomLeft :=
  ⟨fun stopped => absurd stopped unstopped, fun stopped => absurd stopped unstopped⟩

/-- Nothing is left of a crashed manager. -/
theorem of_crash (m : Manager) : m.crashed.RoomLeft := ⟨fun _ => rfl, fun _ => Nat.zero_le _⟩

/-- A job goroutine that moves on does not send more results. -/
theorem of_worker (inv : m.RoomLeft) {i : Nat} {e e' : Execution} {results : List JobResult}
    (found : m.workers[i]? = some e)
    (fewer : results.length + e'.unsent ≤ m.jobResults.length + e.unsent)
    : RoomLeft { m with workers := m.workers.set i e', jobResults := results } := by
  obtain ⟨rest, before, after⟩ := total_set Execution.unsent found
  refine inv.of_fewer id id ?_
  simp only [unsent, before, after]
  omega

theorem step (inv : m.RoomLeft) (h : m.step s action = some (s', m', event))
    (drains : m.DrainsAfterStop action)
    : m'.RoomLeft := by
  cases step_moves h with
  | start | received | unrecorded | recorded => exact of_unstopped Processor.noConfusion
  | unlockRefused | unlockLost | crash => exact of_crash m
  | cancel => exact ⟨fun _ => rfl, inv.room⟩
  | acquired _ _ live =>
      apply of_unstopped
      intro stopped
      rw [inv.cancelled stopped] at live
      cases live
  | entered found | refused found | executed found => exact inv.of_worker found le_rfl
  | panicked found => exact inv.of_worker found (Nat.add_le_add_left (Nat.zero_le 1) _)
  | sent found =>
      apply inv.of_worker found
      rw [List.length_append]
      exact le_rfl
  | finished found =>
      refine inv.of_fewer id id ?_
      rw [unsent, unsent, total_eraseIdx Execution.unsent found]
      exact Nat.add_le_add_left (Nat.le_add_left _ _) _
  | sentManual found =>
      refine ⟨inv.cancelled, fun stopped => ?_⟩
      have room := drains stopped
      rw [List.length_append, List.length_singleton, Nat.add_right_comm]
      exact room
  | stopped _ cancelled => exact ⟨fun _ => cancelled, fun _ => drains⟩
  | _ => exact ⟨inv.cancelled, inv.room⟩

end RoomLeft

/-- Until it waits for the job goroutines, the goroutine of Start can always go on. -/
theorem poll_moves (started : m.poll ≠ .idle) (unreturned : m.poll ≠ .returned)
    (alive : m.poll ≠ .crashed) (busy : m.poll ≠ .waiting) (cancelled : m.cancelled = true)
    : ∃ action, action.ofStart = true ∧ m.step s action ≠ none := by
  have refused : m.mayDeliver .refused = true := by simp [mayDeliver]
  cases polling : m.poll with
  | idle => exact absurd polling started
  | returned => exact absurd polling unreturned
  | crashed => exact absurd polling alive
  | waiting => exact absurd polling busy
  | unlocking =>
      exact ⟨.unlockStaleJobs .refused, rfl,
        by simp [Manager.step, unlockStaleJobs, polling, refused]⟩
  | polling => exact ⟨.loop, rfl, by simp [Manager.step, loop, polling]⟩
  | counting now =>
      exact ⟨.countDueJobs .refused, rfl, by simp [Manager.step, countDueJobs, polling, refused]⟩
  | selecting now totalItems =>
      exact ⟨.selectDueJobs .refused [], rfl,
        by simp [Manager.step, selectDueJobs, polling, refused]⟩
  | locking items =>
      cases items with
      | nil => exact ⟨.endBatch, rfl, by simp [Manager.step, endBatch, polling]⟩
      | cons job rest =>
          exact ⟨.lockJob .refused, rfl, by simp [Manager.step, lockJob, polling, refused]⟩
  | acquiring job items =>
      exact ⟨.acquireFailed, rfl, by simp [Manager.step, acquireFailed, polling, cancelled]⟩
  | sleeping => exact ⟨.wake, rfl, by simp [Manager.step, wake, polling]⟩

/-- A job goroutine whose handler has returned can go on when the channel has room. -/
theorem worker_moves {e : Execution} (first : m.workers[0]? = some e)
    (handlerReturned : e.stage.isExecuting = false)
    (room : 0 < e.unsent → m.jobResults.length < resultCapacity)
    : ∃ action, action.ofStart = true ∧ m.step s action ≠ none := by
  obtain ⟨job, stage⟩ := e
  cases stage with
  | entered =>
      refine ⟨.enter 0, rfl, ?_⟩
      simp only [Manager.step, enter, first]
      split
      · split
        · exact Option.some_ne_none _
        · exact Option.some_ne_none _
      · exact Option.some_ne_none _
  | executing args => cases handlerReturned
  | sending result =>
      refine ⟨.send 0, rfl, ?_⟩
      simp only [Manager.step, send, first, room Nat.one_pos, if_true]
      exact Option.some_ne_none _
  | finished => exact ⟨.finish 0, rfl, by simp [Manager.step, finish, first]⟩

/-- With room for the results to come, some goroutine can go on. -/
theorem not_deadlocked (started : m.Started) (inv : m.RoomLeft) : ¬ m.Deadlocked s := by
  intro deadlock
  have blocked (action : Action) (ours : action.ofStart = true) (moves : m.step s action ≠ none)
      : False :=
    moves (deadlock.stuck action ours)
  by_cases waits : m.poll = .waiting
  case neg =>
    obtain ⟨action, ours, moves⟩ := poll_moves (s := s) deadlock.started
      deadlock.unreturned deadlock.alive waits deadlock.cancelled
    exact blocked action ours moves
  case pos =>
    cases workers : m.workers with
    | nil =>
        apply blocked .waitDone rfl
        simp [Manager.step, waitDone, waits, workers]
    | cons e others =>
        have first : m.workers[0]? = some e := by rw [workers, List.getElem?_cons_zero]
        have handlerReturned := deadlock.handlersReturned e
          (List.mem_append_left _ (List.mem_of_getElem? first))
        have full : ¬ (0 < e.unsent → m.jobResults.length < resultCapacity) := by
          intro room
          obtain ⟨action, ours, moves⟩ := worker_moves (s := s) first handlerReturned room
          exact blocked action ours moves
        rw [Classical.not_imp, Nat.not_lt] at full
        obtain ⟨sends, full⟩ := full
        cases processor : m.processor with
        | off =>
            rw [started.mp processor] at waits
            cases waits
        | receiving =>
            cases results : m.jobResults with
            | nil =>
                rw [results] at full
                cases full
            | cons result rest =>
                apply blocked .receive rfl
                simp [Manager.step, receive, processor, results]
        | recording result =>
            refine blocked (.record .refused) rfl ?_
            simp [Manager.step, record, processor, mayDeliver]
        | stopped =>
            have room := inv.room processor
            rw [unsent, workers, total_cons] at room
            omega

end Manager

/-- In every run in which the result processor stops with room for all results to come, no
manager is deadlocked after its cancellation.
-/
theorem no_deadlock {name : String} {handlers : List String} {log : List Action} {m : Manager}
    (run : Runs (Guarded (Acts (Manager.observe (fun _ action _ => action)))
      Manager.DrainsAfterStop) { name, handlers } log m) (s : QueueStore)
    : ¬ m.Deadlocked s := by
  have inv : m.Started ∧ m.RoomLeft := by
    refine run.invariant (fun _ m => m.Started ∧ m.RoomLeft) ?_ ?_
    · exact ⟨iff_of_true rfl rfl, nofun, nofun⟩
    · intro log m action m' h₁ h₂
      obtain ⟨started, room⟩ := h₁
      obtain ⟨taken, drains⟩ := h₂
      obtain ⟨s, s', event, action, h, rfl⟩ := Manager.observed taken
      exact ⟨started.step h, room.step h drains⟩
  exact Manager.not_deadlocked inv.1 inv.2

/-- The store sees one job, and a manager whose context is cancelled while the handler runs. -/
def cancelledRound : List (QueueStore × Action) :=
  let store := QueueStore.insert ⟨.empty, 0⟩ "mail" 0 none
  [ .start 1 10, .unlockStaleJobs .answered, .loop, .countDueJobs .answered,
    .selectDueJobs .answered [1], .lockJob .answered, .acquire, .enter 0, .cancel,
    .stopProcessor, .execute 0 (.returned none), .endBatch, .wake, .loop ].map (store, ·)

/-- The result processor leaves before the result of the only job comes. -/
theorem no_deadlock_cancelled
    : ∃ log m, perform (Manager.observe (fun _ action _ => action))
          { name := "a", handlers := ["mail"] } cancelledRound = some (m, log)
        ∧ m.cancelled = true ∧ m.processor = .stopped ∧ m.unsent = 1
        ∧ ∀ s, ¬ m.Deadlocked s := by
  have noDeadlock {log : List Action} {m : Manager}
      (performed : perform (restrict (Manager.observe (fun _ action _ => action))
        Manager.DrainsAfterStop) { name := "a", handlers := ["mail"] } cancelledRound
          = some (m, log))
      : ∀ s, ¬ m.Deadlocked s :=
    no_deadlock (runs_of_perform_restrict performed)
  exact ⟨_, _, rfl, rfl, rfl, rfl, noDeadlock rfl⟩

-----------------------------------------------------------------------------------------
-- A channel that is full when the result processor leaves
-----------------------------------------------------------------------------------------

namespace Manager

/-- A manager with one worker whose result processor has not received any result yet. -/
def filling (poll : Poll) (results : List JobResult) : Manager :=
  { name := "a", handlers := ["mail"], batchSize := 10, permits := 1, poll,
    jobResults := results, processor := .receiving }

/-- The same manager with a job goroutine. -/
def fillingWith (results : List JobResult) (job : EnqueuedJob) (stage : Stage) : Manager :=
  { filling (.locking []) results with permits := 0, workers := [⟨job, stage⟩] }

/-- The context is cancelled, and the last result does not fit into the channel. -/
def stuckWith (results : List JobResult) (job : EnqueuedJob) (result : JobResult) : Manager :=
  { fillingWith results job (.sending result) with
    poll := .waiting, processor := .stopped, cancelled := true }

theorem stuckWith_deadlocked {results : List JobResult} (full : results.length = resultCapacity)
    (job : EnqueuedJob) (result : JobResult) (s : QueueStore)
    : (stuckWith results job result).Deadlocked s := by
  refine ⟨rfl, nofun, nofun, nofun, fun e mem => ?_, fun action ours => ?_⟩
  · obtain rfl : e = ⟨job, .sending result⟩ := List.mem_singleton.mp mem
    rfl
  · have noRoom : ¬ results.length < resultCapacity := full.not_lt
    cases action with
    | enter i | execute i _ | finish i => cases i with | zero => rfl | succ i => rfl
    | send i =>
        cases i with
        | zero => simp [Manager.step, send, stuckWith, fillingWith, filling, noRoom]
        | succ i => rfl
    | start _ _ | cancel | findByID _ _ | enterManual _ | executeManual _ _ | sendManual _ | tick
    | acquireRetryLock _ | markRetryFailedJobs _ | releaseRetryLock | crash => cases ours
    | _ => rfl

end Manager

/-- Every job of the table has been taken. -/
def AllTaken (s : QueueStore) : Prop := ∀ row ∈ s.jobs.rows, row.status = .processing

/-- The row of a job without arguments that is due from the beginning. -/
def newRow (s : QueueStore) : EnqueuedJob :=
  QueueStore.newJob "mail" (marshalArgs none) 0 s.now s.jobs.nextKey

section AllTaken

variable {s : QueueStore}

/-- The poll finds the new job only. -/
theorem AllTaken.fetches_new (taken : AllTaken s) (due : 0 ≤ s.now) (totalItems : Nat)
    : (s.insert "mail" 0 none).fetchDueJobs 1 10 pollStatuses (some s.now) totalItems
        [s.jobs.nextKey]
      = some (paginate [newRow s] totalItems 1 10) := by
  have others : ∀ row ∈ s.jobs.rows,
      (s.insert "mail" 0 none).isDue pollStatuses (some s.now) row = false := by
    intro row mem
    simp [QueueStore.isDue, taken row mem, pollStatuses]
  have meets : (s.insert "mail" 0 none).isDue pollStatuses (some s.now) (newRow s) = true := by
    simp [QueueStore.isDue, newRow, QueueStore.newJob, pollStatuses, due]
  obtain ⟨ordering, selected⟩ := KeyedTable.select_new
    (QueueStore.newJob "mail" (marshalArgs none) 0 s.now) (fun _ => rfl)
    (fun a b => decide (a.scheduledAt ≤ b.scheduledAt)) others meets (Nat.succ_pos 9)
  have page : (s.insert "mail" 0 none).jobs.select [s.jobs.nextKey] ((max 1 1 - 1) * 10) 10
      = [newRow s] := selected
  rw [QueueStore.fetchDueJobs]
  refine (if_pos ordering).trans ?_
  rw [page, max_self]

/-- The manager gets the lock of the new job, and all jobs are taken again. -/
theorem AllTaken.locks_new (taken : AllTaken s)
    : ((s.insert "mail" 0 none).lockJob s.jobs.nextKey "a").2 = true
      ∧ AllTaken ((s.insert "mail" 0 none).lockJob s.jobs.nextKey "a").1 := by
  constructor
  · rw [QueueStore.lockJob_ok]
    exact ⟨newRow s, KeyedTable.get?_insert_new _ (fun _ => rfl), rfl⟩
  · intro row' mem
    obtain ⟨row, inRows, ⟨-, -, rfl⟩ | ⟨rfl, unlocked⟩⟩ := QueueStore.mem_lockJob mem
    · rfl
    · rcases KeyedTable.mem_insert (fun _ => rfl) inRows with old | rfl
      · exact taken row' old
      · exact absurd ⟨rfl, rfl⟩ unlocked

end AllTaken

/-- A step of the only manager of a system. -/
theorem System.step_alone {s s' : QueueStore} {m m' : Manager} {action : Action} {event : Event}
    (h : m.step s action = some (s', m', event))
    : System.step ⟨s, [m]⟩ (.manager 0 action) = some (⟨s', [m']⟩, event) := by
  simp only [System.step, List.getElem?_cons_zero, h, Option.bind_eq_bind, Option.bind_some,
    Option.pure_def, List.set_cons_zero]

/-- A new job comes and the manager starts its handler. -/
def takesNewJob (jobID : Nat) : List SystemAction :=
  .insert "mail" 0 none
    :: [ .loop, .countDueJobs .answered, .selectDueJobs .answered [jobID], .lockJob .answered,
         .acquire, .enter 0 ].map (.manager 0)

theorem takesNewJob_perform {s : QueueStore} (taken : AllTaken s) (due : 0 ≤ s.now)
    (results : List JobResult)
    : ∃ s' log, perform System.step ⟨s, [.filling .polling results]⟩
            (takesNewJob s.jobs.nextKey)
          = some (⟨s', [.fillingWith results (newRow s) (.executing none)]⟩, log)
        ∧ AllTaken s' ∧ s'.now = s.now := by
  let s' := s.insert "mail" 0 none
  have selected (totalItems : Nat)
      : Manager.selectDueJobs s' (.filling (.selecting s.now totalItems) results) .answered
          [s.jobs.nextKey]
        = some (s', .filling (.locking [newRow s]) results, .fetched [newRow s]) := by
    have fetched := taken.fetches_new due totalItems
    simp only [Manager.selectDueJobs, Manager.filling, Manager.mayDeliver]
    rw [fetched]
    rfl
  have locked
      : Manager.lockJob s' (.filling (.locking [newRow s]) results) .answered
        = some ((s'.lockJob s.jobs.nextKey "a").1, .filling (.acquiring (newRow s) []) results,
            .locked (newRow s)) := by
    have ok : (s'.lockJob (newRow s).id "a").2 = true := taken.locks_new.1
    simp only [Manager.lockJob, Manager.filling, Manager.mayDeliver, ok]
    rfl
  exact ⟨_, _, perform_cons rfl (perform_cons rfl (perform_cons rfl
    (perform_cons (System.step_alone (selected _)) (perform_cons (System.step_alone locked)
      (perform_cons rfl (perform_cons rfl rfl)))))), taken.locks_new.2, rfl⟩

/-- The channel has `n` results and the manager goes on polling. -/
def Filled (n : Nat) : Prop :=
  ∃ log s results, Runs (Acts System.step) (System.initial 0) log ⟨s, [.filling .polling results]⟩
    ∧ results.length = n ∧ AllTaken s ∧ s.now = 0

/-- From an empty channel on, each job leaves one result more, by induction on the results. -/
theorem filled {n : Nat} (fits : n ≤ resultCapacity) : Filled n := by
  induction n with
  | zero =>
      have begun : ∃ log, perform System.step (System.initial 0)
          (.newManager "a" ["mail"] :: begins 0)
            = some (⟨⟨.empty, 0⟩, [.filling .polling []]⟩, log) :=
        ⟨_, rfl⟩
      obtain ⟨log, begun⟩ := begun
      have run := runs_of_perform begun
      refine ⟨log, ⟨.empty, 0⟩, [], run, rfl, ?_, rfl⟩
      exact fun row mem => by cases mem
  | succ n ih =>
      obtain ⟨log, s, results, run, length, taken, now⟩ := ih (Nat.le_of_succ_le fits)
      obtain ⟨s', log', took, taken', now'⟩ := takesNewJob_perform taken now.ge results
      have room : results.length < resultCapacity := length ▸ fits
      have sent (job : EnqueuedJob) (result : JobResult)
          : Manager.send s' (.fillingWith results job (.sending result)) 0
            = some (s', .fillingWith (results ++ [result]) job .finished, .internal) := by
        simp only [Manager.send, Manager.fillingWith, Manager.filling,
          List.getElem?_cons_zero, room, if_true, List.set_cons_zero]
      have returned : ∃ log'', perform System.step
          ⟨s', [.fillingWith results (newRow s) (.executing none)]⟩
          ([.execute 0 (.returned none), .send 0, .finish 0, .endBatch, .wake].map (.manager 0))
            = some (⟨s', [.filling .polling (results ++ [jobResult (newRow s) none])]⟩, log'') :=
        ⟨_, perform_cons rfl (perform_cons (System.step_alone (sent _ _)) (perform_cons rfl
          (perform_cons rfl (perform_cons rfl rfl))))⟩
      obtain ⟨log'', returned⟩ := returned
      refine ⟨_, s', _, (run.append (runs_of_perform took)).append (runs_of_perform returned), ?_,
        taken', now'.trans now⟩
      rw [List.length_append, length, List.length_singleton]

/-- A thousand results are in the channel when the context is cancelled during one more job. The
result processor stops first, and the job goroutine cannot send its result.
-/
theorem full_channel_deadlock
    : ∃ log s m, Runs (Acts System.step) (System.initial 0) log ⟨s, [m]⟩
        ∧ m.jobResults.length = 1000 ∧ m.Deadlocked s := by
  obtain ⟨log, s, results, run, full, taken, now⟩ := filled le_rfl
  obtain ⟨s', log', took, -, -⟩ := takesNewJob_perform taken now.ge results
  have cancelled : ∃ log'', perform System.step
      ⟨s', [.fillingWith results (newRow s) (.executing none)]⟩
      ([.execute 0 (.returned none), .endBatch, .wake, .cancel, .loop, .stopProcessor].map
        (.manager 0))
        = some (⟨s', [.stuckWith results (newRow s) (jobResult (newRow s) none)]⟩, log'') :=
    ⟨_, rfl⟩
  obtain ⟨log'', cancelled⟩ := cancelled
  exact ⟨_, s', _, (run.append (runs_of_perform took)).append (runs_of_perform cancelled), full,
    Manager.stuckWith_deadlocked full _ _ _⟩

end GoFire.QueueManager
