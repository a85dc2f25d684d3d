import GoFire.Foundations.NumberedRows
import GoFire.Foundations.TransitionSystem
import GoFire.QueueManager.ManagerSteps

/-! The table of enqueued jobs as its clients know it: a numbered list of what was inserted, with a
gap for each job that was removed. The calls of the clients alone make up this book, in any run of
any number of managers.
-/

namespace GoFire.QueueManager

open GoFire.State GoFire.Store TransitionSystem

/-- What stays of a job as long as its row does. -/
structure Ticket where
  name : String
  payload : Json
  maxAttempts : Nat
  createdAt : Int

def Ticket.ofRow (row : EnqueuedJob) : Ticket :=
  ⟨row.name, row.payload, row.maxAttempts, row.createdAt⟩

/-- The ticket of a job that is inserted now. -/
def Ticket.ofJob (now : Int) (job : Job) : Ticket :=
  ⟨job.name, marshalArgs job.args, maxRetryAttempt, now⟩

/-- A call of a client that took effect. -/
inductive Command where
  | other
  | insert (tickets : List Ticket)
  | remove (jobID : Nat)

/-- The tickets under the keys from one on. -/
abbrev Book := List (Option Ticket)

def Book.obey (book : Book) : Command → Book
  | .other => book
  | .insert tickets => book ++ tickets.map some
  | .remove jobID => KeyedTable.blot book jobID

/-- The call behind an action. -/
def SystemAction.command (s : System) : SystemAction → Command
  | .insert jobName enqueueAt args =>
      .insert [.ofJob s.store.now { name := jobName, args, scheduledAt := enqueueAt }]
  | .bulkInsert batch => .insert (batch.map (.ofJob s.store.now))
  | .removeByID jobID => .remove jobID
  | _ => .other

/-- The steps of the system with the calls behind them. -/
def System.obey (s : System) (action : SystemAction) : Option (System × Command) :=
  (s.step action).map fun next => (next.1, action.command s)

/-- The table holds what the book says. -/
def Keeps (s : QueueStore) (book : Book) : Prop := s.jobs.Numbers Ticket.ofRow book

namespace Keeps

variable {s : QueueStore} {book : Book} (keeps : Keeps s book)

include keeps

theorem insert (jobName : String) (enqueueAt : Int) (args : Args)
    : Keeps (s.insert jobName enqueueAt args)
        (book ++ [some (.ofJob s.now { name := jobName, args, scheduledAt := enqueueAt })]) :=
  KeyedTable.Numbers.insert keeps _ (by intro; rfl)

/-- A batch is entered job by job, by induction on it. -/
theorem bulkInsert (batch : List Job)
    : Keeps (s.bulkInsert batch) (book ++ (batch.map (Ticket.ofJob s.now)).map some) := by
  rw [QueueStore.bulkInsert]
  induction batch generalizing s book with
  | nil =>
      rw [List.map_nil, List.map_nil, List.append_nil]
      exact keeps
  | cons job rest ih =>
      have entered := ih (keeps.insert job.name job.scheduledAt job.args)
      rw [List.append_assoc] at entered
      exact entered

theorem removeByID (jobID : Nat)
    : Keeps (s.removeByID jobID).1 (book.obey (.remove jobID)) :=
  KeyedTable.Numbers.delete keeps jobID

theorem lockJob (jobID : Nat) (lockedBy : String) : Keeps (s.lockJob jobID lockedBy).1 book :=
  KeyedTable.Numbers.update keeps _ (by intro; rfl) (by intro; rfl)

theorem markRetryFailedJobs : Keeps s.markRetryFailedJobs book :=
  KeyedTable.Numbers.update keeps _ (by intro; rfl) (by intro; rfl)

theorem unlockStaleJobs (timeout : Int) : Keeps (s.unlockStaleJobs timeout) book :=
  KeyedTable.Numbers.update keeps _ (by intro; rfl) (by intro; rfl)

theorem recordOutcome (result : JobResult) : Keeps (recordOutcome s result) book := by
  unfold QueueManager.recordOutcome
  split
  case h_1 => exact KeyedTable.Numbers.update keeps _ (by intro; rfl) (by intro; rfl)
  case h_2 => exact KeyedTable.Numbers.update keeps _ (by intro; rfl) (by intro; rfl)
  case h_3 => exact keeps

/-- No step of a manager is seen in the book. -/
theorem manager {s' : QueueStore} {m m' : Manager} {action : Action} {event : Event}
    (h : m.step s action = some (s', m', event))
    : Keeps s' book := by
  cases Manager.step_moves h with
  | locked | lockLost => exact keeps.lockJob _ _
  | unlocked | unlockLost => exact keeps.unlockStaleJobs _
  | recorded => exact keeps.recordOutcome _
  | swept => exact keeps.markRetryFailedJobs
  | _ => exact keeps

end Keeps

/-- A step changes the book as the call behind it does. -/
theorem System.keeps_step {s s' : System} {command : Command} {book : Book}
    (h : Acts System.obey s command s') (keeps : Keeps s.store book)
    : Keeps s'.store (book.obey command) := by
  obtain ⟨action, h⟩ := h
  simp only [System.obey, Option.map_eq_some_iff] at h
  obtain ⟨⟨next, event⟩, taken, same⟩ := h
  cases same
  cases action with
  | pass duration =>
      cases taken
      exact keeps
  | insert jobName enqueueAt args =>
      cases taken
      exact keeps.insert jobName enqueueAt args
  | bulkInsert batch =>
      cases taken
      exact keeps.bulkInsert batch
  | removeByID jobID =>
      cases taken
      exact keeps.removeByID jobID
  | newManager name handlers =>
      cases taken
      exact keeps
  | manager i action =>
      obtain ⟨m, store, m', found, moved, rfl⟩ := System.manager_step taken
      exact keeps.manager moved

/-- In every run the rows of the table are the jobs that were inserted, under the numbers of their
insertions and in this order, less the jobs that were removed. Nothing that the managers do is seen
in them.
-/
theorem System.rows_of_run {now : Int} {commands : List Command} {s : System}
    (run : Runs (Acts System.obey) (System.initial now) commands s)
    : s.store.jobs.rows.map (fun row => (row.id, Ticket.ofRow row))
        = KeyedTable.numbered (commands.foldl Book.obey []) := by
  refine (run.invariant (fun commands s => Keeps s.store (commands.foldl Book.obey []))
    KeyedTable.Numbers.empty ?_).rows
  intro commands s command s' keeps h
  rw [List.foldl_append]
  exact System.keeps_step h keeps

/-- Two jobs are inserted and the first is removed while its handler runs; its outcome is recorded
nowhere.
-/
theorem System.rows_of_run_removed
    : ∃ s commands, perform System.obey (System.initial 0)
          (oneManager ++ [.insert "sms" 0 none] ++ begins 0
            ++ [.loop, .countDueJobs .answered, .selectDueJobs .answered [1, 2]].map (.manager 0)
            ++ takesJob 0 ++ [.removeByID 1] ++ returnsJob 0 none) = some (s, commands)
        ∧ s.store.jobs.rows.map (fun row => (row.id, Ticket.ofRow row))
          = [(2, ⟨"sms", .null, maxRetryAttempt, 0⟩)] := by
  have performed :=
    show perform System.obey (System.initial 0)
        (oneManager ++ [.insert "sms" 0 none] ++ begins 0
          ++ [.loop, .countDueJobs .answered, .selectDueJobs .answered [1, 2]].map (.manager 0)
          ++ takesJob 0 ++ [.removeByID 1] ++ returnsJob 0 none)
      = some (_, _)
    from rfl
  refine ⟨_, _, performed, ?_⟩
  rw [System.rows_of_run (runs_of_perform performed)]
  rfl

end GoFire.QueueManager
