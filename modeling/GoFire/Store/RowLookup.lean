import GoFire.Foundations.TransitionSystem
import GoFire.Store.EnqueuedJobStore

/-! FindByID and the cursor protocol of database/sql. A row is scanned only after Next has moved
the cursor to it; FindByID scans without a call of Next, and scans the nil cursor of a failed
query.
-/

namespace GoFire.Store

open GoFire.State TransitionSystem

/-- How a call of a Go function ends. -/
inductive CallOutcome (α : Type) where
  | returned (value : α)
  | failed (err : String)
  | panicked

/-- The cursor over the rows of a query. -/
structure Rows where
  current : Option EnqueuedJob := none
  ahead : List EnqueuedJob

/-- Next moves the cursor to the next row, if there is one. -/
def Rows.next (rows : Rows) : Option Rows :=
  match rows.ahead with
  | [] => none
  | job :: ahead => some ⟨some job, ahead⟩

/-- The scan of the current row; the cursor of a failed query is nil. -/
def mapSqlRowsToJob : Option Rows → CallOutcome EnqueuedJob
  | none => .panicked
  | some rows =>
      match rows.current with
      | some job => .returned job
      | none => .failed "sql: Scan called without calling Next"

/-- The loop of FetchDueJobs over its rows. -/
def Rows.collect (rows : Rows) : List EnqueuedJob :=
  match _moves : rows.next with
  | none => []
  | some moved =>
      match mapSqlRowsToJob (some moved) with
      | .returned job => job :: moved.collect
      | _ => moved.collect
termination_by rows.ahead.length
decreasing_by
  all_goals
    obtain ⟨current, ahead⟩ := rows
    cases ahead with
    | nil => cases _moves
    | cons job ahead =>
        cases _moves
        exact Nat.lt_succ_self _

/-- The loop that calls Next reads all rows of the query, by induction on the rows ahead. -/
theorem Rows.collect_eq (rows : Rows) : rows.collect = rows.ahead := by
  obtain ⟨current, ahead⟩ := rows
  induction ahead generalizing current with
  | nil =>
      rw [Rows.collect]
      rfl
  | cons job ahead ih =>
      rw [Rows.collect]
      exact congrArg (job :: ·) (ih (some job))

namespace QueueStore

/-- The query of FindByID; an error of the query leaves no cursor. -/
def queryByID (s : QueueStore) (jobID : Nat) (delivery : Delivery) : Option Rows :=
  if delivery = .answered then some { ahead := (s.jobs.get? jobID).toList } else none

/-- FindByID overwrites the error of its query with that of the scan. -/
def findByID (s : QueueStore) (jobID : Nat) (delivery : Delivery) : CallOutcome EnqueuedJob :=
  match mapSqlRowsToJob (s.queryByID jobID delivery) with
  | .failed err => .failed ("job with ID " ++ toString jobID ++ " not found: " ++ err)
  | outcome => outcome

theorem findByID_answered (s : QueueStore) (jobID : Nat)
    : s.findByID jobID .answered
      = .failed ("job with ID " ++ toString jobID
        ++ " not found: sql: Scan called without calling Next") := by
  simp only [findByID, queryByID, mapSqlRowsToJob, String.append_assoc]
  rfl

theorem findByID_unanswered (s : QueueStore) (jobID : Nat) {delivery : Delivery}
    (error : delivery ≠ .answered)
    : s.findByID jobID delivery = .panicked := by
  simp only [findByID, queryByID, if_neg error, mapSqlRowsToJob]

-----------------------------------------------------------------------------------------
-- Histories of the store
-----------------------------------------------------------------------------------------

inductive Call where
  | pass (duration : Nat)
  | insert (jobName : String) (enqueueAt : Int) (args : Args)
  | bulkInsert (batch : List Job)
  | lockJob (jobID : Nat) (lockedBy : String)
  | markSuccess (jobID : Nat)
  | markFailure (jobID : Nat) (errMsg : String) (attempts maxAttempts : Int)
  | markRetryFailedJobs
  | unlockStaleJobs (timeout : Int)
  | removeByID (jobID : Nat)

/-- What a call does to the set of the jobs. -/
inductive Change where
  | none
  | inserted (jobIDs : List Nat)
  | removed (jobID : Nat)

def Change.Inserts (jobID : Nat) : Change → Prop
  | .inserted jobIDs => jobID ∈ jobIDs
  | _ => False

def Change.Removes (jobID : Nat) : Change → Prop
  | .removed deleted => jobID = deleted
  | _ => False

instance (jobID : Nat) : DecidablePred (Change.Inserts jobID)
  | .inserted jobIDs => inferInstanceAs (Decidable (jobID ∈ jobIDs))
  | .removed _ => isFalse id
  | .none => isFalse id

instance (jobID : Nat) : DecidablePred (Change.Removes jobID)
  | .removed deleted => inferInstanceAs (Decidable (jobID = deleted))
  | .inserted _ => isFalse id
  | .none => isFalse id

def call (s : QueueStore) : Call → QueueStore × Change
  | .pass duration => ({ s with now := s.now + duration }, .none)
  | .insert jobName enqueueAt args =>
      (s.insert jobName enqueueAt args, .inserted [s.jobs.nextKey])
  | .bulkInsert batch =>
      (s.bulkInsert batch, .inserted (List.range' s.jobs.nextKey batch.length))
  | .lockJob jobID lockedBy => ((s.lockJob jobID lockedBy).1, .none)
  | .markSuccess jobID => (s.markSuccess jobID, .none)
  -- Attempts are compared with the positive MaxRetryAttempt only, so a negative number acts as 0.
  | .markFailure jobID errMsg attempts maxAttempts =>
      (s.markFailure jobID errMsg attempts.toNat maxAttempts.toNat, .none)
  | .markRetryFailedJobs => (s.markRetryFailedJobs, .none)
  | .unlockStaleJobs timeout => (s.unlockStaleJobs timeout, .none)
  | .removeByID jobID => ((s.removeByID jobID).1, .removed jobID)

/-- A call that is refused changes nothing; one whose answer is lost is made all the same. -/
def step (s : QueueStore) (action : Call × Delivery) : Option (QueueStore × Change) :=
  some (action.2.apply (s, .none) (s.call action.1))

variable {s s' : QueueStore} {change : Change} {log : List Change} {jobID : Nat} {now : Int}

theorem keys_bulkInsert (s : QueueStore) (batch : List Job)
    : (s.bulkInsert batch).jobs.keys
      = s.jobs.keys ++ List.range' s.jobs.nextKey batch.length := by
  unfold bulkInsert
  induction batch generalizing s with
  | nil => simp
  | cons job rest ih =>
      have inserted : (s.insert job.name job.scheduledAt job.args).jobs.keys
          = s.jobs.keys ++ [s.jobs.nextKey] :=
        KeyedTable.keys_insert _ (by intro; rfl)
      rw [List.foldl_cons, ih, inserted, List.append_assoc, List.length_cons, List.range'_succ]
      rfl

/-- A call inserts and removes the keys it reports, and keeps the others. -/
theorem mem_keys_call (s : QueueStore) (c : Call) (jobID : Nat)
    : jobID ∈ (s.call c).1.jobs.keys
      ↔ (s.call c).2.Inserts jobID ∨ (jobID ∈ s.jobs.keys ∧ ¬ (s.call c).2.Removes jobID) := by
  cases c with
  | insert jobName enqueueAt args =>
      have inserted : (s.insert jobName enqueueAt args).jobs.keys
          = s.jobs.keys ++ [s.jobs.nextKey] :=
        KeyedTable.keys_insert _ (by intro; rfl)
      simp only [call, inserted, List.mem_append, Change.Inserts, Change.Removes, not_false_iff,
        and_true, or_comm]
  | bulkInsert batch =>
      simp only [call, keys_bulkInsert, List.mem_append, Change.Inserts, Change.Removes,
        not_false_iff, and_true, or_comm]
  | removeByID removed =>
      have left : jobID ∈ (s.removeByID removed).1.jobs.keys
          ↔ jobID ∈ s.jobs.keys ∧ jobID ≠ removed :=
        KeyedTable.mem_keys_delete
      simp only [call, left, Change.Inserts, Change.Removes, false_or, ne_eq]
  | pass => simp [call, Change.Inserts, Change.Removes]
  | _ =>
      simp only [call, Change.Inserts, Change.Removes, not_false_iff, and_true, false_or]
      exact Iff.of_eq (congrArg (jobID ∈ ·) (KeyedTable.keys_update _ _ (by intro; rfl)))

theorem mem_keys_step (h : Acts step s change s')
    : jobID ∈ s'.jobs.keys
      ↔ change.Inserts jobID ∨ (jobID ∈ s.jobs.keys ∧ ¬ change.Removes jobID) := by
  obtain ⟨⟨c, delivery⟩, h⟩ := h
  simp only [step, Option.some.injEq] at h
  cases delivery with
  | refused =>
      cases h
      simp [Change.Inserts, Change.Removes]
  | answered =>
      have called := mem_keys_call s c jobID
      rwa [show s.call c = (s', change) from h] at called
  | lost =>
      have called := mem_keys_call s c jobID
      rwa [show s.call c = (s', change) from h] at called

/-- After every history, exactly the jobs that were inserted and not removed have a row. -/
theorem row_iff_open (run : Runs (Acts step) ⟨.empty, now⟩ log s) (jobID : Nat)
    : (s.jobs.get? jobID).isSome = true
      ↔ Open (Change.Inserts jobID) (Change.Removes jobID) log := by
  rw [KeyedTable.isSome_get?_iff]
  refine run.invariant (fun log s =>
    jobID ∈ s.jobs.keys ↔ Open (Change.Inserts jobID) (Change.Removes jobID) log) ?_ ?_
  · exact iff_of_false List.not_mem_nil (not_open_nil _ _)
  · intro log s change s' inv last
    rw [mem_keys_step last, open_append, inv]

/-- The lookup of a job after a history returns its current row if it was inserted and not
removed, and an error otherwise.
-/
def FindsRow (s : QueueStore) (log : List Change) (jobID : Nat) (delivery : Delivery) : Prop :=
  (Open (Change.Inserts jobID) (Change.Removes jobID) log
    → ∃ job, s.jobs.get? jobID = some job ∧ s.findByID jobID delivery = .returned job)
  ∧ (¬ Open (Change.Inserts jobID) (Change.Removes jobID) log
    → ∃ err, s.findByID jobID delivery = .failed err)

/-- After every history, the lookup does so exactly when the job is not there and the query
does not fail.
-/
theorem findsRow_iff (run : Runs (Acts step) ⟨.empty, now⟩ log s) (jobID : Nat)
    (delivery : Delivery)
    : FindsRow s log jobID delivery
      ↔ ¬ Open (Change.Inserts jobID) (Change.Removes jobID) log ∧ delivery = .answered := by
  rw [FindsRow, ← row_iff_open run]
  constructor
  · intro h
    obtain ⟨present, absent⟩ := h
    have missing : ¬ (s.jobs.get? jobID).isSome = true := by
      intro there
      obtain ⟨job, -, returned⟩ := present there
      by_cases answered : delivery = .answered
      · rw [answered, findByID_answered] at returned
        cases returned
      · rw [findByID_unanswered s jobID answered] at returned
        cases returned
    refine ⟨missing, ?_⟩
    by_contra error
    obtain ⟨err, failed⟩ := absent missing
    rw [findByID_unanswered s jobID error] at failed
    cases failed
  · intro h
    obtain ⟨missing, rfl⟩ := h
    exact ⟨fun there => absurd there missing, fun _ => ⟨_, findByID_answered s jobID⟩⟩

/-- The lookup of a removed job. -/
theorem findsRow_iff_removed
    : ∃ s log, perform step ⟨.empty, 0⟩
          [(.insert "mail" 0 none, .answered), (.removeByID 1, .answered)] = some (s, log)
        ∧ FindsRow s log 1 .answered := by
  have performed :=
    show perform step ⟨.empty, 0⟩ [(.insert "mail" 0 none, .answered), (.removeByID 1, .answered)]
      = some (_, _)
    from rfl
  exact ⟨_, _, performed,
    (findsRow_iff (runs_of_perform performed) 1 .answered).mpr ⟨by decide, rfl⟩⟩

/-- A job that was just inserted is not found, and a failing query panics. -/
theorem inserted_job_not_found
    : ∃ s log, perform step ⟨.empty, 0⟩ [(.insert "mail" 0 none, .answered)] = some (s, log)
        ∧ Open (Change.Inserts 1) (Change.Removes 1) log
        ∧ (s.jobs.get? 1).isSome = true
        ∧ s.findByID 1 .answered
          = .failed ("job with ID " ++ toString 1
            ++ " not found: sql: Scan called without calling Next")
        ∧ s.findByID 1 .refused = .panicked ∧ s.findByID 2 .refused = .panicked :=
  ⟨_, _, rfl, by decide, rfl, findByID_answered _ 1, rfl, rfl⟩

end QueueStore

end GoFire.Store
