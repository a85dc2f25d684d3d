import GoFire.GoTime.Instants
import GoFire.Store.Records

/-! The PostgreSQL queue store: each statement on the table enqueued_jobs as it is executed at
one instant of the database clock.
-/

namespace GoFire.Store

open GoFire.State

/-- The table enqueued_jobs and the reading of the clock. -/
structure QueueStore where
  jobs : KeyedTable EnqueuedJob EnqueuedJob.id
  now : Int

namespace QueueStore

/-- The row Insert and BulkInsert create; the other columns take their defaults. -/
def newJob (name : String) (payload : Json) (scheduledAt now : Int) (id : Nat) : EnqueuedJob :=
  { id, name, payload, status := .queued, attempts := 0, maxAttempts := maxRetryAttempt,
    scheduledAt, executedAt := none, lastError := none, lockedBy := none, lockedAt := none,
    createdAt := now }

def insert (s : QueueStore) (jobName : String) (enqueueAt : Int) (args : Args)
    : QueueStore :=
  { s with
    jobs := s.jobs.insert (newJob jobName (marshalArgs args) enqueueAt s.now) (fun _ => rfl) }

def bulkInsert (s : QueueStore) (batch : List Job) : QueueStore :=
  batch.foldl (fun s job => s.insert job.name job.scheduledAt job.args) s

/-- The table without the row, and whether there was one. -/
def removeByID (s : QueueStore) (jobID : Nat) : QueueStore × Bool :=
  ({ s with jobs := s.jobs.delete jobID }, 0 < s.jobs.affected (fun job => job.id = jobID))

def isLockable (job : EnqueuedJob) : Bool := job.status = .queued || job.status = .retrying

/-- The updated table, and whether a row was affected. -/
def lockJob (s : QueueStore) (jobID : Nat) (lockedBy : String) : QueueStore × Bool :=
  let cond := fun (job : EnqueuedJob) => decide (job.id = jobID) && isLockable job
  ({ s with
    jobs := s.jobs.update cond
      (fun job => { job with lockedAt := some s.now, executedAt := some s.now,
                             lockedBy := some lockedBy, status := .processing })
      (fun _ => rfl) },
    0 < s.jobs.affected cond)

def markSuccess (s : QueueStore) (jobID : Nat) : QueueStore :=
  { s with
    jobs := s.jobs.update (fun job => job.id = jobID)
      (fun job => { job with status := .succeeded, executedAt := some s.now })
      (fun _ => rfl) }

/-- The status MarkFailure chooses from its attempts argument. -/
def failureStatus (attempts : Nat) : JobStatus :=
  if maxRetryAttempt ≤ attempts then .dead else .failed

theorem failureStatus_cases (attempts : Nat)
    : failureStatus attempts = .dead ∨ failureStatus attempts = .failed := by
  unfold failureStatus
  split
  · exact Or.inl rfl
  · exact Or.inr rfl

def markFailure (s : QueueStore) (jobID : Nat) (errMsg : String) (attempts _maxAttempts : Nat)
    : QueueStore :=
  { s with
    jobs := s.jobs.update (fun job => job.id = jobID)
      (fun job => { job with attempts := job.attempts + 1, lastError := some errMsg,
                             status := failureStatus attempts })
      (fun _ => rfl) }

def isRetryable (job : EnqueuedJob) : Bool :=
  job.status = .failed && job.attempts < job.maxAttempts

def markRetryFailedJobs (s : QueueStore) : QueueStore :=
  { s with
    jobs := s.jobs.update isRetryable
      (fun job => { job with status := .retrying, scheduledAt := s.now + GoTime.minute })
      (fun _ => rfl) }

/-- A NULL locked_at never compares. -/
def lockedUntil (job : EnqueuedJob) (instant : Int) : Bool :=
  job.lockedAt.any (fun lockedAt => lockedAt ≤ instant)

/-- The statement does not use the timeout it is given. -/
def unlockStaleJobs (s : QueueStore) (_timeout : Int) : QueueStore :=
  { s with
    jobs := s.jobs.update
      (fun job => job.status = .processing && lockedUntil job s.now)
      (fun job => { job with status := .queued, lockedBy := none, lockedAt := none })
      (fun _ => rfl) }

/-- The WHERE clause of FetchDueJobs: the optional bound, the optional status filter and the
lock TTL of 60 minutes.
-/
def isDue (s : QueueStore) (statuses : List JobStatus) (scheduledBefore : Option Int)
    (job : EnqueuedJob)
    : Bool :=
  scheduledBefore.all (fun bound => job.scheduledAt ≤ bound)
    && (statuses.isEmpty || statuses.contains job.status)
    && (job.status ≠ .processing
      || job.lockedAt.any (fun lockedAt => lockedAt < s.now - 60 * GoTime.minute))

/-- The count query of FetchDueJobs. -/
def countDueJobs (s : QueueStore) (statuses : List JobStatus) (scheduledBefore : Option Int)
    : Nat :=
  s.jobs.affected (s.isDue statuses scheduledBefore)

/-- The select query of FetchDueJobs and its result, when the database returns the due rows in
the given order.
-/
def fetchDueJobs (s : QueueStore) (page pageSize : Nat) (statuses : List JobStatus)
    (scheduledBefore : Option Int) (totalItems : Nat) (order : List Nat)
    : Option (PaginationResult EnqueuedJob) :=
  let page := max page 1
  if s.jobs.Ordering (s.isDue statuses scheduledBefore)
      (fun a b => a.scheduledAt ≤ b.scheduledAt) order then
    some (paginate (s.jobs.select order ((page - 1) * pageSize) pageSize) totalItems page
      pageSize)
  else none

end QueueStore

end GoFire.Store
