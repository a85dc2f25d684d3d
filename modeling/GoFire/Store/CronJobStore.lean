import GoFire.GoTime.Instants
import GoFire.Store.Records

/-! The PostgreSQL cron store: each statement on the table cron_jobs as it is executed at one
instant of the database clock.
-/

namespace GoFire.Store

open GoFire.State

/-- A row of cron_jobs. Times are instants in nanoseconds. -/
structure CronJob where
  id : Nat
  name : String
  payload : Json
  status : JobStatus
  lastError : Option String
  lockedBy : Option String
  lockedAt : Option Int
  createdAt : Int
  lastRunAt : Option Int
  nextRunAt : Option Int
  isActive : Bool
  expression : String

/-- The table cron_jobs and the reading of the clock. -/
structure CronStore where
  jobs : KeyedTable CronJob CronJob.id
  now : Int

namespace CronStore

/-- The row AddOrUpdate inserts; the other columns take their defaults. -/
def newJob (jobName : String) (scheduledAt : Int) (expression : String) (payload : Json)
    (now : Int) (id : Nat)
    : CronJob :=
  { id, name := jobName, payload, status := .queued, lastError := none, lockedBy := none,
    lockedAt := none, createdAt := now, lastRunAt := none, nextRunAt := some scheduledAt,
    isActive := true, expression }

/-- AddOrUpdate inserts a job or, when the name is taken, updates its row. It returns the
row's key.
-/
def addOrUpdate (s : CronStore) (jobName : String) (scheduledAt : Int) (expression : String)
    (args : Args)
    : CronStore × Nat :=
  match s.jobs.rows.find? (fun job => job.name = jobName) with
  | some old =>
      ({ s with
        jobs := s.jobs.update (fun job => job.id = old.id)
          (fun job => { job with nextRunAt := some scheduledAt, payload := marshalArgs args,
                                 expression })
          (fun _ => rfl) }, old.id)
  | none =>
      ({ s with
        jobs := s.jobs.insert
          (newJob jobName scheduledAt expression (marshalArgs args) s.now) (fun _ => rfl) },
        s.jobs.nextKey)

/-- next_run_at IS NULL OR next_run_at <= now(). -/
def isDueAt (now : Int) (job : CronJob) : Bool := job.nextRunAt.all (fun next => next ≤ now)

/-- The statuses that FetchDueCronJobs takes up whatever next_run_at says: queued, retrying,
and processing with a lock older than 60 minutes.
-/
def isPending (now : Int) (job : CronJob) : Bool :=
  job.status = .queued || job.status = .retrying
    || (job.status = .processing
      && job.lockedAt.any (fun lockedAt => lockedAt < now - 60 * GoTime.minute))

/-- The WHERE clause of FetchDueCronJobs. AND binds more tightly than OR. -/
def isFetched (s : CronStore) (job : CronJob) : Bool :=
  job.isActive && isDueAt s.now job || isPending s.now job

/-- ORDER BY next_run_at ASC NULLS FIRST. -/
def nextRunLe (a b : CronJob) : Bool :=
  match a.nextRunAt, b.nextRunAt with
  | none, _ => true
  | some _, none => false
  | some next, some next' => next ≤ next'

/-- The count query of FetchDueCronJobs. -/
def countDueCronJobs (s : CronStore) : Nat := s.jobs.affected s.isFetched

/-- The select query of FetchDueCronJobs and its result, when the database returns the rows in
the given order. A row whose next_run_at is NULL cannot be scanned and is passed over.
-/
def fetchDueCronJobs (s : CronStore) (page pageSize totalItems : Nat) (order : List Nat)
    : Option (PaginationResult CronJob) :=
  let page := max page 1
  if s.jobs.Ordering s.isFetched nextRunLe order then
    let rows := s.jobs.select order ((page - 1) * pageSize) pageSize
    some (paginate (rows.filter (fun job => job.nextRunAt.isSome)) totalItems page pageSize)
  else none

def isLockable (job : CronJob) : Bool :=
  job.status = .queued || job.status = .retrying || job.status = .succeeded
    || job.status = .failed

/-- The updated table, and whether a row was affected. -/
def lockJob (s : CronStore) (jobID : Nat) (lockedBy : String) : CronStore × Bool :=
  let cond := fun (job : CronJob) => decide (job.id = jobID) && isLockable job
  ({ s with
    jobs := s.jobs.update cond
      (fun job => { job with lockedAt := some s.now, lockedBy := some lockedBy,
                             status := .processing })
      (fun _ => rfl) },
    0 < s.jobs.affected cond)

/-- UnLockJob clears the lock of a row and leaves its status. -/
def unLockJob (s : CronStore) (jobID : Nat) : CronStore × Bool :=
  let cond := fun (job : CronJob) => decide (job.id = jobID)
  ({ s with
    jobs := s.jobs.update cond (fun job => { job with lockedAt := none, lockedBy := none })
      (fun _ => rfl) },
    0 < s.jobs.affected cond)

def updateJobRunTimes (s : CronStore) (jobID : Nat) (lastRunAt nextRunAt : Int) : CronStore :=
  { s with
    jobs := s.jobs.update (fun job => job.id = jobID)
      (fun job => { job with lastRunAt := some lastRunAt, nextRunAt := some nextRunAt })
      (fun _ => rfl) }

def markSuccess (s : CronStore) (jobID : Nat) : CronStore :=
  { s with
    jobs := s.jobs.update (fun job => job.id = jobID)
      (fun job => { job with status := .succeeded, lastError := none, lockedAt := none,
                             lockedBy := none })
      (fun _ => rfl) }

def markFailure (s : CronStore) (jobID : Nat) (errMsg : String) : CronStore :=
  { s with
    jobs := s.jobs.update (fun job => job.id = jobID)
      (fun job => { job with status := .failed, lastError := some errMsg })
      (fun _ => rfl) }

def changeActivate (s : CronStore) (jobID : Nat) (isActive : Bool) : CronStore :=
  { s with
    jobs := s.jobs.update (fun job => job.id = jobID) (fun job => { job with isActive })
      (fun _ => rfl) }

def activate (s : CronStore) (jobID : Nat) : CronStore := s.changeActivate jobID true

def deActivate (s : CronStore) (jobID : Nat) : CronStore := s.changeActivate jobID false

end CronStore

end GoFire.Store
