import GoFire.Store.EnqueuedJobStore

/-! What each statement of the queue store does to a row. -/

namespace GoFire.Store.QueueStore

open GoFire.State

variable {s : QueueStore} {row' : EnqueuedJob} {jobID : Nat}

/-- The items of a fetched page are rows of the table that meet the WHERE clause. -/
theorem mem_fetchDueJobs {page pageSize totalItems : Nat} {statuses : List JobStatus}
    {bound : Option Int} {order : List Nat} {result : PaginationResult EnqueuedJob}
    (h : s.fetchDueJobs page pageSize statuses bound totalItems order = some result)
    (mem : row' ∈ result.items)
    : s.jobs.get? row'.id = some row' ∧ s.isDue statuses bound row' = true := by
  simp only [fetchDueJobs] at h
  split at h
  case isFalse => cases h
  case isTrue ordering =>
    cases h
    exact KeyedTable.mem_of_select ordering mem

theorem lockJob_ok {lockedBy : String}
    : (s.lockJob jobID lockedBy).2 = true
      ↔ ∃ row, s.jobs.get? jobID = some row ∧ isLockable row = true := by
  simp only [lockJob, decide_eq_true_eq]
  exact KeyedTable.affected_key_pos

/-- LockJob moves a lockable row to processing and keeps every other row. -/
theorem mem_lockJob {lockedBy : String} (mem : row' ∈ (s.lockJob jobID lockedBy).1.jobs.rows)
    : ∃ row ∈ s.jobs.rows,
        (row.id = jobID ∧ isLockable row = true
          ∧ row' = { row with lockedAt := some s.now, executedAt := some s.now,
                              lockedBy := some lockedBy, status := .processing })
        ∨ (row' = row ∧ ¬ (row.id = jobID ∧ isLockable row = true)) :=
  KeyedTable.mem_update_key_if (by intro; rfl) mem

/-- A row that LockJob does not move to processing is kept. -/
theorem kept_mem_lockJob {lockedBy : String} {row : EnqueuedJob} (mem : row ∈ s.jobs.rows)
    (unmoved : (s.lockJob jobID lockedBy).2 = true → jobID ≠ row.id)
    : row ∈ (s.lockJob jobID lockedBy).1.jobs.rows := by
  refine KeyedTable.kept_mem_update_key_if (by intro; rfl) mem fun lockable same => ?_
  subst same
  exact unmoved (lockJob_ok.mpr ⟨row, KeyedTable.get?_of_mem mem, lockable⟩) rfl

theorem mem_removeByID (mem : row' ∈ (s.removeByID jobID).1.jobs.rows)
    : row' ∈ s.jobs.rows ∧ row'.id ≠ jobID :=
  KeyedTable.mem_delete mem

theorem bulkInsert_now (s : QueueStore) (batch : List Job)
    : (s.bulkInsert batch).now = s.now := by
  unfold bulkInsert
  induction batch generalizing s with
  | nil => rfl
  | cons job rest ih => exact ih (s.insert job.name job.scheduledAt job.args)

/-- The columns of a row that its insertion sets from a job. -/
def content (row : EnqueuedJob) : String × Json × Int := (row.name, row.payload, row.scheduledAt)

/-- The columns that the insertion of a job sets. -/
def jobContent (job : Job) : String × Json × Int := (job.name, marshalArgs job.args, job.scheduledAt)

/-- BulkInsert appends a row for each job, seen through columns that come from the job alone, by
induction on the batch.
-/
theorem map_bulkInsert {α : Type} {columns : EnqueuedJob → α} {jobColumns : Job → α}
    (inserts : ∀ job now id,
      columns (newJob job.name (marshalArgs job.args) job.scheduledAt now id) = jobColumns job)
    (s : QueueStore) (batch : List Job)
    : (s.bulkInsert batch).jobs.rows.map columns
      = s.jobs.rows.map columns ++ batch.map jobColumns := by
  unfold bulkInsert
  induction batch generalizing s with
  | nil => rw [List.foldl_nil, List.map_nil, List.append_nil]
  | cons job rest ih =>
      have inserted : (s.insert job.name job.scheduledAt job.args).jobs.rows.map columns
          = s.jobs.rows.map columns ++ [jobColumns job] := by
        simp only [insert, KeyedTable.insert, List.map_append, List.map_cons, List.map_nil,
          inserts]
      rw [List.foldl_cons, ih, inserted, List.append_assoc, List.map_cons]
      rfl

/-- The contents of the table after BulkInsert. -/
theorem contents_bulkInsert (s : QueueStore) (batch : List Job)
    : (s.bulkInsert batch).jobs.rows.map content
      = s.jobs.rows.map content ++ batch.map jobContent :=
  map_bulkInsert (fun _ _ _ => rfl) s batch

theorem nextKey_le_bulkInsert (s : QueueStore) (batch : List Job)
    : s.jobs.nextKey ≤ (s.bulkInsert batch).jobs.nextKey := by
  unfold bulkInsert
  induction batch generalizing s with
  | nil => exact le_rfl
  | cons job rest ih => exact (Nat.le_succ _).trans (ih (s.insert job.name job.scheduledAt job.args))

/-- Inserted rows are new, queued and untried. -/
theorem mem_bulkInsert {batch : List Job} (mem : row' ∈ (s.bulkInsert batch).jobs.rows)
    : row' ∈ s.jobs.rows
      ∨ (s.jobs.nextKey ≤ row'.id ∧ row'.status = .queued ∧ row'.attempts = 0
        ∧ row'.maxAttempts = maxRetryAttempt) := by
  unfold bulkInsert at mem
  induction batch generalizing s with
  | nil => exact Or.inl mem
  | cons job rest ih =>
      rcases ih mem with earlier | ⟨fresh, new⟩
      · rcases KeyedTable.mem_insert (by intro; rfl) earlier with old | rfl
        · exact Or.inl old
        · exact Or.inr ⟨le_rfl, rfl, rfl, rfl⟩
      · exact Or.inr ⟨(Nat.le_succ _).trans fresh, new⟩

theorem mem_markSuccess (mem : row' ∈ (s.markSuccess jobID).jobs.rows)
    : ∃ row ∈ s.jobs.rows,
        (row.id = jobID ∧ row' = { row with status := .succeeded, executedAt := some s.now })
        ∨ (row.id ≠ jobID ∧ row' = row) :=
  KeyedTable.mem_update_key (by intro; rfl) mem

theorem mem_markFailure {errMsg : String} {attempts : Nat} (maxAttempts : Nat)
    (mem : row' ∈ (s.markFailure jobID errMsg attempts maxAttempts).jobs.rows)
    : ∃ row ∈ s.jobs.rows,
        (row.id = jobID ∧ row' = { row with attempts := row.attempts + 1, lastError := some errMsg,
                                            status := failureStatus attempts })
        ∨ (row.id ≠ jobID ∧ row' = row) :=
  KeyedTable.mem_update_key (by intro; rfl) mem

theorem mem_markRetryFailedJobs (mem : row' ∈ s.markRetryFailedJobs.jobs.rows)
    : ∃ row ∈ s.jobs.rows,
        (isRetryable row = true
          ∧ row' = { row with status := .retrying, scheduledAt := s.now + GoTime.minute })
        ∨ (isRetryable row = false ∧ row' = row) :=
  KeyedTable.mem_update (by intro; rfl) mem

theorem mem_unlockStaleJobs (timeout : Int)
    (mem : row' ∈ (s.unlockStaleJobs timeout).jobs.rows)
    : ∃ row ∈ s.jobs.rows,
        (row.status = .processing ∧ lockedUntil row s.now = true
          ∧ row' = { row with status := .queued, lockedBy := none, lockedAt := none })
        ∨ row' = row := by
  obtain ⟨row, inRows, ⟨cond, rfl⟩ | ⟨-, rfl⟩⟩ := KeyedTable.mem_update (by intro; rfl) mem
  · simp only [Bool.and_eq_true, decide_eq_true_eq] at cond
    exact ⟨row, inRows, Or.inl ⟨cond.1, cond.2, rfl⟩⟩
  · exact ⟨_, inRows, Or.inr rfl⟩

end GoFire.Store.QueueStore
