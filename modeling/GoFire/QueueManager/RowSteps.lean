import GoFire.QueueManager.Board
import GoFire.Store.QueueRows

/-! What a step of the board can do to a row of the table, said once for all invariants. -/

namespace GoFire.QueueManager

open GoFire.State GoFire.Store


inductive Recorded (now : Int) (result : JobResult) (row : EnqueuedJob) : EnqueuedJob → Prop where
  | success (succeeded : result.status = .succeeded)
      : Recorded now result row { row with status := .succeeded, executedAt := some now }
  | failure (failed : result.status = .failed)
      : Recorded now result row
          { row with attempts := row.attempts + 1, lastError := some (result.err.getD ""),
                     status := QueueStore.failureStatus result.attempts }
  | unknown (other : result.status ≠ .succeeded ∧ result.status ≠ .failed)
      : Recorded now result row row

theorem mem_recordOutcome {s : QueueStore} {result : JobResult} {row' : EnqueuedJob}
    (mem : row' ∈ (recordOutcome s result).jobs.rows)
    : ∃ row ∈ s.jobs.rows, (row.id = result.jobID ∧ Recorded s.now result row row')
        ∨ (row.id ≠ result.jobID ∧ row' = row) := by
  cases status : result.status with
  | succeeded =>
      simp only [recordOutcome, status] at mem
      obtain ⟨row, inRows, ⟨same, rfl⟩ | other⟩ := QueueStore.mem_markSuccess mem
      · exact ⟨row, inRows, Or.inl ⟨same, .success status⟩⟩
      · exact ⟨row, inRows, Or.inr other⟩
  | failed =>
      simp only [recordOutcome, status] at mem
      obtain ⟨row, inRows, ⟨same, rfl⟩ | other⟩ :=
        QueueStore.mem_markFailure result.maxAttempts mem
      · exact ⟨row, inRows, Or.inl ⟨same, .failure status⟩⟩
      · exact ⟨row, inRows, Or.inr other⟩
  | _ =>
      simp only [recordOutcome, status] at mem
      refine ⟨row', mem, ?_⟩
      by_cases same : row'.id = result.jobID
      · exact Or.inl ⟨same, .unknown (by simp [status])⟩
      · exact Or.inr ⟨same, rfl⟩

/-- The result's row is there afterwards, recorded. -/
theorem recorded_mem {s : QueueStore} {result : JobResult} {row : EnqueuedJob}
    (mem : row ∈ s.jobs.rows) (same : row.id = result.jobID)
    : ∃ row' ∈ (recordOutcome s result).jobs.rows, Recorded s.now result row row' := by
  cases status : result.status with
  | succeeded =>
      refine ⟨_, ?_, .success status⟩
      simp only [recordOutcome, status]
      exact KeyedTable.set_mem_update (by intro; rfl) mem (by simpa using same)
  | failed =>
      refine ⟨_, ?_, .failure status⟩
      simp only [recordOutcome, status]
      exact KeyedTable.set_mem_update (by intro; rfl) mem (by simpa using same)
  | _ =>
      refine ⟨row, ?_, .unknown (by simp [status])⟩
      simpa only [recordOutcome, status] using mem

theorem recordOutcome_now (s : QueueStore) (result : JobResult)
    : (recordOutcome s result).now = s.now := by
  cases status : result.status with
  | succeeded =>
      simp only [recordOutcome, status]
      rfl
  | failed =>
      simp only [recordOutcome, status]
      rfl
  | _ => simp only [recordOutcome, status]

theorem recordOutcome_nextKey (s : QueueStore) (result : JobResult)
    : (recordOutcome s result).jobs.nextKey = s.jobs.nextKey := by
  cases status : result.status with
  | succeeded =>
      simp only [recordOutcome, status]
      rfl
  | failed =>
      simp only [recordOutcome, status]
      rfl
  | _ => simp only [recordOutcome, status]

-----------------------------------------------------------------------------------------
-- What a step does to a row
-----------------------------------------------------------------------------------------

/-- The row of a job that has just been inserted. -/
structure NewRow (s : QueueStore) (row : EnqueuedJob) : Prop where
  fresh : s.jobs.nextKey ≤ row.id
  queued : row.status = .queued
  untried : row.attempts = 0
  limit : row.maxAttempts = maxRetryAttempt

/-- What a step with this event does to a row that was there before. -/
inductive RowStep (now : Int) : Event → EnqueuedJob → EnqueuedJob → Prop where
  | kept {event : Event} {row : EnqueuedJob}
      (notLocked : ∀ job, event = .locked job → row.id ≠ job.id)
      : RowStep now event row row
  | lock {row job : EnqueuedJob} (lockedBy : String) (sameJob : row.id = job.id)
      (lockable : QueueStore.isLockable row = true)
      : RowStep now (.locked job) row
          { row with lockedAt := some now, executedAt := some now, lockedBy := some lockedBy,
                     status := .processing }
  | lockLost {row : EnqueuedJob} (lockedBy : String)
      (lockable : QueueStore.isLockable row = true)
      : RowStep now (.lockLost row.id) row
          { row with lockedAt := some now, executedAt := some now, lockedBy := some lockedBy,
                     status := .processing }
  | record {result : JobResult} {row row' : EnqueuedJob} (sameJob : row.id = result.jobID)
      (recorded : Recorded now result row row')
      : RowStep now (.recorded result) row row'
  | retry {row : EnqueuedJob} (retryable : QueueStore.isRetryable row = true)
      : RowStep now .swept row
          { row with status := .retrying, scheduledAt := now + GoTime.minute }
  | recover {row : EnqueuedJob} (processing : row.status = .processing)
      (stale : QueueStore.lockedUntil row now = true)
      : RowStep now .unlocked row
          { row with status := .queued, lockedBy := none, lockedAt := none }

theorem RowStep.keep {now : Int} {event : Event} {row : EnqueuedJob}
    (noLock : ∀ job, event ≠ .locked job)
    : RowStep now event row row :=
  .kept fun job same => absurd same (noLock job)

/-- Every row after a step is new or a row before it, changed as the event says. -/
theorem Board.Step.row_cases {b b' : Board} {event : Event} (h : Board.Step b event b')
    {row' : EnqueuedJob} (mem : row' ∈ b'.store.jobs.rows)
    : NewRow b.store row'
      ∨ ∃ row ∈ b.store.jobs.rows, RowStep b.store.now event row row' := by
  cases h with
  | insert batch =>
      rcases QueueStore.mem_bulkInsert mem with old | ⟨fresh, queued, untried, limit⟩
      · exact Or.inr ⟨row', old, .keep (by simp)⟩
      · exact Or.inl ⟨fresh, queued, untried, limit⟩
  | remove jobID => exact Or.inr ⟨row', (QueueStore.mem_removeByID mem).1, .keep (by simp)⟩
  | lock lockedBy offered ok =>
      obtain ⟨row, inRows, ⟨same, lockable, rfl⟩ | ⟨rfl, notBoth⟩⟩ := QueueStore.mem_lockJob mem
      · exact Or.inr ⟨row, inRows, .lock lockedBy same lockable⟩
      · refine Or.inr ⟨row', inRows, .kept ?_⟩
        intro _ h same
        obtain ⟨⟩ := h
        obtain ⟨row, found, lockable⟩ := QueueStore.lockJob_ok.mp ok
        obtain rfl := KeyedTable.eq_of_key inRows (KeyedTable.mem_of_get? found)
          (same.trans (KeyedTable.key_of_get? found).symm)
        exact notBoth ⟨same, lockable⟩
  | lockLost lockedBy =>
      obtain ⟨row, inRows, ⟨same, lockable, rfl⟩ | ⟨rfl, -⟩⟩ := QueueStore.mem_lockJob mem
      · exact Or.inr ⟨row, inRows, same ▸ .lockLost lockedBy lockable⟩
      · exact Or.inr ⟨row', inRows, .keep (by simp)⟩
  | record =>
      obtain ⟨row, inRows, ⟨same, recorded⟩ | ⟨-, rfl⟩⟩ := mem_recordOutcome mem
      · exact Or.inr ⟨row, inRows, .record same recorded⟩
      · exact Or.inr ⟨row', inRows, .keep (by simp)⟩
  | sweep =>
      obtain ⟨row, inRows, ⟨retryable, rfl⟩ | ⟨-, rfl⟩⟩ :=
        QueueStore.mem_markRetryFailedJobs mem
      · exact Or.inr ⟨row, inRows, .retry retryable⟩
      · exact Or.inr ⟨row', inRows, .keep (by simp)⟩
  | unlock timeout =>
      obtain ⟨row, inRows, ⟨processing, stale, rfl⟩ | rfl⟩ :=
        QueueStore.mem_unlockStaleJobs timeout mem
      · exact Or.inr ⟨row, inRows, .recover processing stale⟩
      · exact Or.inr ⟨row', inRows, .keep (by simp)⟩
  | _ => exact Or.inr ⟨row', mem, .keep (by simp)⟩

/-- Keys are only given out, never taken back. -/
theorem Board.Step.nextKey_le {b b' : Board} {event : Event} (h : Board.Step b event b')
    : b.store.jobs.nextKey ≤ b'.store.jobs.nextKey := by
  cases h with
  | insert batch => exact QueueStore.nextKey_le_bulkInsert _ batch
  | record => exact (recordOutcome_nextKey _ _).ge
  | _ => exact le_rfl

/-- The clock does not go back. -/
theorem Board.Step.now_le {b b' : Board} {event : Event} (h : Board.Step b event b')
    : b.store.now ≤ b'.store.now := by
  cases h with
  | pass duration => exact Int.le_add_of_nonneg_right (Int.natCast_nonneg duration)
  | insert batch => exact (QueueStore.bulkInsert_now _ batch).ge
  | record => exact (recordOutcome_now _ _).ge
  | _ => exact le_rfl

/-- Offers come from a fetch only, which leaves the table as it is. -/
theorem Board.Step.offers_cases {b b' : Board} {event : Event} (h : Board.Step b event b')
    {job : EnqueuedJob} (mem : job ∈ b'.offers)
    : job ∈ b.offers
      ∨ ∃ items, event = .fetched items ∧ job ∈ items ∧ b'.store = b.store
        ∧ b.store.jobs.get? job.id = some job := by
  cases h with
  | forget fewer => exact Or.inl (Multiset.mem_of_le fewer mem)
  | fetch current =>
      rcases Multiset.mem_add.mp mem with new | old
      · exact Or.inr ⟨_, rfl, new, rfl, current job new⟩
      · exact Or.inl old
  | lock _ offered => exact Or.inl (offered ▸ Multiset.mem_cons_of_mem mem)
  | lockLost _ offered => exact Or.inl (offered ▸ Multiset.mem_cons_of_mem mem)
  | unlock _ fewer => exact Or.inl (Multiset.mem_of_le fewer mem)
  | _ => exact Or.inl mem

/-- A successful lock takes an offer. -/
theorem Board.Step.locked_offer {b b' : Board} {job : EnqueuedJob}
    (h : Board.Step b (.locked job) b')
    : job ∈ b.offers ∧ ∃ row, b.store.jobs.get? job.id = some row
        ∧ QueueStore.isLockable row = true := by
  cases h with
  | lock lockedBy offered ok =>
      exact ⟨offered ▸ Multiset.mem_cons_self _ _, QueueStore.lockJob_ok.mp ok⟩

namespace RowStep

variable {now : Int} {event : Event} {row row' : EnqueuedJob}

theorem id_eq (h : RowStep now event row row') : row'.id = row.id := by
  cases h with
  | record _ recorded => cases recorded <;> rfl
  | _ => rfl

theorem maxAttempts_eq (h : RowStep now event row row')
    : row'.maxAttempts = row.maxAttempts := by
  cases h with
  | record _ recorded => cases recorded <;> rfl
  | _ => rfl

theorem attempts_le (h : RowStep now event row row') : row.attempts ≤ row'.attempts := by
  cases h with
  | record _ recorded =>
      cases recorded with
      | failure => exact Nat.le_succ _
      | _ => exact le_rfl
  | _ => exact le_rfl

/-- Only a recorded failure counts an attempt. -/
theorem attempts_eq (h : RowStep now event row row')
    (unrecorded : ∀ result, event = .recorded result → row.id ≠ result.jobID)
    : row'.attempts = row.attempts := by
  cases h with
  | record same _ => exact absurd same (unrecorded _ rfl)
  | _ => rfl

/-- Only a retry sweep moves the schedule of a row. -/
theorem scheduledAt_cases (h : RowStep now event row row')
    : row'.scheduledAt = row.scheduledAt
      ∨ (event = .swept ∧ QueueStore.isRetryable row = true
        ∧ row'.scheduledAt = now + GoTime.minute) := by
  cases h with
  | record _ recorded => cases recorded with
    | _ => exact Or.inl rfl
  | retry retryable => exact Or.inr ⟨rfl, retryable, rfl⟩
  | _ => exact Or.inl rfl

/-- A row leaves processing only by a recorded outcome of its job or by a recovery. -/
theorem leaves_processing (h : RowStep now event row row') (processing : row.status = .processing)
    : row'.status = .processing ∨ (∃ result, event = .recorded result ∧ row.id = result.jobID)
      ∨ (event = .unlocked ∧ QueueStore.lockedUntil row now = true) := by
  cases h with
  | kept => exact Or.inl processing
  | lock => exact Or.inl rfl
  | lockLost => exact Or.inl rfl
  | record same => exact Or.inr (Or.inl ⟨_, rfl, same⟩)
  | retry retryable => simp [QueueStore.isRetryable, processing] at retryable
  | recover _ stale => exact Or.inr (Or.inr ⟨rfl, stale⟩)

end RowStep

/-- The row of a job whose key was given out was there before. -/
theorem Board.Step.old_row {b b' : Board} {event : Event} (h : Board.Step b event b')
    {jobID : Nat} (known : jobID < b.store.jobs.nextKey) {row' : EnqueuedJob}
    (mem : row' ∈ b'.store.jobs.rows) (same : row'.id = jobID)
    : ∃ row ∈ b.store.jobs.rows, row.id = jobID ∧ RowStep b.store.now event row row' := by
  rcases h.row_cases mem with new | ⟨row, inRows, step⟩
  · have fresh := new.fresh
    rw [same] at fresh
    exact absurd known (not_lt_of_ge fresh)
  · exact ⟨row, inRows, step.id_eq.symm.trans same, step⟩

end GoFire.QueueManager
