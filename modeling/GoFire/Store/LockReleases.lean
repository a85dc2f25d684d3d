import GoFire.Store.QueueRows
import GoFire.Store.RowLookup

/-! What lies between two successful locks of a job, over all sequences of calls of the queue
store, and that a removed job is never locked again.
-/

namespace GoFire.Store.QueueStore

open GoFire.State TransitionSystem

/-- The rows that the WHERE clause of a call meets. -/
def meets (s : QueueStore) : Call → EnqueuedJob → Bool
  | .lockJob jobID _, job => decide (job.id = jobID) && isLockable job
  | .markSuccess jobID, job => job.id = jobID
  | .markFailure jobID _ _ _, job => job.id = jobID
  | .markRetryFailedJobs, job => isRetryable job
  | .unlockStaleJobs _, job => job.status = .processing && lockedUntil job s.now
  | .removeByID jobID, job => job.id = jobID
  | _, _ => false

/-- A call with the rows that it found and, of LockJob and RemoveByID, whether it succeeded. -/
structure Made where
  call : Call
  delivery : Delivery
  found : List Nat
  ok : Bool

/-- What LockJob returns, and whether RemoveByID returns nil. -/
def succeeds (s : QueueStore) : Call → Bool
  | .lockJob jobID lockedBy => (s.lockJob jobID lockedBy).2
  | .removeByID jobID => (s.removeByID jobID).2
  | _ => true

/-- A refused call finds no row; a caller that gets no answer sees no success. -/
def trace (s : QueueStore) (action : Call × Delivery) : Option (QueueStore × Made) :=
  let found := (s.jobs.rows.filter (s.meets action.1)).map EnqueuedJob.id
  some (action.2.apply (s, ⟨action.1, action.2, [], false⟩)
    ((s.call action.1).1,
      ⟨action.1, action.2, found, decide (action.2 = .answered) && s.succeeds action.1⟩))

namespace Made

/-- LockJob(id) returned true. -/
def Locks (jobID : Nat) (made : Made) : Prop :=
  (∃ lockedBy, made.call = .lockJob jobID lockedBy) ∧ made.ok = true

/-- UnlockStaleJobs found the row in processing. -/
def Unlocks (jobID : Nat) (made : Made) : Prop :=
  (∃ timeout, made.call = .unlockStaleJobs timeout) ∧ jobID ∈ made.found

/-- MarkFailure(id) found its row. -/
def Fails (jobID : Nat) (made : Made) : Prop :=
  (∃ errMsg attempts maxAttempts, made.call = .markFailure jobID errMsg attempts maxAttempts)
    ∧ jobID ∈ made.found

/-- MarkRetryFailedJobs found the row failed with an attempt left. -/
def Retries (jobID : Nat) (made : Made) : Prop :=
  made.call = .markRetryFailedJobs ∧ jobID ∈ made.found

/-- RemoveByID(id) returned nil. -/
def Removes (jobID : Nat) (made : Made) : Prop :=
  made.call = .removeByID jobID ∧ made.ok = true

end Made

/-- The calls make the job lockable again: a recovery, or a failure and a later retry sweep. -/
def Released (jobID : Nat) (calls : List Made) : Prop :=
  (∃ made ∈ calls, made.Unlocks jobID)
    ∨ ∃ before failure between sweep after,
        calls = before ++ failure :: between ++ sweep :: after
        ∧ failure.Fails jobID ∧ sweep.Retries jobID

theorem Released.append {jobID : Nat} {calls : List Made} (released : Released jobID calls)
    (more : List Made)
    : Released jobID (calls ++ more) := by
  rcases released with ⟨made, mem, unlocks⟩ | ⟨before, failure, between, sweep, after, rfl, both⟩
  · exact Or.inl ⟨made, List.mem_append_left _ mem, unlocks⟩
  · exact Or.inr ⟨before, failure, between, sweep, after ++ more, by simp, both⟩

-----------------------------------------------------------------------------------------
-- What a call does to the status of a row
-----------------------------------------------------------------------------------------

/-- A row after a call, against the row with its key before it. -/
inductive StatusChange (s : QueueStore) (row row' : EnqueuedJob) : Call → Prop where
  | kept {call : Call} (same : row'.status = row.status) : StatusChange s row row' call
  | settled {call : Call} (unlockable : isLockable row' = false) (unfailed : row'.status ≠ .failed)
      : StatusChange s row row' call
  | failed {jobID : Nat} {errMsg : String} {attempts maxAttempts : Int} (same : row'.id = jobID)
      (unlockable : isLockable row' = false)
      : StatusChange s row row' (.markFailure jobID errMsg attempts maxAttempts)
  | retried (retryable : isRetryable row = true) (status : row'.status = .retrying)
      : StatusChange s row row' .markRetryFailedJobs
  | unlocked {timeout : Int} (processing : row.status = .processing)
      (locked : lockedUntil row s.now = true) (status : row'.status = .queued)
      : StatusChange s row row' (.unlockStaleJobs timeout)

variable {s s' : QueueStore} {row row' : EnqueuedJob} {jobID : Nat} {made : Made}

/-- A row after a call is new, or a row before it whose status changed in one of these ways. -/
theorem mem_call {c : Call} (mem : row' ∈ (s.call c).1.jobs.rows)
    : s.jobs.nextKey ≤ row'.id
      ∨ ∃ row ∈ s.jobs.rows, row.id = row'.id ∧ StatusChange s row row' c := by
  have unchanged (old : row' ∈ s.jobs.rows)
      : s.jobs.nextKey ≤ row'.id
        ∨ ∃ row ∈ s.jobs.rows, row.id = row'.id ∧ StatusChange s row row' c :=
    Or.inr ⟨row', old, rfl, .kept rfl⟩
  cases c with
  | pass => exact unchanged mem
  | insert jobName enqueueAt args =>
      rcases KeyedTable.mem_insert (by intro; rfl) mem with old | rfl
      · exact unchanged old
      · exact Or.inl le_rfl
  | bulkInsert batch =>
      rcases mem_bulkInsert mem with old | ⟨fresh, -⟩
      · exact unchanged old
      · exact Or.inl fresh
  | lockJob jobID lockedBy =>
      obtain ⟨row, inRows, ⟨-, -, rfl⟩ | ⟨rfl, -⟩⟩ := mem_lockJob mem
      · exact Or.inr ⟨row, inRows, rfl, .settled rfl JobStatus.noConfusion⟩
      · exact unchanged inRows
  | markSuccess jobID =>
      obtain ⟨row, inRows, ⟨-, rfl⟩ | ⟨-, rfl⟩⟩ := mem_markSuccess mem
      · exact Or.inr ⟨row, inRows, rfl, .settled rfl JobStatus.noConfusion⟩
      · exact unchanged inRows
  | markFailure jobID errMsg attempts maxAttempts =>
      obtain ⟨row, inRows, ⟨same, rfl⟩ | ⟨-, rfl⟩⟩ := mem_markFailure maxAttempts.toNat mem
      · refine Or.inr ⟨row, inRows, rfl, .failed same ?_⟩
        rcases failureStatus_cases attempts.toNat with dead | failed
        · simp [isLockable, dead]
        · simp [isLockable, failed]
      · exact unchanged inRows
  | markRetryFailedJobs =>
      obtain ⟨row, inRows, ⟨retryable, rfl⟩ | ⟨-, rfl⟩⟩ := mem_markRetryFailedJobs mem
      · exact Or.inr ⟨row, inRows, rfl, .retried retryable rfl⟩
      · exact unchanged inRows
  | unlockStaleJobs timeout =>
      obtain ⟨row, inRows, ⟨processing, locked, rfl⟩ | rfl⟩ := mem_unlockStaleJobs timeout mem
      · exact Or.inr ⟨row, inRows, rfl, .unlocked processing locked rfl⟩
      · exact unchanged inRows
  | removeByID jobID => exact unchanged (mem_removeByID mem).1

theorem nextKey_le_call (s : QueueStore) (c : Call) : s.jobs.nextKey ≤ (s.call c).1.jobs.nextKey := by
  cases c with
  | insert => exact Nat.le_succ _
  | bulkInsert batch => exact nextKey_le_bulkInsert s batch
  | _ => exact le_rfl

/-- A step is a call that finds its rows, or nothing at all. -/
theorem trace_cases (h : Acts trace s made s')
    : (∃ c delivery, delivery ≠ .refused ∧ s' = (s.call c).1
        ∧ made = ⟨c, delivery, (s.jobs.rows.filter (s.meets c)).map EnqueuedJob.id,
            decide (delivery = .answered) && s.succeeds c⟩)
      ∨ (s' = s ∧ made.found = [] ∧ made.ok = false) := by
  obtain ⟨⟨c, delivery⟩, h⟩ := h
  simp only [trace, Option.some.injEq] at h
  cases delivery with
  | refused =>
      cases h
      exact Or.inr ⟨rfl, rfl, rfl⟩
  | answered =>
      cases h
      exact Or.inl ⟨c, .answered, Delivery.noConfusion, rfl, rfl⟩
  | lost =>
      cases h
      exact Or.inl ⟨c, .lost, Delivery.noConfusion, rfl, rfl⟩

theorem mem_found {c : Call} (mem : row ∈ s.jobs.rows) (met : s.meets c row = true)
    : row.id ∈ (s.jobs.rows.filter (s.meets c)).map EnqueuedJob.id :=
  List.mem_map_of_mem (List.mem_filter.mpr ⟨mem, met⟩)

-----------------------------------------------------------------------------------------
-- Since a lock
-----------------------------------------------------------------------------------------

/-- The row of a job after a lock and some further calls: it can be locked, or has failed, only
because of these calls.
-/
structure SinceLock (jobID : Nat) (calls : List Made) (s : QueueStore) : Prop where
  known : jobID < s.jobs.nextKey
  released : ∀ row ∈ s.jobs.rows, row.id = jobID → isLockable row = true → Released jobID calls
  failed : ∀ row ∈ s.jobs.rows, row.id = jobID → row.status = .failed
    → ∃ failure ∈ calls, failure.Fails jobID

section Step

variable {calls : List Made} {c : Call} (since : SinceLock jobID calls s)
variable (mem : row' ∈ (s.call c).1.jobs.rows) (same : row'.id = jobID)

include since mem same

/-- The row of the job is no new one. -/
theorem SinceLock.old_row
    : ∃ row ∈ s.jobs.rows, row.id = jobID ∧ StatusChange s row row' c := by
  rcases mem_call mem with fresh | ⟨row, inRows, key, change⟩
  · exact absurd since.known (Nat.not_lt.mpr (same ▸ fresh))
  · exact ⟨row, inRows, key.trans same, change⟩

variable (called : made.call = c)
variable (finds : ∀ row ∈ s.jobs.rows, s.meets c row = true → row.id ∈ made.found)

include called finds

/-- A call makes the row lockable by a recovery, or by a retry sweep after an earlier failure. -/
theorem SinceLock.released_call (lockable : isLockable row' = true)
    : Released jobID (calls ++ [made]) := by
  obtain ⟨row, inRows, sameJob, change⟩ := since.old_row mem same
  cases change with
  | kept status =>
      have lockableBefore : isLockable row = true := by
        rwa [isLockable, ← status]
      exact (since.released row inRows sameJob lockableBefore).append _
  | settled unlockable =>
      rw [unlockable] at lockable
      cases lockable
  | failed _ unlockable =>
      rw [unlockable] at lockable
      cases lockable
  | retried retryable =>
      have failedBefore : row.status = .failed := by
        simp only [isRetryable, Bool.and_eq_true, decide_eq_true_eq] at retryable
        exact retryable.1
      obtain ⟨failure, earlier, fails⟩ := since.failed row inRows sameJob failedBefore
      obtain ⟨before, after, rfl⟩ := List.append_of_mem earlier
      exact Or.inr ⟨before, failure, after, made, [], rfl, fails, called,
        sameJob ▸ finds row inRows retryable⟩
  | @unlocked timeout processing locked =>
      have found : row.id ∈ made.found := finds row inRows (by simp [meets, processing, locked])
      have last : made ∈ calls ++ [made] := List.mem_append_right _ List.mem_cons_self
      exact Or.inl ⟨made, last, ⟨timeout, called⟩, sameJob ▸ found⟩

/-- A row that has failed did so in this call or in an earlier one. -/
theorem SinceLock.failed_call (failed : row'.status = .failed)
    : ∃ failure ∈ calls ++ [made], failure.Fails jobID := by
  obtain ⟨row, inRows, sameJob, change⟩ := since.old_row mem same
  cases change with
  | kept status =>
      obtain ⟨failure, earlier, fails⟩ := since.failed row inRows sameJob (status ▸ failed)
      exact ⟨failure, List.mem_append_left _ earlier, fails⟩
  | settled _ unfailed => exact absurd failed unfailed
  | @failed id errMsg attempts maxAttempts sameID =>
      obtain rfl : id = jobID := sameID.symm.trans same
      have found : row.id ∈ made.found := finds row inRows (by simp [meets, sameJob])
      have last : made ∈ calls ++ [made] := List.mem_append_right _ List.mem_cons_self
      exact ⟨made, last, ⟨errMsg, attempts, maxAttempts, called⟩, sameJob ▸ found⟩
  | retried _ status =>
      rw [status] at failed
      cases failed
  | unlocked _ _ status =>
      rw [status] at failed
      cases failed

end Step

theorem SinceLock.step {calls : List Made} (since : SinceLock jobID calls s)
    (h : Acts trace s made s')
    : SinceLock jobID (calls ++ [made]) s' := by
  rcases trace_cases h with ⟨c, delivery, -, rfl, called⟩ | ⟨rfl, -⟩
  case inr =>
    refine ⟨since.known, fun row mem same lockable => ?_, fun row mem same failed => ?_⟩
    · exact (since.released row mem same lockable).append _
    · obtain ⟨failure, earlier, fails⟩ := since.failed row mem same failed
      exact ⟨failure, List.mem_append_left _ earlier, fails⟩
  case inl =>
    have sameCall : made.call = c := by rw [called]
    have finds : ∀ row ∈ s.jobs.rows, s.meets c row = true → row.id ∈ made.found := by
      intro row mem met
      rw [called]
      exact mem_found mem met
    refine ⟨lt_of_lt_of_le since.known (nextKey_le_call s c), fun row mem same lockable => ?_,
      fun row mem same failed => ?_⟩
    · exact since.released_call mem same sameCall finds lockable
    · exact since.failed_call mem same sameCall finds failed

/-- A lock that returned true found a lockable row. -/
theorem lockable_of_locks (h : Acts trace s made s') (locks : made.Locks jobID)
    : (∃ row, s.jobs.get? jobID = some row ∧ isLockable row = true)
      ∧ ∃ lockedBy, s' = (s.lockJob jobID lockedBy).1 := by
  obtain ⟨⟨lockedBy, lock⟩, ok⟩ := locks
  rcases trace_cases h with ⟨c, delivery, -, rfl, rfl⟩ | ⟨-, -, fails⟩
  · obtain rfl : c = .lockJob jobID lockedBy := lock
    simp only [Bool.and_eq_true] at ok
    exact ⟨lockJob_ok.mp ok.2, lockedBy, rfl⟩
  · rw [fails] at ok
    cases ok

/-- After a lock that returned true, the row is in processing. -/
theorem SinceLock.of_locks (h : Acts trace s made s') (locks : made.Locks jobID)
    : SinceLock jobID [] s' := by
  obtain ⟨⟨locked, found, lockable⟩, lockedBy, rfl⟩ := lockable_of_locks h locks
  have processing (row : EnqueuedJob) (mem : row ∈ (s.lockJob jobID lockedBy).1.jobs.rows)
      (same : row.id = jobID)
      : row.status = .processing := by
    obtain ⟨old, inRows, ⟨-, -, rfl⟩ | ⟨rfl, unlocked⟩⟩ := mem_lockJob mem
    · rfl
    · obtain rfl : row = locked := by
        apply KeyedTable.eq_of_key inRows (KeyedTable.mem_of_get? found)
        exact same.trans (KeyedTable.key_of_get? found).symm
      exact absurd ⟨same, lockable⟩ unlocked
  have known : jobID < s.jobs.nextKey := KeyedTable.lt_of_get? found
  refine ⟨known, fun row mem same lockable => ?_, fun row mem same failed => ?_⟩
  · rw [isLockable, processing row mem same] at lockable
    cases lockable
  · rw [processing row mem same] at failed
    cases failed

-----------------------------------------------------------------------------------------
-- Removed jobs
-----------------------------------------------------------------------------------------

/-- The job had a row and has none any more. -/
def Gone (jobID : Nat) (s : QueueStore) : Prop :=
  jobID < s.jobs.nextKey ∧ ∀ row ∈ s.jobs.rows, row.id ≠ jobID

theorem Gone.step (gone : Gone jobID s) (h : Acts trace s made s') : Gone jobID s' := by
  rcases trace_cases h with ⟨c, delivery, -, rfl, -⟩ | ⟨rfl, -⟩
  · refine ⟨lt_of_lt_of_le gone.1 (nextKey_le_call s c), fun row' mem same => ?_⟩
    rcases mem_call mem with fresh | ⟨row, inRows, key, -⟩
    · exact absurd gone.1 (Nat.not_lt.mpr (same ▸ fresh))
    · exact gone.2 row inRows (key.trans same)
  · exact gone

theorem Gone.of_removes (h : Acts trace s made s') (removes : made.Removes jobID)
    : Gone jobID s' := by
  obtain ⟨remove, ok⟩ := removes
  rcases trace_cases h with ⟨c, delivery, -, rfl, rfl⟩ | ⟨-, -, fails⟩
  · obtain rfl : c = .removeByID jobID := remove
    simp only [Bool.and_eq_true, succeeds, removeByID, decide_eq_true_eq] at ok
    obtain ⟨row, mem, same⟩ := List.countP_pos_iff.mp ok.2
    refine ⟨?_, fun row mem => (mem_removeByID mem).2⟩
    obtain rfl : row.id = jobID := of_decide_eq_true same
    exact s.jobs.below row mem
  · rw [fails] at ok
    cases ok

theorem Gone.not_locks (gone : Gone jobID s) (h : Acts trace s made s')
    : ¬ made.Locks jobID := by
  intro locks
  obtain ⟨⟨row, found, -⟩, -⟩ := lockable_of_locks h locks
  exact gone.2 row (KeyedTable.mem_of_get? found) (KeyedTable.key_of_get? found)

-----------------------------------------------------------------------------------------
-- All sequences of calls
-----------------------------------------------------------------------------------------

/-- Between two locks the job was released, and after its removal it is not locked. -/
def LocksReleased (jobID : Nat) (log : List Made) : Prop :=
  (∀ before first between second after,
      log = before ++ first :: between ++ second :: after
      → first.Locks jobID → second.Locks jobID → Released jobID between)
  ∧ ∀ before removal between later after,
      log = before ++ removal :: between ++ later :: after
      → removal.Removes jobID → ¬ later.Locks jobID

/-- So it is in every sequence of calls, from any table. -/
theorem locks_released {start : QueueStore} {log : List Made}
    (run : Runs (Acts trace) start log s) (jobID : Nat)
    : LocksReleased jobID log := by
  constructor
  · intro before first between second after same locked lockedAgain
    subst same
    rw [List.append_assoc] at run
    obtain ⟨t, t', -, taken, later⟩ := run.split
    obtain ⟨u, u', toU, again, -⟩ := later.split
    have since : SinceLock jobID between u := by
      apply toU.invariant (SinceLock jobID) (SinceLock.of_locks taken locked)
      intro log s made s' since last
      exact since.step last
    obtain ⟨⟨row, found, lockable⟩, -⟩ := lockable_of_locks again lockedAgain
    exact since.released row (KeyedTable.mem_of_get? found) (KeyedTable.key_of_get? found) lockable
  · intro before removal between later after same removed
    subst same
    rw [List.append_assoc] at run
    obtain ⟨t, t', -, taken, onward⟩ := run.split
    obtain ⟨u, u', toU, last, -⟩ := onward.split
    have gone : Gone jobID u := by
      apply toU.invariant (fun _ s => Gone jobID s) (Gone.of_removes taken removed)
      intro log s made s' gone last
      exact gone.step last
    exact gone.not_locks last

/-- A job that fails, is retried, locked again and removed. -/
theorem locks_released_retry
    : ∃ s log, perform trace ⟨.empty, 0⟩
          [(.insert "mail" 0 none, .answered), (.lockJob 1 "a", .answered),
            (.markFailure 1 "refused" 0 3, .answered), (.markRetryFailedJobs, .answered),
            (.lockJob 1 "b", .answered), (.removeByID 1, .answered),
            (.lockJob 1 "c", .answered)] = some (s, log)
        ∧ log.map Made.ok = [true, true, true, true, true, true, false]
        ∧ LocksReleased 1 log := by
  have performed :=
    show perform trace ⟨.empty, 0⟩
        [(.insert "mail" 0 none, .answered), (.lockJob 1 "a", .answered),
          (.markFailure 1 "refused" 0 3, .answered), (.markRetryFailedJobs, .answered),
          (.lockJob 1 "b", .answered), (.removeByID 1, .answered),
          (.lockJob 1 "c", .answered)]
      = some (_, _)
    from rfl
  exact ⟨_, _, performed, rfl, locks_released (runs_of_perform performed) 1⟩

end GoFire.Store.QueueStore
