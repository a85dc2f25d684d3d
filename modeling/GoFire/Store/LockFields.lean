import GoFire.Store.CronRows
import GoFire.Store.QueueRows
import GoFire.Store.RowLookup

/-! The lock columns of a row against its status, over all sequences of statements of the two
stores. A row in processing should have both lock columns set, and no other row should.
-/

namespace GoFire.Store

open GoFire.State TransitionSystem

/-- A status and the two lock columns agree. -/
def LocksAgree (status : JobStatus) (lockedBy : Option String) (lockedAt : Option Int) : Prop :=
  status = .processing ↔ lockedBy.isSome = true ∧ lockedAt.isSome = true

instance (status : JobStatus) (lockedBy : Option String) (lockedAt : Option Int)
    : Decidable (LocksAgree status lockedBy lockedAt) :=
  inferInstanceAs (Decidable (_ ↔ _))

/-- A status other than processing may replace that of an unlocked row only. -/
theorem LocksAgree.leave_iff {status status' : JobStatus} {lockedBy : Option String}
    {lockedAt : Option Int} (agree : LocksAgree status lockedBy lockedAt)
    (other : status' ≠ .processing)
    : LocksAgree status' lockedBy lockedAt ↔ status ≠ .processing := by
  unfold LocksAgree at agree ⊢
  rw [iff_false_left other, ne_eq, agree]

/-- The lock columns may be cleared when the row is not in processing. -/
theorem LocksAgree.clear_iff (status : JobStatus)
    : LocksAgree status none none ↔ status ≠ .processing := by
  simp [LocksAgree]

theorem LocksAgree.locked (lockedBy : String) (lockedAt : Int)
    : LocksAgree .processing (some lockedBy) (some lockedAt) := by
  simp [LocksAgree]

-----------------------------------------------------------------------------------------
-- The queue table
-----------------------------------------------------------------------------------------

namespace QueueStore

def LocksAgree (s : QueueStore) : Prop :=
  ∀ job ∈ s.jobs.rows, Store.LocksAgree job.status job.lockedBy job.lockedAt

/-- An outcome is not written over a row in processing, whose lock columns it would leave. -/
def KeepsLocks (s : QueueStore) : Call → Prop
  | .markSuccess jobID => ∀ job ∈ s.jobs.get? jobID, job.status ≠ .processing
  | .markFailure jobID _ _ _ => ∀ job ∈ s.jobs.get? jobID, job.status ≠ .processing
  | _ => True

variable {s : QueueStore}

theorem LocksAgree.insert (agree : s.LocksAgree) (jobName : String) (enqueueAt : Int)
    (args : Args)
    : (s.insert jobName enqueueAt args).LocksAgree :=
  KeyedTable.forall_insert (by intro; rfl) agree ((LocksAgree.clear_iff .queued).mpr JobStatus.noConfusion)

theorem LocksAgree.bulkInsert (agree : s.LocksAgree) (batch : List Job)
    : (s.bulkInsert batch).LocksAgree := by
  unfold QueueStore.bulkInsert
  induction batch generalizing s with
  | nil => exact agree
  | cons job rest ih => exact ih (agree.insert job.name job.scheduledAt job.args)

/-- A call keeps the agreement exactly when it does not write an outcome over a row in
processing, by the rows each statement updates.
-/
theorem LocksAgree.call_iff (agree : s.LocksAgree) (c : Call)
    : (s.call c).1.LocksAgree ↔ s.KeepsLocks c := by
  cases c with
  | pass => exact iff_of_true agree trivial
  | insert jobName enqueueAt args =>
      exact iff_of_true (agree.insert jobName enqueueAt args) trivial
  | bulkInsert batch => exact iff_of_true (agree.bulkInsert batch) trivial
  | lockJob jobID lockedBy =>
      refine iff_of_true ?_ trivial
      exact (KeyedTable.forall_update_iff (by intro; rfl) agree).mpr
        fun job _ _ => LocksAgree.locked lockedBy s.now
  | markSuccess jobID =>
      refine (KeyedTable.forall_update_key_iff (by intro; rfl) agree).trans ?_
      apply forall_congr'
      intro job
      apply imp_congr_right
      intro found
      exact (agree job (KeyedTable.mem_of_get? found)).leave_iff JobStatus.noConfusion
  | markFailure jobID errMsg attempts maxAttempts =>
      refine (KeyedTable.forall_update_key_iff (by intro; rfl) agree).trans ?_
      apply forall_congr'
      intro job
      apply imp_congr_right
      intro found
      refine (agree job (KeyedTable.mem_of_get? found)).leave_iff ?_
      rcases failureStatus_cases attempts.toNat with dead | failed
      · simp [dead]
      · simp [failed]
  | markRetryFailedJobs =>
      refine iff_of_true ?_ trivial
      refine (KeyedTable.forall_update_iff (by intro; rfl) agree).mpr fun job mem retryable => ?_
      refine ((agree job mem).leave_iff JobStatus.noConfusion).mpr ?_
      simp only [isRetryable, Bool.and_eq_true, decide_eq_true_eq] at retryable
      simp [retryable.1]
  | unlockStaleJobs timeout =>
      refine iff_of_true ?_ trivial
      exact (KeyedTable.forall_update_iff (by intro; rfl) agree).mpr
        fun job _ _ => (LocksAgree.clear_iff .queued).mpr JobStatus.noConfusion
  | removeByID jobID =>
      exact iff_of_true (fun job mem => agree job (mem_removeByID mem).1) trivial

end QueueStore

-----------------------------------------------------------------------------------------
-- The cron table
-----------------------------------------------------------------------------------------

namespace CronStore

inductive Call where
  | pass (duration : Nat)
  | addOrUpdate (jobName : String) (scheduledAt : Int) (expression : String) (args : Args)
  | lockJob (jobID : Nat) (lockedBy : String)
  | unLockJob (jobID : Nat)
  | updateJobRunTimes (jobID : Nat) (lastRunAt nextRunAt : Int)
  | markSuccess (jobID : Nat)
  | markFailure (jobID : Nat) (errMsg : String)
  | activate (jobID : Nat)
  | deActivate (jobID : Nat)

def call (s : CronStore) : Call → CronStore
  | .pass duration => { s with now := s.now + duration }
  | .addOrUpdate jobName scheduledAt expression args =>
      (s.addOrUpdate jobName scheduledAt expression args).1
  | .lockJob jobID lockedBy => (s.lockJob jobID lockedBy).1
  | .unLockJob jobID => (s.unLockJob jobID).1
  | .updateJobRunTimes jobID lastRunAt nextRunAt => s.updateJobRunTimes jobID lastRunAt nextRunAt
  | .markSuccess jobID => s.markSuccess jobID
  | .markFailure jobID errMsg => s.markFailure jobID errMsg
  | .activate jobID => s.activate jobID
  | .deActivate jobID => s.deActivate jobID

def LocksAgree (s : CronStore) : Prop :=
  ∀ job ∈ s.jobs.rows, Store.LocksAgree job.status job.lockedBy job.lockedAt

/-- A row in processing neither gets a failure written over it nor loses its lock alone. -/
def KeepsLocks (s : CronStore) : Call → Prop
  | .markFailure jobID _ => ∀ job ∈ s.jobs.get? jobID, job.status ≠ .processing
  | .unLockJob jobID => ∀ job ∈ s.jobs.get? jobID, job.status ≠ .processing
  | _ => True

variable {s : CronStore}

theorem LocksAgree.addOrUpdate (agree : s.LocksAgree) (jobName : String) (scheduledAt : Int)
    (expression : String) (args : Args)
    : (s.addOrUpdate jobName scheduledAt expression args).1.LocksAgree := by
  cases found : s.jobs.rows.find? (fun job => job.name = jobName) with
  | some old =>
      simp only [CronStore.addOrUpdate, found]
      exact (KeyedTable.forall_update_iff (by intro; rfl) agree).mpr fun job mem _ => agree job mem
  | none =>
      simp only [CronStore.addOrUpdate, found]
      exact KeyedTable.forall_insert (by intro; rfl) agree
        ((LocksAgree.clear_iff .queued).mpr JobStatus.noConfusion)

/-- A call keeps the agreement exactly when it spares the rows in processing. -/
theorem LocksAgree.call_iff (agree : s.LocksAgree) (c : Call)
    : (s.call c).LocksAgree ↔ s.KeepsLocks c := by
  have kept {set : CronJob → CronJob} {jobID : Nat} (keyed : ∀ job, (set job).id = job.id)
      (columns : ∀ job, (set job).status = job.status ∧ (set job).lockedBy = job.lockedBy
        ∧ (set job).lockedAt = job.lockedAt)
      : ∀ job ∈ (s.jobs.update (fun job => job.id = jobID) set keyed).rows,
          Store.LocksAgree job.status job.lockedBy job.lockedAt := by
    refine (KeyedTable.forall_update_iff keyed agree).mpr fun job mem _ => ?_
    obtain ⟨status, lockedBy, lockedAt⟩ := columns job
    rw [status, lockedBy, lockedAt]
    exact agree job mem
  cases c with
  | pass => exact iff_of_true agree trivial
  | addOrUpdate jobName scheduledAt expression args =>
      exact iff_of_true (agree.addOrUpdate jobName scheduledAt expression args) trivial
  | lockJob jobID lockedBy =>
      refine iff_of_true ?_ trivial
      exact (KeyedTable.forall_update_iff (by intro; rfl) agree).mpr
        fun job _ _ => LocksAgree.locked lockedBy s.now
  | unLockJob jobID =>
      refine (KeyedTable.forall_update_key_iff (by intro; rfl) agree).trans ?_
      exact forall_congr' fun job => imp_congr_right fun _ => LocksAgree.clear_iff job.status
  | updateJobRunTimes => exact iff_of_true (kept (by intro; rfl) fun _ => ⟨rfl, rfl, rfl⟩) trivial
  | markSuccess jobID =>
      refine iff_of_true ?_ trivial
      exact (KeyedTable.forall_update_iff (by intro; rfl) agree).mpr
        fun job _ _ => (LocksAgree.clear_iff .succeeded).mpr JobStatus.noConfusion
  | markFailure jobID errMsg =>
      refine (KeyedTable.forall_update_key_iff (by intro; rfl) agree).trans ?_
      apply forall_congr'
      intro job
      apply imp_congr_right
      intro found
      exact (agree job (KeyedTable.mem_of_get? found)).leave_iff JobStatus.noConfusion
  | activate => exact iff_of_true (kept (by intro; rfl) fun _ => ⟨rfl, rfl, rfl⟩) trivial
  | deActivate => exact iff_of_true (kept (by intro; rfl) fun _ => ⟨rfl, rfl, rfl⟩) trivial

end CronStore

-----------------------------------------------------------------------------------------
-- Histories of both tables
-----------------------------------------------------------------------------------------

/-- The tables of both stores. -/
structure Tables where
  queue : QueueStore
  cron : CronStore

inductive TableCall where
  | queue (c : QueueStore.Call)
  | cron (c : CronStore.Call)

namespace Tables

/-- Empty tables. -/
def initial (now : Int) : Tables := ⟨⟨.empty, now⟩, ⟨.empty, now⟩⟩

def call (t : Tables) : TableCall → Tables
  | .queue c => { t with queue := (t.queue.call c).1 }
  | .cron c => { t with cron := t.cron.call c }

def step (t : Tables) (action : TableCall × Delivery)
    : Option (Tables × (TableCall × Delivery)) :=
  some (action.2.apply t (t.call action.1), action)

/-- In every row, the status is processing exactly when both lock columns are set. -/
def LocksAgree (t : Tables) : Prop := t.queue.LocksAgree ∧ t.cron.LocksAgree

/-- A call that is not refused spares the rows in processing. -/
def KeepsLocks (t : Tables) (event : TableCall × Delivery) : Prop :=
  event.2 = .refused
    ∨ match event.1 with
      | .queue c => t.queue.KeepsLocks c
      | .cron c => t.cron.KeepsLocks c

theorem LocksAgree.step_iff {t t' : Tables} {event : TableCall × Delivery}
    (agree : t.LocksAgree) (h : Acts step t event t')
    : t'.LocksAgree ↔ t.KeepsLocks event := by
  have called : (t.call event.1).LocksAgree
      ↔ match event.1 with
        | .queue c => t.queue.KeepsLocks c
        | .cron c => t.cron.KeepsLocks c := by
    cases event.1 with
    | queue c => exact (and_iff_left agree.2).trans (agree.1.call_iff c)
    | cron c => exact (and_iff_right agree.1).trans (agree.2.call_iff c)
  obtain ⟨⟨c, delivery⟩, h⟩ := h
  cases delivery with
  | refused =>
      cases h
      exact iff_of_true agree (Or.inl rfl)
  | answered =>
      cases h
      exact called.trans (by simp [KeepsLocks])
  | lost =>
      cases h
      exact called.trans (by simp [KeepsLocks])

/-- In every sequence of calls of the two stores, status and lock columns agree throughout if and
only if no outcome of a job and no failure of a cron job is written over a row in processing, and
no such row is unlocked by UnLockJob.
-/
theorem locks_agree_iff (now : Int) (actions : List (TableCall × Delivery))
    : Every step (fun _ _ t => t.LocksAgree) (initial now) actions
      ↔ Every step (fun t event _ => t.KeepsLocks event) (initial now) actions :=
  Every.keeps_iff (fun _ _ _ agree h => agree.step_iff h)
    ⟨fun _ mem => absurd mem List.not_mem_nil, fun _ mem => absurd mem List.not_mem_nil⟩ actions

/-- A job that succeeded and a cron job that failed keep their locks, and UnLockJob leaves a cron
job in processing without one.
-/
theorem locks_disagree
    : (∃ t log, perform step (initial 0)
          ([.insert "mail" 0 none, .lockJob 1 "a", .markSuccess 1].map (.queue ·, .answered))
        = some (t, log) ∧ ¬ t.LocksAgree)
      ∧ (∃ t log, perform step (initial 0)
          ([.addOrUpdate "mail" 0 "* * * * *" none, .lockJob 1 "a", .markFailure 1 "refused"].map
            (.cron ·, .answered))
        = some (t, log) ∧ ¬ t.LocksAgree)
      ∧ ∃ t log, perform step (initial 0)
          ([.addOrUpdate "mail" 0 "* * * * *" none, .lockJob 1 "a", .unLockJob 1].map
            (.cron ·, .answered))
        = some (t, log) ∧ ¬ t.LocksAgree := by
  refine ⟨⟨_, _, rfl, ?_⟩, ⟨_, _, rfl, ?_⟩, ⟨_, _, rfl, ?_⟩⟩
  · exact fun agree => absurd (agree.1 _ (.head _)) (by decide)
  · exact fun agree => absurd (agree.2 _ (.head _)) (by decide)
  · exact fun agree => absurd (agree.2 _ (.head _)) (by decide)

end Tables

end GoFire.Store
