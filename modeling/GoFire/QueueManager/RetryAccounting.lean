import GoFire.QueueManager.MutualExclusion

/-! A failed row can be retried and a dead row is used up. MarkFailure chooses the status from
the attempts of the row as it was fetched, and counts the attempts of the row as it is; the
two agree when no lock is taken with a snapshot that is older than the row's last attempt.
-/

namespace GoFire.QueueManager

open GoFire.State GoFire.Store TransitionSystem

/-- A failed row has attempts left, a dead row has none. -/
structure RetryLimits (row : EnqueuedJob) : Prop where
  failed : row.status = .failed → row.attempts < row.maxAttempts
  dead : row.status = .dead → row.maxAttempts ≤ row.attempts

theorem RetryLimits.of_other {row : EnqueuedJob}
    (other : row.status ≠ .failed ∧ row.status ≠ .dead)
    : RetryLimits row :=
  ⟨fun failed => absurd failed other.1, fun dead => absurd dead other.2⟩

/-- A job whose snapshot has more than one attempt left is not locked for its last one. -/
def FreshSnapshot (b : Board) : Event → Prop
  | .locked job => ∀ row ∈ b.store.jobs.rows, row.id = job.id
      → job.attempts + 1 < maxRetryAttempt → row.attempts + 1 < maxRetryAttempt
  | _ => True

/-- The status chosen for the outcome fits the attempts that the row will have. -/
def Agrees (flight : Flight) (row : EnqueuedJob) : Prop :=
  maxRetryAttempt ≤ flight.attempts ↔ maxRetryAttempt ≤ row.attempts + 1

/-- Snapshots lag behind their rows, and executions agree with theirs. -/
structure Accounted (b : Board) : Prop where
  exclusive : Exclusive b
  limit : ∀ row ∈ b.store.jobs.rows, row.maxAttempts = maxRetryAttempt
  offered : ∀ job ∈ b.offers, job.id < b.store.jobs.nextKey
    ∧ ∀ row ∈ b.store.jobs.rows, row.id = job.id → job.attempts ≤ row.attempts
  agrees : ∀ flight ∈ b.flights, ∀ row ∈ b.store.jobs.rows, row.id = flight.jobID
    → Agrees flight row
  limits : ∀ row ∈ b.store.jobs.rows, RetryLimits row

namespace Accounted

variable {b b' : Board} {event : Event}

theorem step_limit (inv : Accounted b) (h : Board.Step b event b')
    : ∀ row ∈ b'.store.jobs.rows, row.maxAttempts = maxRetryAttempt := by
  intro row' mem
  rcases h.row_cases mem with new | ⟨row, inRows, step⟩
  · exact new.limit
  · exact step.maxAttempts_eq.trans (inv.limit row inRows)

/-- A snapshot that was fetched before still lags behind. -/
theorem lags (inv : Accounted b) (h : Board.Step b event b') {job : EnqueuedJob}
    (offered : job ∈ b.offers)
    : job.id < b'.store.jobs.nextKey
      ∧ ∀ row ∈ b'.store.jobs.rows, row.id = job.id → job.attempts ≤ row.attempts := by
  obtain ⟨known, lag⟩ := inv.offered job offered
  refine ⟨known.trans_le h.nextKey_le, ?_⟩
  intro row' mem same
  obtain ⟨row, inRows, ofRow, step⟩ := h.old_row known mem same
  exact (lag row inRows ofRow).trans step.attempts_le

theorem step_offered (inv : Accounted b) (h : Board.Step b event b')
    : ∀ job ∈ b'.offers, job.id < b'.store.jobs.nextKey
      ∧ ∀ row ∈ b'.store.jobs.rows, row.id = job.id → job.attempts ≤ row.attempts := by
  intro job mem
  have taken := h
  cases h with
  | forget fewer => exact inv.lags taken (Multiset.mem_of_le fewer mem)
  | fetch current =>
      rcases Multiset.mem_add.mp mem with new | old
      · have found := current job (Multiset.mem_coe.mp new)
        refine ⟨KeyedTable.lt_of_get? found, fun row inRows same => ?_⟩
        rw [KeyedTable.eq_of_key inRows (KeyedTable.mem_of_get? found) same]
      · exact inv.lags taken old
  | lock _ offered => exact inv.lags taken (by simp [offered, mem])
  | lockLost _ offered => exact inv.lags taken (by simp [offered, mem])
  | unlock _ fewer => exact inv.lags taken (Multiset.mem_of_le fewer mem)
  | _ => exact inv.lags taken mem

/-- An execution that was in progress, and still is, agrees with the row after the step. -/
theorem still_agrees (inv : Accounted b) (h : Board.Step b event b') {flight flight' : Flight}
    (before : flight ∈ b.flights) (after : flight' ∈ b'.flights)
    (sameJob : flight'.jobID = flight.jobID) (sameAttempts : flight'.attempts = flight.attempts)
    : ∀ row ∈ b'.store.jobs.rows, row.id = flight'.jobID → Agrees flight' row := by
  intro row' mem same
  have known := inv.exclusive.known flight before
  obtain ⟨row, inRows, ofRow, step⟩ := h.old_row known mem (same.trans sameJob)
  have untouched : ∀ result, event = .recorded result → row.id ≠ result.jobID := by
    intro result h recorded
    subst h
    have some : 0 < b'.executions result.jobID :=
      executionsOf_pos.mpr ⟨flight', after, sameJob.trans (ofRow.symm.trans recorded)⟩
    rw [inv.exclusive.ended h] at some
    exact absurd some (lt_irrefl 0)
  rw [Agrees, sameAttempts, step.attempts_eq untouched]
  exact inv.agrees flight before row inRows ofRow

theorem step_agrees (inv : Accounted b) (h : Board.Step b event b')
    (safe : SafeRecovery b event) (fresh : FreshSnapshot b event)
    : ∀ flight ∈ b'.flights, ∀ row ∈ b'.store.jobs.rows, row.id = flight.jobID
      → Agrees flight row := by
  intro flight mem
  have taken := h
  have still (before : flight ∈ b.flights) := inv.still_agrees taken before mem rfl rfl
  cases h with
  | forget _ fewer => exact still (Multiset.mem_of_le fewer mem)
  | unlock _ _ fewer => exact still (Multiset.mem_of_le fewer mem)
  | record returned => exact still (by simp [returned, mem])
  | manual => exact absurd safe id
  | @start job _ waiting =>
      rcases Multiset.mem_cons.mp mem with rfl | other
      · have before : .waiting job ∈ b.flights := by simp [waiting]
        exact inv.still_agrees taken before mem rfl rfl
      · exact still (by simp [waiting, other])
  | @report old result _ inProgress _ sameJob sameAttempts =>
      rcases Multiset.mem_cons.mp mem with rfl | other
      · have before : old ∈ b.flights := by simp [inProgress]
        exact inv.still_agrees taken before mem sameJob sameAttempts
      · exact still (by simp [inProgress, other])
  | @lock job offers lockedBy offered ok =>
      rcases Multiset.mem_cons.mp mem with rfl | other
      · intro row' inRows' same
        obtain ⟨known, lag⟩ := inv.offered job (by simp [offered])
        obtain ⟨row, inRows, ofRow, step⟩ := taken.old_row known inRows' same
        have lag := lag row inRows ofRow
        have fresh := fresh row inRows ofRow
        rw [Agrees, step.attempts_eq nofun, Flight.attempts]
        omega
      · exact still other
  | _ => exact still mem

/-- The status that a recorded failure leaves fits the attempts it leaves. -/
theorem recorded_limits (inv : Accounted b) {result : JobResult}
    (h : Board.Step b (.recorded result) b') {row row' : EnqueuedJob}
    (inRows : row ∈ b.store.jobs.rows) (same : row.id = result.jobID)
    (recorded : Recorded b.store.now result row row')
    : RetryLimits row' := by
  have agrees : maxRetryAttempt ≤ result.attempts ↔ row.maxAttempts ≤ row.attempts + 1 := by
    cases h with
    | record returned =>
        rw [inv.limit row inRows]
        exact inv.agrees (.returned result) (by simp [returned]) row inRows same
  cases recorded with
  | success => exact .of_other (by simp)
  | unknown => exact inv.limits row inRows
  | failure failed =>
      by_cases last : maxRetryAttempt ≤ result.attempts
      · have status : QueueStore.failureStatus result.attempts = .dead := if_pos last
        refine ⟨fun h => ?_, fun _ => agrees.mp last⟩
        cases status.symm.trans h
      · have status : QueueStore.failureStatus result.attempts = .failed := if_neg last
        refine ⟨fun _ => Nat.lt_of_not_le (mt agrees.mpr last), fun h => ?_⟩
        cases status.symm.trans h

theorem step_limits (inv : Accounted b) (h : Board.Step b event b')
    : ∀ row ∈ b'.store.jobs.rows, RetryLimits row := by
  intro row' mem
  rcases h.row_cases mem with new | ⟨row, inRows, step⟩
  · exact .of_other (by simp [new.queued])
  · cases step with
    | kept => exact inv.limits row' inRows
    | record same recorded => exact inv.recorded_limits h inRows same recorded
    | _ => exact .of_other (by simp)

theorem step (inv : Accounted b) (h : Board.Step b event b') (safe : SafeRecovery b event)
    (fresh : FreshSnapshot b event)
    : Accounted b' where
  exclusive := inv.exclusive.step h safe
  limit := inv.step_limit h
  offered := inv.step_offered h
  agrees := inv.step_agrees h safe fresh
  limits := inv.step_limits h

theorem initial (now : Int) : Accounted (System.initial now).board where
  exclusive := .initial now
  limit _ mem := absurd mem List.not_mem_nil
  offered job mem := absurd mem (Multiset.notMem_zero job)
  agrees flight mem := absurd mem (Multiset.notMem_zero flight)
  limits _ mem := absurd mem List.not_mem_nil

end Accounted

/-- The condition on a step: recovery is safe and no job is locked for its last attempt with a
snapshot that shows more than one.
-/
def RetriesAccounted (b : Board) (event : Event) : Prop :=
  SafeRecovery b event ∧ FreshSnapshot b event

/-- In every run under the condition, any number of managers leave failed rows with attempts
and dead rows without.
-/
theorem retryLimits_of_run {now : Int} {log : List Event} {s : System}
    (run : Runs (Guarded (Acts System.step) (fun s => RetriesAccounted s.board))
      (System.initial now) log s)
    : ∀ row ∈ s.store.jobs.rows, RetryLimits row := by
  have inv : Accounted s.board := by
    refine (System.guarded_board run).invariant (fun _ b => Accounted b)
      (Accounted.initial now) ?_
    intro log b event b' inv h
    exact inv.step h.1 h.2.1 h.2.2
  exact inv.limits

instance (b : Board) : ∀ event, Decidable (FreshSnapshot b event)
  | .locked _ => List.decidableBAll _ _
  | .internal => isTrue trivial
  | .fetched _ => isTrue trivial
  | .lockLost _ => isTrue trivial
  | .started _ => isTrue trivial
  | .reported _ => isTrue trivial
  | .recorded _ => isTrue trivial
  | .swept => isTrue trivial
  | .unlocked => isTrue trivial
  | .manual _ => isTrue trivial

instance (b : Board) (event : Event) : Decidable (RetriesAccounted b event) :=
  inferInstanceAs (Decidable (_ ∧ _))

/-- One round of a manager whose job fails. -/
def failedAttempt (i : Nat) : List SystemAction :=
  takesJob i ++ returnsJob i (some "refused")

/-- A first failure of a single manager leaves the job failed with attempts left. -/
theorem retryLimits_of_run_firstFailure
    : ∃ s log, perform System.step (System.initial 0)
          (twoManagers ++ begins 0 ++ polls 0 ++ failedAttempt 0) = some (s, log)
        ∧ ∀ row ∈ s.store.jobs.rows, RetryLimits row := by
  have run := runs_of_perform_restrict
    (show perform (restrict System.step (fun s => RetriesAccounted s.board)) (System.initial 0)
      (twoManagers ++ begins 0 ++ polls 0 ++ failedAttempt 0) = some (_, _) from rfl)
  exact ⟨_, _, rfl, retryLimits_of_run run⟩

/-- The second manager fetches the job before its first attempt and locks it for its third:
the job ends as failed with all attempts used, and no sweep takes it up again.
-/
theorem stale_snapshot_stuck
    : ∃ s log, perform System.step (System.initial 0)
          (twoManagers ++ begins 0 ++ begins 1 ++ polls 1
            ++ polls 0 ++ failedAttempt 0 ++ sweeps 0 ++ polls 0 ++ failedAttempt 0 ++ sweeps 0
            ++ failedAttempt 1) = some (s, log)
        ∧ (s.store.jobs.get? 1).map EnqueuedJob.status = some .failed
        ∧ (s.store.jobs.get? 1).any QueueStore.isRetryable = false
        ∧ ¬ ∀ row ∈ s.store.jobs.rows, RetryLimits row := by
  refine ⟨_, _, rfl, rfl, rfl, ?_⟩
  intro limits
  have failed := (limits _ (.head _)).failed rfl
  exact absurd failed (by decide)

end GoFire.QueueManager
