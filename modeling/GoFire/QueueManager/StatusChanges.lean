import GoFire.QueueManager.Refinement
import GoFire.QueueManager.RowSteps
import Mathlib.Logic.Relation

/-! The status changes of a row along a run. Locks, retry sweeps and recoveries follow the table
of valid transitions; an outcome is written whatever the row's status is, so it breaks the
table when it is recorded over a final status.
-/

namespace GoFire.QueueManager

open GoFire.State GoFire.Store TransitionSystem

/-- A non-empty chain of valid transitions. -/
def Chain (source target : JobStatus) : Prop :=
  Relation.TransGen (fun a b => isValidTransition a b = true) source target

def Final (status : JobStatus) : Prop := status = .succeeded ∨ status = .dead

/-- Rows that change their status recover from processing or follow valid transitions. -/
def LawfulChange (s : QueueStore) (event : Event) (s' : QueueStore) : Prop :=
  ∀ row ∈ s.jobs.rows, ∀ row' ∈ s'.jobs.rows, row.id = row'.id → row.status ≠ row'.status
    → (event = .unlocked ∧ row.status = .processing ∧ row'.status = .queued)
      ∨ Chain row.status row'.status

/-- The status a recorded result leaves in its row. -/
def recordedStatus (result : JobResult) (current : JobStatus) : JobStatus :=
  match result.status with
  | .succeeded => .succeeded
  | .failed => QueueStore.failureStatus result.attempts
  | _ => current

/-- A result is not recorded over a final status, unless it writes the same status. -/
def KeepsFinal (s : QueueStore) : Event → Prop
  | .recorded result => ∀ row ∈ s.jobs.rows, row.id = result.jobID → Final row.status
      → recordedStatus result row.status = row.status
  | _ => True

-----------------------------------------------------------------------------------------
-- Chains of valid transitions
-----------------------------------------------------------------------------------------

theorem not_chain_of_final {source target : JobStatus} (final : Final source)
    : ¬ Chain source target := by
  intro chain
  obtain ⟨next, valid, -⟩ := Relation.TransGen.head'_iff.mp chain
  rcases final with rfl | rfl
  · cases next <;> cases valid
  · cases next <;> cases valid

theorem chain_processing (target : JobStatus)
    (outcome : target = .succeeded ∨ target = .failed ∨ target = .dead)
    : Chain .processing target := by
  rcases outcome with rfl | rfl | rfl
  · exact .single rfl
  · exact .single rfl
  · exact .tail (.single (show isValidTransition .processing .failed = true from rfl)) rfl

/-- Every status that is not final leads to every outcome. -/
theorem chain_of_not_final {source target : JobStatus} (notFinal : ¬ Final source)
    (outcome : target = .succeeded ∨ target = .failed ∨ target = .dead)
    : Chain source target := by
  have rest := chain_processing target outcome
  cases source with
  | queued => exact .head (show isValidTransition .queued .processing = true from rfl) rest
  | processing => exact rest
  | retrying => exact .head (show isValidTransition .retrying .processing = true from rfl) rest
  | failed =>
      have locked : Chain .retrying target :=
        .head (show isValidTransition .retrying .processing = true from rfl) rest
      exact .head (show isValidTransition .failed .retrying = true from rfl) locked
  | succeeded => exact absurd (Or.inl rfl) notFinal
  | dead => exact absurd (Or.inr rfl) notFinal

theorem recordedStatus_outcome {result : JobResult} {status : JobStatus}
    (changes : recordedStatus result status ≠ status)
    : recordedStatus result status = .succeeded ∨ recordedStatus result status = .failed
      ∨ recordedStatus result status = .dead := by
  unfold recordedStatus at changes ⊢
  split
  · exact Or.inl rfl
  · exact Or.inr (QueueStore.failureStatus_cases result.attempts).symm
  · simp_all

-----------------------------------------------------------------------------------------
-- What a step does to the status of a row
-----------------------------------------------------------------------------------------

theorem Recorded.status_eq {now : Int} {result : JobResult} {row row' : EnqueuedJob}
    (h : Recorded now result row row')
    : row'.id = row.id ∧ row'.status = recordedStatus result row.status := by
  cases h with
  | success succeeded => simp [recordedStatus, succeeded]
  | failure failed => simp [recordedStatus, failed]
  | unknown other =>
      refine ⟨rfl, ?_⟩
      unfold recordedStatus
      split
      · exact absurd ‹_› other.1
      · exact absurd ‹_› other.2
      · rfl

/-- Locks and retries follow the table; an outcome does when the row was not final. -/
theorem RowStep.lawful {s : QueueStore} {event : Event} {row row' : EnqueuedJob}
    (h : RowStep s.now event row row') (inRows : row ∈ s.jobs.rows) (keeps : KeepsFinal s event)
    (changed : row.status ≠ row'.status)
    : (event = .unlocked ∧ row.status = .processing ∧ row'.status = .queued)
      ∨ Chain row.status row'.status := by
  have locks (lockable : QueueStore.isLockable row = true) : Chain row.status .processing := by
    simp only [QueueStore.isLockable, Bool.or_eq_true, decide_eq_true_eq] at lockable
    rcases lockable with queued | retrying
    · rw [queued]
      exact .single rfl
    · rw [retrying]
      exact .single rfl
  cases h with
  | kept => exact absurd rfl changed
  | lock lockedBy sameJob lockable => exact Or.inr (locks lockable)
  | lockLost lockedBy lockable => exact Or.inr (locks lockable)
  | retry retryable =>
      simp only [QueueStore.isRetryable, Bool.and_eq_true, decide_eq_true_eq] at retryable
      rw [retryable.1]
      exact Or.inr (.single rfl)
  | recover processing stale => exact Or.inl ⟨rfl, processing, rfl⟩
  | @record result _ _ sameJob recorded =>
      obtain ⟨-, status⟩ := recorded.status_eq
      rw [status] at changed ⊢
      have notFinal := fun final => changed (keeps row inRows sameJob final).symm
      exact Or.inr (chain_of_not_final notFinal (recordedStatus_outcome changed.symm))

-----------------------------------------------------------------------------------------
-- Runs
-----------------------------------------------------------------------------------------

/-- A lawful step does not record over a different final status. -/
theorem Board.Step.keepsFinal {b b' : Board} {event : Event} (h : Board.Step b event b')
    (lawful : LawfulChange b.store event b'.store)
    : KeepsFinal b.store event := by
  cases h with
  | @record result =>
      intro row inRows sameID final
      by_contra changes
      obtain ⟨row', inRows', recorded⟩ := recorded_mem inRows sameID
      obtain ⟨id, status⟩ := recorded.status_eq
      have changed : row.status ≠ row'.status := fun same => changes (status.symm.trans same.symm)
      rcases lawful row inRows row' inRows' id.symm changed with ⟨isUnlock, -⟩ | chain
      · cases isUnlock
      · exact not_chain_of_final final chain
  | _ => trivial

/-- Only a recorded outcome can break the table of transitions. -/
theorem Board.Step.lawful_iff {b b' : Board} {event : Event} (h : Board.Step b event b')
    : LawfulChange b.store event b'.store ↔ KeepsFinal b.store event := by
  refine ⟨h.keepsFinal, ?_⟩
  intro keeps row inRows row' inRows' sameID changed
  have known := b.store.jobs.below row inRows
  obtain ⟨old, inRows₀, sameRow, step⟩ := h.old_row known inRows' sameID.symm
  obtain rfl := KeyedTable.eq_of_key inRows₀ inRows sameRow
  exact step.lawful inRows keeps changed

/-- In every run of any number of managers, all status changes are lawful if and only if no
outcome is recorded over a different final status.
-/
theorem status_changes_lawful_iff (now : Int) (actions : List SystemAction)
    : Every System.step (fun s event s' => LawfulChange s.store event s'.store)
        (System.initial now) actions
      ↔ Every System.step (fun s event _ => KeepsFinal s.store event) (System.initial now)
        actions :=
  Every.congr (fun _ _ _ h => (System.step_board h).lawful_iff) _ actions

/-- The late outcome of a manual execution turns a succeeded row into a failed one. -/
theorem manual_failure_unlawful
    : ∃ s log s' event, perform System.step (System.initial 0)
          (oneManager ++ begins 0 ++ polls 0 ++ takesJob 0 ++ returnsJob 0 none
            ++ failsManually 0) = some (s, log)
        ∧ System.step s (.manager 0 (.record .answered)) = some (s', event)
        ∧ (s.store.jobs.get? 1).map EnqueuedJob.status = some .succeeded
        ∧ (s'.store.jobs.get? 1).map EnqueuedJob.status = some .failed
        ∧ ¬ LawfulChange s.store event s'.store := by
  refine ⟨_, _, _, _, rfl, rfl, rfl, rfl, ?_⟩
  intro lawful
  rcases lawful _ (.head _) _ (.head _) rfl (by decide) with ⟨unlocked, -⟩ | chain
  · cases unlocked
  · exact not_chain_of_final (Or.inl rfl) chain

end GoFire.QueueManager
