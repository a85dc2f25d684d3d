import GoFire.QueueManager.Refinement
import GoFire.QueueManager.RowSteps

/-! At most one execution of a job at a time. LockJob takes only queued and retrying rows, so a
row stays processing while its job has an execution; only UnlockStaleJobs, which ignores its
timeout, can queue it again under a running execution.
-/

namespace GoFire.QueueManager

open GoFire.State GoFire.Store TransitionSystem

/-- UnlockStaleJobs meets no row whose job has an execution in progress, and nothing is
executed manually.
-/
def SafeRecovery (b : Board) : Event → Prop
  | .unlocked => ∀ job ∈ b.store.jobs.rows, job.status = .processing
      → QueueStore.lockedUntil job b.store.now = true → b.executions job.id = 0
  | .manual _ => False
  | _ => True

instance (b : Board) : ∀ event, Decidable (SafeRecovery b event)
  | .unlocked => List.decidableBAll _ _
  | .manual _ => isFalse id
  | .internal => isTrue trivial
  | .fetched _ => isTrue trivial
  | .locked _ => isTrue trivial
  | .lockLost _ => isTrue trivial
  | .started _ => isTrue trivial
  | .reported _ => isTrue trivial
  | .recorded _ => isTrue trivial
  | .swept => isTrue trivial

/-- Jobs have at most one execution; the row of a job with one is processing. -/
structure Exclusive (b : Board) : Prop where
  single : ∀ jobID, b.executions jobID ≤ 1
  locked : ∀ row ∈ b.store.jobs.rows, 0 < b.executions row.id → row.status = .processing
  known : ∀ flight ∈ b.flights, flight.jobID < b.store.jobs.nextKey

namespace Exclusive

variable {b b' : Board} {event : Event}

/-- A job with an execution has its key. -/
theorem known_job (inv : Exclusive b) {jobID : Nat} (some : 0 < b.executions jobID)
    : jobID < b.store.jobs.nextKey := by
  obtain ⟨flight, inFlight, same⟩ := executionsOf_pos.mp some
  exact same ▸ inv.known flight inFlight

/-- A recorded outcome ends the only execution of its job. -/
theorem ended (inv : Exclusive b) {result : JobResult} (h : Board.Step b (.recorded result) b')
    : b'.executions result.jobID = 0 := by
  cases h with
  | record returned =>
      have single := inv.single result.jobID
      rw [Board.executions, returned, executionsOf_cons, Flight.jobID, if_pos rfl] at single
      exact Nat.le_zero.mp (Nat.le_of_succ_le_succ single)

/-- A step that starts no execution. -/
theorem of_fewer (inv : Exclusive b) (h : Board.Step b event b') (safe : SafeRecovery b event)
    (fewer : b'.flights ≤ b.flights)
    : Exclusive b' where
  single jobID := (executionsOf_mono fewer jobID).trans (inv.single jobID)
  known flight mem := (inv.known flight (Multiset.mem_of_le fewer mem)).trans_le h.nextKey_le
  locked row' mem some := by
    have before := some.trans_le (executionsOf_mono fewer row'.id)
    obtain ⟨row, inRows, same, step⟩ := h.old_row (inv.known_job before) mem rfl
    rw [← same] at some before
    have processing := inv.locked row inRows before
    rcases step.leaves_processing processing with stays | ⟨result, rfl, same⟩ | ⟨rfl, stale⟩
    · exact stays
    · rw [same, inv.ended h] at some
      exact absurd some (lt_irrefl 0)
    · exact absurd (safe row inRows processing stale) before.ne'

/-- An execution that moves on is still one of the same job. -/
theorem of_flight (inv : Exclusive b) {old new : Flight} {rest : Multiset Flight}
    (held : b.flights = old ::ₘ rest) (sameJob : new.jobID = old.jobID)
    : Exclusive { b with flights := new ::ₘ rest } := by
  have sameCount (jobID : Nat)
      : executionsOf (new ::ₘ rest) jobID = b.executions jobID := by
    rw [Board.executions, held, executionsOf_cons, executionsOf_cons, sameJob]
  refine ⟨fun jobID => ?_, fun row mem some => ?_, fun flight mem => ?_⟩
  · exact (sameCount jobID).trans_le (inv.single jobID)
  · exact inv.locked row mem (some.trans_eq (sameCount row.id))
  · rcases Multiset.mem_cons.mp mem with rfl | other
    · rw [sameJob]
      exact inv.known old (by simp [held])
    · exact inv.known flight (by simp [held, other])

/-- LockJob succeeds only for a job without an execution. -/
theorem free (inv : Exclusive b) {job : EnqueuedJob} {lockedBy : String}
    (ok : (b.store.lockJob job.id lockedBy).2 = true)
    : b.executions job.id = 0 := by
  obtain ⟨row, found, lockable⟩ := QueueStore.lockJob_ok.mp ok
  by_contra some
  have processing : row.status = .processing := by
    apply inv.locked row (KeyedTable.mem_of_get? found)
    rw [show row.id = job.id from KeyedTable.key_of_get? found]
    omega
  simp [QueueStore.isLockable, processing] at lockable

theorem of_lock (inv : Exclusive b) {job : EnqueuedJob} (h : Board.Step b (.locked job) b')
    : Exclusive b' := by
  have taken := h
  cases h with
  | lock lockedBy offered ok =>
      obtain ⟨found, inRows, -⟩ := QueueStore.lockJob_ok.mp ok
      have known : job.id < b.store.jobs.nextKey := KeyedTable.lt_of_get? inRows
      have count (jobID : Nat)
          : executionsOf (.waiting job ::ₘ b.flights) jobID
            = b.executions jobID + if job.id = jobID then 1 else 0 :=
        executionsOf_cons _ _ _
      refine ⟨fun jobID => ?_, fun row' mem some => ?_, fun flight mem => ?_⟩
      · change executionsOf (.waiting job ::ₘ b.flights) jobID ≤ 1
        rw [count]
        split
        case isTrue same => rw [← same, inv.free ok]
        case isFalse => exact inv.single jobID
      · change 0 < executionsOf (.waiting job ::ₘ b.flights) row'.id at some
        have knownRow : row'.id < b.store.jobs.nextKey := by
          obtain ⟨flight, inFlight, same⟩ := executionsOf_pos.mp some
          rw [← same]
          rcases Multiset.mem_cons.mp inFlight with rfl | other
          · exact known
          · exact inv.known flight other
        obtain ⟨row, inRows, same, step⟩ := taken.old_row knownRow mem rfl
        cases step with
        | lock => rfl
        | kept notLocked =>
            have other : job.id ≠ row'.id := (notLocked job rfl).symm
            rw [count, if_neg other] at some
            exact inv.locked row' inRows some
      · rcases Multiset.mem_cons.mp mem with rfl | other
        · exact known
        · exact inv.known flight other

/-- The invariant is kept by every step with safe recovery. -/
theorem step (inv : Exclusive b) (h : Board.Step b event b') (safe : SafeRecovery b event)
    : Exclusive b' := by
  have taken := h
  cases h with
  | forget _ fewer => exact inv.of_fewer taken safe fewer
  | pass => exact inv.of_fewer taken safe le_rfl
  | insert => exact inv.of_fewer taken safe le_rfl
  | remove => exact inv.of_fewer taken safe le_rfl
  | fetch => exact inv.of_fewer taken safe le_rfl
  | lock => exact inv.of_lock taken
  | lockLost => exact inv.of_fewer taken safe le_rfl
  | start waiting => exact inv.of_flight waiting rfl
  | report inProgress _ sameJob => exact inv.of_flight inProgress sameJob
  | record returned => exact inv.of_fewer taken safe (returned ▸ Multiset.le_cons_self _ _)
  | sweep => exact inv.of_fewer taken safe le_rfl
  | unlock _ _ fewer => exact inv.of_fewer taken safe fewer
  | manual job => exact absurd safe id

/-- A system without managers has no execution. -/
theorem initial (now : Int) : Exclusive (System.initial now).board := by
  refine ⟨fun _ => Nat.zero_le _, fun row mem => ?_, fun flight mem => ?_⟩
  · exact absurd mem List.not_mem_nil
  · exact absurd mem (Multiset.notMem_zero flight)

end Exclusive

/-- In every run with safe recovery, any number of managers give a job at most one execution at
a time.
-/
theorem executions_le_one {now : Int} {log : List Event} {s : System}
    (run : Runs (Guarded (Acts System.step) (fun s => SafeRecovery s.board))
      (System.initial now) log s)
    (jobID : Nat)
    : s.board.executions jobID ≤ 1 := by
  have inv : Exclusive s.board := by
    refine (System.guarded_board run).invariant (fun _ b => Exclusive b)
      (Exclusive.initial now) ?_
    intro log b event b' inv h
    exact inv.step h.1 h.2
  exact inv.single jobID

-----------------------------------------------------------------------------------------
-- A second process starts while a job runs
-----------------------------------------------------------------------------------------

/-- The execution of a single manager, with the recovery at its start. -/
theorem executions_le_one_first
    : ∃ s log, perform System.step (System.initial 0)
          (twoManagers ++ begins 0 ++ polls 0 ++ takesJob 0) = some (s, log)
        ∧ s.board.executions 1 ≤ 1 := by
  have run := runs_of_perform_restrict
    (show perform (restrict System.step (fun s => SafeRecovery s.board)) (System.initial 0)
      (twoManagers ++ begins 0 ++ polls 0 ++ takesJob 0) = some (_, _) from rfl)
  exact ⟨_, _, rfl, executions_le_one run 1⟩

/-- A second process starts a second after the first began to execute the job. Its recovery
queues the job again and both execute it, though both outcomes are recorded within five
minutes of the start of the run.
-/
theorem second_start_two_executions
    : ∃ s log s' log', perform System.step (System.initial 0)
          (twoManagers ++ begins 0 ++ polls 0 ++ takesJob 0 ++ [.pass 1000000000]
            ++ begins 1 ++ polls 1 ++ takesJob 1) = some (s, log)
        ∧ perform System.step s (returnsJob 0 none ++ returnsJob 1 none) = some (s', log')
        ∧ s.board.executions 1 = 2 ∧ s'.board.executions 1 = 0
        ∧ s'.store.now < 5 * GoTime.minute :=
  ⟨_, _, _, _, rfl, rfl, rfl, rfl, by decide⟩

end GoFire.QueueManager
