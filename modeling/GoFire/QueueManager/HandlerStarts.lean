import GoFire.QueueManager.MutualExclusion

/-! How often the handler of a job is started. Every start uses up a successful lock, and a row
accounts for its locks: one for each counted attempt, and one more while it is processing or
after it has succeeded. Retries stop at the limit and a success is never locked again.
-/

namespace GoFire.QueueManager

open GoFire.State GoFire.Store TransitionSystem

def Event.locksJob (jobID : Nat) : Event → Bool
  | .locked job => job.id = jobID
  | _ => false

def Event.startsJob (jobID : Nat) : Event → Bool
  | .started job => job.id = jobID
  | _ => false

/-- How often the job was locked, and how often its handler was started. -/
def locks (log : List Event) (jobID : Nat) : Nat := log.countP (Event.locksJob jobID)
def starts (log : List Event) (jobID : Nat) : Nat := log.countP (Event.startsJob jobID)

def Event.isLock : Event → Bool
  | .locked _ => true
  | _ => false

def Event.isUnlock : Event → Bool
  | .unlocked => true
  | _ => false

def Event.isManual : Event → Bool
  | .manual _ => true
  | _ => false

/-- Nothing is executed manually, and no process starts after the first lock. -/
def WithoutRestart (log : List Event) : Prop :=
  (∀ event ∈ log, event.isManual = false)
    ∧ log.Pairwise (fun earlier later => earlier.isLock = true → later.isUnlock = false)

instance (log : List Event) : Decidable (WithoutRestart log) :=
  inferInstanceAs (Decidable (_ ∧ _))

theorem WithoutRestart.initial_segment {log more : List Event} (h : WithoutRestart (log ++ more))
    : WithoutRestart log :=
  ⟨fun event mem => h.1 event (List.mem_append_left _ mem), (List.pairwise_append.mp h.2).1⟩

theorem WithoutRestart.no_manual {log : List Event} {job : EnqueuedJob}
    : ¬ WithoutRestart (log ++ [.manual job]) := by
  intro h
  have := h.1 (.manual job) (by simp)
  cases this

theorem WithoutRestart.no_lock {log : List Event} (h : WithoutRestart (log ++ [.unlocked]))
    (job : EnqueuedJob)
    : .locked job ∉ log := by
  intro mem
  have := (List.pairwise_append.mp h.2).2.2 (.locked job) mem .unlocked (by simp) rfl
  cases this

def Flight.waitsFor (jobID : Nat) : Flight → Bool
  | .waiting job => job.id = jobID
  | _ => false

/-- The executions of a job whose handler is not started. -/
def waitingOf (flights : Multiset Flight) (jobID : Nat) : Nat :=
  flights.countP (fun flight => flight.waitsFor jobID)

/-- The locks a row accounts for. -/
def accounted (row : EnqueuedJob) : Nat :=
  match row.status with
  | .processing => row.attempts + 1
  | .succeeded => row.attempts + 1
  | _ => row.attempts

structure RowLedger (locks : Nat) (row : EnqueuedJob) : Prop where
  limit : row.maxAttempts = maxRetryAttempt
  covered : locks ≤ accounted row
  room : row.status ≠ .failed → row.status ≠ .dead → row.attempts < maxRetryAttempt

/-- The row of a job that can be locked has an attempt left for every further lock. -/
theorem RowLedger.of_lockable {locks : Nat} {row : EnqueuedJob} (ledger : RowLedger locks row)
    (lockable : QueueStore.isLockable row = true)
    : locks ≤ row.attempts ∧ row.attempts < maxRetryAttempt := by
  have covered := ledger.covered
  simp only [QueueStore.isLockable, Bool.or_eq_true, decide_eq_true_eq] at lockable
  rcases lockable with queued | retrying
  · refine ⟨by simpa [accounted, queued] using covered, ?_⟩
    exact ledger.room (by simp [queued]) (by simp [queued])
  · refine ⟨by simpa [accounted, retrying] using covered, ?_⟩
    exact ledger.room (by simp [retrying]) (by simp [retrying])

/-- After a success the job has no execution but the one that reports it, and its row is on
the way to succeeded.
-/
structure Done (b : Board) (jobID : Nat) : Prop where
  known : jobID < b.store.jobs.nextKey
  flights : ∀ flight ∈ b.flights, flight.jobID = jobID
    → ∃ result, flight = .returned result ∧ result.status = .succeeded
  rows : ∀ row ∈ b.store.jobs.rows, row.id = jobID
    → row.status = .processing ∨ row.status = .succeeded

/-- What the log so far and the board have in common. -/
structure Ledger (log : List Event) (b : Board) : Prop where
  exclusive : Exclusive b
  started : ∀ jobID, starts log jobID + waitingOf b.flights jobID ≤ locks log jobID
  bounded : ∀ jobID, locks log jobID ≤ maxRetryAttempt
  known : ∀ jobID, 0 < locks log jobID → jobID < b.store.jobs.nextKey
  rows : ∀ row ∈ b.store.jobs.rows, RowLedger (locks log row.id) row
  untouched : (∀ job, .locked job ∉ log) → b.flights = 0
  reported : ∀ result, .reported result ∈ log → ∃ job, .locked job ∈ log
  done : ∀ result, .reported result ∈ log → result.status = .succeeded → Done b result.jobID

theorem locks_append (log : List Event) (event : Event) (jobID : Nat)
    : locks (log ++ [event]) jobID
      = locks log jobID + if event.locksJob jobID then 1 else 0 := by
  simp [locks, List.countP_append, List.countP_singleton]

theorem starts_append (log : List Event) (event : Event) (jobID : Nat)
    : starts (log ++ [event]) jobID
      = starts log jobID + if event.startsJob jobID then 1 else 0 := by
  simp [starts, List.countP_append, List.countP_singleton]

theorem waitingOf_cons (flight : Flight) (flights : Multiset Flight) (jobID : Nat)
    : waitingOf (flight ::ₘ flights) jobID
      = waitingOf flights jobID + if flight.waitsFor jobID then 1 else 0 :=
  Multiset.countP_cons _ _ _

theorem waitingOf_mono {flights flights' : Multiset Flight} (fewer : flights' ≤ flights)
    (jobID : Nat)
    : waitingOf flights' jobID ≤ waitingOf flights jobID :=
  Multiset.countP_le_of_le _ fewer

theorem locks_eq_zero {log : List Event} (none : ∀ job, .locked job ∉ log) (jobID : Nat)
    : locks log jobID = 0 := by
  rw [locks, List.countP_eq_zero]
  intro event mem
  cases event with
  | locked job => exact absurd mem (none job)
  | _ => simp [Event.locksJob]

namespace Ledger

variable {log : List Event} {b b' : Board} {event : Event}

/-- In a run without restarts the recovery finds no execution. -/
theorem safe (inv : Ledger log b) (calm : WithoutRestart (log ++ [event]))
    : SafeRecovery b event := by
  cases event with
  | manual job => exact absurd calm WithoutRestart.no_manual
  | unlocked =>
      intro row _ _ _
      rw [Board.executions, inv.untouched calm.no_lock]
      rfl
  | _ => trivial

/-- Every start uses up a lock. -/
theorem step_started (inv : Ledger log b) (h : Board.Step b event b')
    (calm : WithoutRestart (log ++ [event])) (jobID : Nat)
    : starts (log ++ [event]) jobID + waitingOf b'.flights jobID
      ≤ locks (log ++ [event]) jobID := by
  have before := inv.started jobID
  rw [starts_append, locks_append]
  cases h with
  | forget _ fewer =>
      have := waitingOf_mono fewer jobID
      simp only [Event.startsJob, Event.locksJob, Bool.false_eq_true, if_false]
      omega
  | unlock _ _ fewer =>
      have := waitingOf_mono fewer jobID
      simp only [Event.startsJob, Event.locksJob, Bool.false_eq_true, if_false]
      omega
  | lock lockedBy offered ok =>
      rw [waitingOf_cons]
      simp only [Event.startsJob, Event.locksJob, Flight.waitsFor, Bool.false_eq_true, if_false,
        decide_eq_true_eq]
      omega
  | start waiting =>
      rw [waiting, waitingOf_cons] at before
      rw [waitingOf_cons]
      simp only [Event.startsJob, Event.locksJob, Flight.waitsFor, Bool.false_eq_true,
        if_false, decide_eq_true_eq] at before ⊢
      omega
  | report inProgress =>
      rw [inProgress, waitingOf_cons] at before
      rw [waitingOf_cons]
      simp only [Event.startsJob, Event.locksJob, Flight.waitsFor, Bool.false_eq_true, if_false]
      omega
  | record returned =>
      rw [returned, waitingOf_cons] at before
      simp only [Event.startsJob, Event.locksJob, Bool.false_eq_true, if_false]
      omega
  | manual job => exact absurd calm WithoutRestart.no_manual
  | _ =>
      simp only [Event.startsJob, Event.locksJob, Bool.false_eq_true, if_false]
      omega

/-- A lock is taken on a lockable row, which has an attempt left. -/
theorem step_bounded (inv : Ledger log b) (h : Board.Step b event b') (jobID : Nat)
    : locks (log ++ [event]) jobID ≤ maxRetryAttempt
      ∧ (0 < locks (log ++ [event]) jobID → jobID < b.store.jobs.nextKey) := by
  have bounded := inv.bounded jobID
  have known := inv.known jobID
  rw [locks_append]
  cases h with
  | @lock job offers lockedBy offered ok =>
      by_cases same : job.id = jobID
      · subst same
        obtain ⟨row, found, lockable⟩ := QueueStore.lockJob_ok.mp ok
        have ledger := inv.rows row (KeyedTable.mem_of_get? found)
        rw [show row.id = job.id from KeyedTable.key_of_get? found] at ledger
        obtain ⟨covered, room⟩ := ledger.of_lockable lockable
        refine ⟨?_, fun _ => KeyedTable.lt_of_get? found⟩
        simp only [Event.locksJob, decide_true, if_true]
        omega
      · simp only [Event.locksJob, same, decide_false, Bool.false_eq_true, if_false]
        exact ⟨bounded, known⟩
  | _ => exact ⟨bounded, known⟩

/-- What a step does to a row keeps the row's ledger. -/
theorem of_rowStep (inv : Ledger log b) (h : Board.Step b event b')
    (calm : WithoutRestart (log ++ [event])) {row row' : EnqueuedJob}
    (inRows : row ∈ b.store.jobs.rows) (step : RowStep b.store.now event row row')
    : RowLedger (locks (log ++ [event]) row'.id) row' := by
  have ledger := inv.rows row inRows
  have limit := step.maxAttempts_eq.trans ledger.limit
  rw [step.id_eq, locks_append]
  cases step with
  | kept notLocked =>
      cases event with
      | locked job =>
          have other : job.id ≠ row.id := (notLocked job rfl).symm
          simpa [Event.locksJob, other] using ledger
      | _ => exact ledger
  | lock lockedBy same lockable =>
      obtain ⟨covered, room⟩ := ledger.of_lockable lockable
      refine ⟨limit, ?_, fun _ _ => room⟩
      simp only [Event.locksJob, same, decide_true, if_true, accounted]
      rw [same] at covered
      omega
  | lockLost lockedBy lockable =>
      obtain ⟨covered, room⟩ := ledger.of_lockable lockable
      exact ⟨limit, covered.trans (Nat.le_succ _), fun _ _ => room⟩
  | @record result _ _ same recorded =>
      have processing : row.status = .processing := by
        cases h with
        | record returned =>
            apply inv.exclusive.locked row inRows
            exact executionsOf_pos.mpr ⟨.returned result, by simp [returned], same.symm⟩
      have covered : locks log row.id ≤ row.attempts + 1 := by
        simpa [accounted, processing] using ledger.covered
      have room := ledger.room (by simp [processing]) (by simp [processing])
      cases recorded with
      | success => exact ⟨limit, covered, fun _ _ => room⟩
      | unknown => exact ledger
      | failure =>
          rcases QueueStore.failureStatus_cases result.attempts with dead | failed
          · rw [dead]
            exact ⟨limit, covered, fun _ notDead => absurd rfl notDead⟩
          · rw [failed]
            exact ⟨limit, covered, fun notFailed _ => absurd rfl notFailed⟩
  | retry retryable =>
      simp only [QueueStore.isRetryable, Bool.and_eq_true, decide_eq_true_eq] at retryable
      have covered : locks log row.id ≤ row.attempts := by
        simpa [accounted, retryable.1] using ledger.covered
      exact ⟨limit, covered, fun _ _ => ledger.limit ▸ retryable.2⟩
  | recover processing stale =>
      have noLock := calm.no_lock
      refine ⟨limit, ?_, fun _ _ => ledger.room (by simp [processing]) (by simp [processing])⟩
      rw [locks_eq_zero noLock]
      exact Nat.zero_le _

theorem step_rows (inv : Ledger log b) (h : Board.Step b event b')
    (calm : WithoutRestart (log ++ [event]))
    : ∀ row ∈ b'.store.jobs.rows, RowLedger (locks (log ++ [event]) row.id) row := by
  intro row' mem
  rcases h.row_cases mem with new | ⟨row, inRows, step⟩
  · have none : locks (log ++ [event]) row'.id = 0 := by
      by_contra some
      have := (inv.step_bounded h row'.id).2 (Nat.pos_of_ne_zero some)
      have := new.fresh
      omega
    rw [none]
    refine ⟨new.limit, Nat.zero_le _, fun _ _ => ?_⟩
    rw [new.untried]
    decide
  · exact inv.of_rowStep h calm inRows step

/-- Executions and reports come only after a first lock. -/
theorem step_untouched (inv : Ledger log b) (h : Board.Step b event b')
    (calm : WithoutRestart (log ++ [event])) (none : ∀ job, .locked job ∉ log ++ [event])
    : b'.flights = 0 ∧ ∀ result, event ≠ .reported result := by
  have before := inv.untouched fun job mem => none job (List.mem_append_left _ mem)
  cases h with
  | forget _ fewer => exact ⟨Multiset.le_zero.mp (before ▸ fewer), by simp⟩
  | unlock _ _ fewer => exact ⟨Multiset.le_zero.mp (before ▸ fewer), by simp⟩
  | @lock job => exact absurd (List.mem_append_right log (List.mem_singleton_self _)) (none job)
  | start waiting => exact absurd (waiting.symm.trans before) (Multiset.cons_ne_zero)
  | report inProgress => exact absurd (inProgress.symm.trans before) (Multiset.cons_ne_zero)
  | record returned => exact absurd (returned.symm.trans before) (Multiset.cons_ne_zero)
  | manual job => exact absurd calm WithoutRestart.no_manual
  | _ => exact ⟨before, by simp⟩

theorem step_reported (inv : Ledger log b) (h : Board.Step b event b')
    (calm : WithoutRestart (log ++ [event])) {result : JobResult}
    (mem : .reported result ∈ log ++ [event])
    : ∃ job, .locked job ∈ log ++ [event] := by
  by_contra none
  push Not at none
  rcases List.mem_append.mp mem with old | new
  · obtain ⟨job, locked⟩ := inv.reported result old
    exact none job (List.mem_append_left _ locked)
  · exact (inv.step_untouched h calm none).2 result (List.mem_singleton.mp new).symm

/-- No new execution of a job that is done begins: its row is not lockable. -/
theorem done_flights {jobID : Nat} (done : Done b jobID) (h : Board.Step b event b')
    (calm : WithoutRestart (log ++ [event])) {flight : Flight} (mem : flight ∈ b'.flights)
    (same : flight.jobID = jobID)
    : ∃ result, flight = .returned result ∧ result.status = .succeeded := by
  obtain ⟨-, flights, rows⟩ := done
  cases h with
  | forget _ fewer => exact flights flight (Multiset.mem_of_le fewer mem) same
  | unlock _ _ fewer => exact flights flight (Multiset.mem_of_le fewer mem) same
  | lock lockedBy offered ok =>
      rcases Multiset.mem_cons.mp mem with rfl | old
      · obtain ⟨row, found, lockable⟩ := QueueStore.lockJob_ok.mp ok
        have ofJob : row.id = jobID := (KeyedTable.key_of_get? found).trans same
        rcases rows row (KeyedTable.mem_of_get? found) ofJob with status | status
        · simp [QueueStore.isLockable, status] at lockable
        · simp [QueueStore.isLockable, status] at lockable
      · exact flights flight old same
  | @start job _ waiting =>
      rcases Multiset.mem_cons.mp mem with rfl | old
      · obtain ⟨earlier, isReport, -⟩ := flights (.waiting job) (by simp [waiting]) same
        cases isReport
      · exact flights flight (by simp [waiting, old]) same
  | @report before _ _ inProgress unreported sameJob =>
      rcases Multiset.mem_cons.mp mem with rfl | old
      · obtain ⟨earlier, isReport, -⟩ :=
          flights before (by simp [inProgress]) (sameJob.symm.trans same)
        exact absurd isReport (unreported earlier)
      · exact flights flight (by simp [inProgress, old]) same
  | record returned => exact flights flight (by simp [returned, mem]) same
  | manual job => exact absurd calm WithoutRestart.no_manual
  | _ => exact flights flight mem same

/-- The row of a job that is done is on its way to succeeded: the only result of it that can be
recorded is a success.
-/
theorem done_row {jobID : Nat} (done : Done b jobID) (h : Board.Step b event b')
    (started : ∃ job, .locked job ∈ log) (calm : WithoutRestart (log ++ [event]))
    {row row' : EnqueuedJob} (inRows : row ∈ b.store.jobs.rows) (same : row.id = jobID)
    (step : RowStep b.store.now event row row')
    : row'.status = .processing ∨ row'.status = .succeeded := by
  have status := done.rows row inRows same
  cases step with
  | kept => exact status
  | lock => exact Or.inl rfl
  | lockLost => exact Or.inl rfl
  | retry retryable =>
      simp only [QueueStore.isRetryable, Bool.and_eq_true, decide_eq_true_eq] at retryable
      simp [retryable.1] at status
  | recover =>
      obtain ⟨job, locked⟩ := started
      exact absurd locked (calm.no_lock job)
  | @record recordedResult _ _ sameJob recorded =>
      cases h with
      | record returned =>
          obtain ⟨_, isReport, success⟩ :=
            done.flights (.returned recordedResult) (by simp [returned]) (sameJob.symm.trans same)
          cases isReport
          cases recorded with
          | success => exact Or.inr rfl
          | failure failed => exact absurd (success.symm.trans failed) JobStatus.noConfusion
          | unknown other => exact absurd success other.1

/-- A success stays done: its row is not lockable and its report is a success. -/
theorem still_done (inv : Ledger log b) (h : Board.Step b event b')
    (calm : WithoutRestart (log ++ [event])) {result : JobResult}
    (mem : .reported result ∈ log) (succeeded : result.status = .succeeded)
    : Done b' result.jobID := by
  have done := inv.done result mem succeeded
  refine ⟨done.known.trans_le h.nextKey_le, ?_, ?_⟩
  · intro flight inFlights same
    exact done_flights done h calm inFlights same
  · intro row' inRows' same
    obtain ⟨row, inRows, sameRow, step⟩ := h.old_row done.known inRows' same
    exact done_row done h (inv.reported result mem) calm inRows sameRow step

/-- The execution that reports a success is the only one of its job. -/
theorem newly_done (inv : Ledger log b) {result : JobResult}
    (h : Board.Step b (.reported result) b') (succeeded : result.status = .succeeded)
    : Done b' result.jobID := by
  cases h with
  | @report flight _ rest inProgress _ sameJob =>
      have inFlight : flight ∈ b.flights := by simp [inProgress]
      refine ⟨?_, ?_, ?_⟩
      · rw [sameJob]
        exact inv.exclusive.known flight inFlight
      · intro other mem same
        rcases Multiset.mem_cons.mp mem with rfl | old
        · exact ⟨result, rfl, succeeded⟩
        · have single := inv.exclusive.single result.jobID
          have some : 0 < executionsOf rest result.jobID :=
            executionsOf_pos.mpr ⟨other, old, same⟩
          rw [Board.executions, inProgress, executionsOf_cons, if_pos sameJob.symm] at single
          omega
      · intro row inRows same
        refine Or.inl (inv.exclusive.locked row inRows ?_)
        exact executionsOf_pos.mpr ⟨flight, inFlight, sameJob.symm.trans same.symm⟩

/-- The ledger is kept by every step of a run without restarts. -/
theorem step (inv : Ledger log b) (h : Board.Step b event b')
    (calm : WithoutRestart (log ++ [event]))
    : Ledger (log ++ [event]) b' where
  exclusive := inv.exclusive.step h (inv.safe calm)
  started := inv.step_started h calm
  bounded jobID := (inv.step_bounded h jobID).1
  known jobID some := ((inv.step_bounded h jobID).2 some).trans_le h.nextKey_le
  rows := inv.step_rows h calm
  untouched none := (inv.step_untouched h calm none).1
  reported _ mem := inv.step_reported h calm mem
  done result mem succeeded := by
    rcases List.mem_append.mp mem with old | new
    · exact inv.still_done h calm old succeeded
    · obtain rfl := List.mem_singleton.mp new
      exact inv.newly_done h succeeded

theorem initial (now : Int) : Ledger [] (System.initial now).board where
  exclusive := .initial now
  started _ := le_rfl
  bounded _ := Nat.zero_le _
  known _ some := absurd some (lt_irrefl 0)
  rows _ mem := absurd mem List.not_mem_nil
  untouched _ := rfl
  reported _ mem := absurd mem List.not_mem_nil
  done _ mem := absurd mem List.not_mem_nil

end Ledger

theorem ledger_of_run {now : Int} {log : List Event} {s : System}
    (run : Runs (Acts System.step) (System.initial now) log s) (calm : WithoutRestart log)
    : Ledger log s.board := by
  refine (System.runs_board run).invariant (fun log b => WithoutRestart log → Ledger log b)
    (fun _ => Ledger.initial now) ?_ calm
  intro log b event b' inv h calm
  exact (inv calm.initial_segment).step h calm

/-- In a run without restarts the handler of a job is started at most as often as its attempts
are limited, and not again after it has returned success.
-/
theorem handler_starts {now : Int} {log : List Event} {s : System}
    (run : Runs (Acts System.step) (System.initial now) log s) (calm : WithoutRestart log)
    (jobID : Nat)
    : starts log jobID ≤ maxRetryAttempt
      ∧ ∀ before job after, log = before ++ .started job :: after → job.id = jobID
        → ∀ result, .reported result ∈ before → result.jobID = jobID
          → result.status ≠ .succeeded := by
  have ledger := ledger_of_run run calm
  refine ⟨?_, ?_⟩
  · have started := ledger.started jobID
    have bounded := ledger.bounded jobID
    omega
  · intro before job after h₁ h₂ result reported same succeeded
    subst h₁
    subst h₂
    obtain ⟨t, t', toStart, atStart, -⟩ := run.split
    have done := (ledger_of_run toStart calm.initial_segment).done result reported succeeded
    have taken := System.step_board atStart
    generalize t'.board = b' at taken
    cases taken with
    | start waiting =>
        obtain ⟨_, isReport, -⟩ := done.flights (.waiting job) (by simp [waiting]) same.symm
        cases isReport

/-- One round of a job that fails. -/
def failedRound : List SystemAction :=
  polls 0 ++ takesJob 0 ++ returnsJob 0 (some "refused") ++ sweeps 0

/-- A job that always fails: its handler is started in three rounds and in no fourth one. -/
theorem handler_starts_three
    : ∃ s log, perform System.step (System.initial 0)
          (oneManager ++ begins 0 ++ failedRound ++ failedRound ++ failedRound) = some (s, log)
        ∧ starts log 1 = 3 ∧ starts log 1 ≤ maxRetryAttempt :=
  ⟨_, _, rfl, rfl, (handler_starts (runs_of_perform
    (show perform System.step (System.initial 0)
      (oneManager ++ begins 0 ++ failedRound ++ failedRound ++ failedRound) = some (_, _) from rfl))
    (by decide) 1).1⟩

end GoFire.QueueManager
