import GoFire.QueueManager.Refinement
import GoFire.QueueManager.RowSteps

/-! The events of a run explain every row of the table: its status, its attempts and its last error
are what the events since its insertion make of a new row.
-/

namespace GoFire.QueueManager

open GoFire.State GoFire.Store TransitionSystem

/-- The columns of a row that tell how far its job is. -/
structure Progress where
  status : JobStatus
  attempts : Nat
  lastError : Option String

def Progress.ofRow (row : EnqueuedJob) : Progress := ⟨row.status, row.attempts, row.lastError⟩

/-- A job that has just been inserted. -/
def Progress.fresh : Progress := ⟨.queued, 0, none⟩

def Progress.recorded (p : Progress) (result : JobResult) : Progress :=
  match result.status with
  | .succeeded => { p with status := .succeeded }
  | .failed =>
      { status := QueueStore.failureStatus result.attempts, attempts := p.attempts + 1,
        lastError := some (result.err.getD "") }
  | _ => p

/-- What an event means to a job. -/
def Progress.after (jobID : Nat) (p : Progress) : Event → Progress
  | .locked job => if job.id = jobID then { p with status := .processing } else p
  | .lockLost id =>
      if id = jobID ∧ (p.status = .queued ∨ p.status = .retrying) then
        { p with status := .processing }
      else p
  | .recorded result => if result.jobID = jobID then p.recorded result else p
  | .swept =>
      if p.status = .failed ∧ p.attempts < maxRetryAttempt then { p with status := .retrying }
      else p
  | .unlocked => if p.status = .processing then { p with status := .queued } else p
  | _ => p

/-- What the events make of a new row. -/
def Progress.replay (log : List Event) (jobID : Nat) : Progress :=
  log.foldl (Progress.after jobID) .fresh

theorem Progress.replay_append (log : List Event) (event : Event) (jobID : Nat)
    : Progress.replay (log ++ [event]) jobID = (Progress.replay log jobID).after jobID event := by
  rw [replay, List.foldl_append]
  rfl

-----------------------------------------------------------------------------------------
-- One step
-----------------------------------------------------------------------------------------

/-- What the replay needs of a row. -/
structure Replayable (now : Int) (row : EnqueuedJob) : Prop where
  limit : row.maxAttempts = maxRetryAttempt
  lockedBefore : row.status = .processing → QueueStore.lockedUntil row now = true

theorem isRetryable_iff {row : EnqueuedJob} (limit : row.maxAttempts = maxRetryAttempt)
    : QueueStore.isRetryable row = true
      ↔ row.status = .failed ∧ row.attempts < maxRetryAttempt := by
  rw [QueueStore.isRetryable, limit, Bool.and_eq_true, decide_eq_true_eq, decide_eq_true_eq]

theorem isLockable_iff {row : EnqueuedJob}
    : QueueStore.isLockable row = true ↔ row.status = .queued ∨ row.status = .retrying := by
  rw [QueueStore.isLockable, Bool.or_eq_true, decide_eq_true_eq, decide_eq_true_eq]

theorem Recorded.id_eq {now : Int} {result : JobResult} {row row' : EnqueuedJob}
    (recorded : Recorded now result row row')
    : row'.id = row.id := by
  cases recorded <;> rfl

theorem Recorded.progress {now : Int} {result : JobResult} {row row' : EnqueuedJob}
    (recorded : Recorded now result row row')
    : Progress.ofRow row' = (Progress.ofRow row).recorded result := by
  cases recorded with
  | success succeeded => simp only [Progress.recorded, succeeded, Progress.ofRow]
  | failure failed => simp only [Progress.recorded, failed, Progress.ofRow]
  | unknown other =>
      unfold Progress.recorded
      split
      case h_1 succeeded => exact absurd succeeded other.1
      case h_2 failed => exact absurd failed other.2
      case h_3 => rfl

theorem lockedUntil_later {row : EnqueuedJob} {instant later : Int}
    (until_ : QueueStore.lockedUntil row instant = true) (le : instant ≤ later)
    : QueueStore.lockedUntil row later = true := by
  rw [QueueStore.lockedUntil, Option.any_eq_true] at until_ ⊢
  obtain ⟨lockedAt, found, before⟩ := until_
  exact ⟨lockedAt, found, decide_eq_true ((of_decide_eq_true before).trans le)⟩

theorem failureStatus_ne_processing (attempts : Nat)
    : QueueStore.failureStatus attempts ≠ .processing := by
  rcases QueueStore.failureStatus_cases attempts with dead | failed
  · simp [dead]
  · simp [failed]

/-- A row of a batch, by induction on the batch. -/
theorem inserted_row {s : QueueStore} {batch : List Job} {row' : EnqueuedJob}
    (mem : row' ∈ (s.bulkInsert batch).jobs.rows)
    : row' ∈ s.jobs.rows
      ∨ ∃ (job : Job) (id : Nat), s.jobs.nextKey ≤ id
        ∧ row' = QueueStore.newJob job.name (marshalArgs job.args) job.scheduledAt s.now id := by
  unfold QueueStore.bulkInsert at mem
  induction batch generalizing s with
  | nil => exact Or.inl mem
  | cons job rest ih =>
      rcases ih mem with earlier | ⟨job', id, fresh, new⟩
      · rcases KeyedTable.mem_insert (by intro; rfl) earlier with old | new
        · exact Or.inl old
        · exact Or.inr ⟨job, _, le_rfl, new⟩
      · exact Or.inr ⟨job', id, (Nat.le_succ _).trans fresh, new⟩

/-- A row is changed as the event means, or it is new. -/
theorem Board.Step.progress {b b' : Board} {event : Event} (h : Board.Step b event b')
    (replayable : ∀ row ∈ b.store.jobs.rows, Replayable b.store.now row) {row' : EnqueuedJob}
    (mem : row' ∈ b'.store.jobs.rows)
    : (b.store.jobs.nextKey ≤ row'.id ∧ Progress.ofRow row' = .fresh ∧ event = .internal)
      ∨ ∃ row ∈ b.store.jobs.rows, row.id = row'.id
        ∧ Progress.ofRow row' = (Progress.ofRow row).after row.id event := by
  cases h with
  | insert batch =>
      rcases inserted_row mem with old | ⟨job, id, fresh, rfl⟩
      · exact Or.inr ⟨row', old, rfl, rfl⟩
      · exact Or.inl ⟨fresh, rfl, rfl⟩
  | remove jobID => exact Or.inr ⟨row', (QueueStore.mem_removeByID mem).1, rfl, rfl⟩
  | @lock job _ lockedBy _ ok =>
      obtain ⟨row, inRows, ⟨same, lockable, rfl⟩ | ⟨rfl, notBoth⟩⟩ := QueueStore.mem_lockJob mem
      · refine Or.inr ⟨row, inRows, rfl, ?_⟩
        simp only [Progress.after, same, if_true, Progress.ofRow]
      · refine Or.inr ⟨row', inRows, rfl, ?_⟩
        -- The row that the lock found is the only one with its key.
        have other : job.id ≠ row'.id := by
          intro same
          obtain ⟨row, found, lockable⟩ := QueueStore.lockJob_ok.mp ok
          obtain rfl := KeyedTable.eq_of_key inRows (KeyedTable.mem_of_get? found)
            (same.symm.trans (KeyedTable.key_of_get? found).symm)
          exact notBoth ⟨same.symm, lockable⟩
        simp only [Progress.after, if_neg other]
  | lockLost lockedBy =>
      obtain ⟨row, inRows, ⟨same, lockable, rfl⟩ | ⟨rfl, notBoth⟩⟩ := QueueStore.mem_lockJob mem
      · refine Or.inr ⟨row, inRows, rfl, ?_⟩
        have open_ := isLockable_iff.mp lockable
        simp only [Progress.after, same, Progress.ofRow, true_and, if_pos open_]
      · refine Or.inr ⟨row', inRows, rfl, ?_⟩
        rw [Progress.after, if_neg]
        intro both
        exact notBoth ⟨both.1.symm, isLockable_iff.mpr both.2⟩
  | record =>
      obtain ⟨row, inRows, ⟨same, recorded⟩ | ⟨other, rfl⟩⟩ := mem_recordOutcome mem
      · refine Or.inr ⟨row, inRows, recorded.id_eq.symm, ?_⟩
        rw [recorded.progress, Progress.after, if_pos same.symm]
      · refine Or.inr ⟨row', inRows, rfl, ?_⟩
        rw [Progress.after, if_neg (Ne.symm other)]
  | sweep =>
      obtain ⟨row, inRows, ⟨retryable, rfl⟩ | ⟨unretryable, rfl⟩⟩ :=
        QueueStore.mem_markRetryFailedJobs mem
      · refine Or.inr ⟨row, inRows, rfl, ?_⟩
        have failed : (Progress.ofRow row).status = .failed
            ∧ (Progress.ofRow row).attempts < maxRetryAttempt :=
          (isRetryable_iff (replayable row inRows).limit).mp retryable
        rw [Progress.after, if_pos failed]
        rfl
      · refine Or.inr ⟨row', inRows, rfl, ?_⟩
        rw [Progress.after, if_neg]
        intro failed
        rw [(isRetryable_iff (replayable row' inRows).limit).mpr failed] at unretryable
        cases unretryable
  | unlock timeout =>
      obtain ⟨row, inRows, ⟨meets, rfl⟩ | ⟨fails, rfl⟩⟩ := KeyedTable.mem_update (by intro; rfl) mem
      · refine Or.inr ⟨row, inRows, rfl, ?_⟩
        rw [Bool.and_eq_true, decide_eq_true_eq] at meets
        have processing : (Progress.ofRow row).status = .processing := meets.1
        rw [Progress.after, if_pos processing]
        rfl
      · refine Or.inr ⟨row', inRows, rfl, ?_⟩
        rw [Progress.after, if_neg]
        intro processing
        simp only [Progress.ofRow] at processing
        rw [decide_eq_true processing, (replayable row' inRows).lockedBefore processing] at fails
        cases fails
  | _ => exact Or.inr ⟨row', mem, rfl, rfl⟩

-----------------------------------------------------------------------------------------
-- Runs
-----------------------------------------------------------------------------------------

/-- An execution is one of before, or of a job that was just locked or is called manually. -/
theorem Board.Step.flights_cases {b b' : Board} {event : Event} (h : Board.Step b event b')
    {flight : Flight} (mem : flight ∈ b'.flights)
    : (∃ earlier ∈ b.flights, earlier.jobID = flight.jobID)
      ∨ ∃ job, job.id = flight.jobID ∧ (event = .locked job ∨ event = .manual job) := by
  cases h with
  | forget _ fewer => exact Or.inl ⟨flight, Multiset.mem_of_le fewer mem, rfl⟩
  | unlock _ _ fewer => exact Or.inl ⟨flight, Multiset.mem_of_le fewer mem, rfl⟩
  | record returned =>
      exact Or.inl ⟨flight, returned ▸ Multiset.mem_cons_of_mem mem, rfl⟩
  | @lock job =>
      rcases Multiset.mem_cons.mp mem with rfl | old
      · exact Or.inr ⟨job, rfl, Or.inl rfl⟩
      · exact Or.inl ⟨flight, old, rfl⟩
  | manual job =>
      rcases Multiset.mem_cons.mp mem with rfl | old
      · exact Or.inr ⟨job, rfl, Or.inr rfl⟩
      · exact Or.inl ⟨flight, old, rfl⟩
  | @start job _ waiting =>
      rcases Multiset.mem_cons.mp mem with rfl | old
      · exact Or.inl ⟨.waiting job, waiting ▸ Multiset.mem_cons_self _ _, rfl⟩
      · exact Or.inl ⟨flight, waiting ▸ Multiset.mem_cons_of_mem old, rfl⟩
  | @report earlier _ _ inProgress _ sameJob =>
      rcases Multiset.mem_cons.mp mem with rfl | old
      · exact Or.inl ⟨earlier, inProgress ▸ Multiset.mem_cons_self _ _, sameJob.symm⟩
      · exact Or.inl ⟨flight, inProgress ▸ Multiset.mem_cons_of_mem old, rfl⟩
  | _ => exact Or.inl ⟨flight, mem, rfl⟩

/-- The log so far explains the board: every row is replayed, and no event was about a job that is
not inserted yet.
-/
structure Explained (log : List Event) (b : Board) : Prop where
  rows : ∀ row ∈ b.store.jobs.rows,
    Replayable b.store.now row ∧ Progress.ofRow row = .replay log row.id
  unheard : ∀ jobID, b.store.jobs.nextKey ≤ jobID → .replay log jobID = Progress.fresh
  offered : ∀ job ∈ b.offers, job.id < b.store.jobs.nextKey
  inFlight : ∀ flight ∈ b.flights, flight.jobID < b.store.jobs.nextKey

namespace Explained

variable {log : List Event} {b b' : Board} {event : Event}

theorem initial (now : Int) : Explained [] (System.initial now).board where
  rows _ mem := absurd mem List.not_mem_nil
  unheard _ _ := rfl
  offered job mem := absurd mem (Multiset.notMem_zero job)
  inFlight flight mem := absurd mem (Multiset.notMem_zero flight)

/-- An event is about a job that was inserted before, or changes no new job. -/
theorem after_fresh (inv : Explained log b) (h : Board.Step b event b') {jobID : Nat}
    (later : b.store.jobs.nextKey ≤ jobID)
    : Progress.fresh.after jobID event = .fresh := by
  cases h with
  | lock _ offered =>
      have known := inv.offered _ (offered ▸ Multiset.mem_cons_self _ _)
      exact if_neg (by omega)
  | lockLost _ offered =>
      have known := inv.offered _ (offered ▸ Multiset.mem_cons_self _ _)
      exact if_neg (by omega)
  | record returned =>
      have known := inv.inFlight _ (returned ▸ Multiset.mem_cons_self _ _)
      rw [Flight.jobID] at known
      exact if_neg (by omega)
  | _ => rfl

theorem step_replayable (inv : Explained log b) (h : Board.Step b event b')
    : ∀ row ∈ b'.store.jobs.rows, Replayable b'.store.now row := by
  intro row' mem
  rcases h.row_cases mem with new | ⟨row, inRows, step⟩
  · refine ⟨new.limit, fun processing => ?_⟩
    rw [new.queued] at processing
    cases processing
  · have before := (inv.rows row inRows).1
    refine ⟨step.maxAttempts_eq.trans before.limit, fun processing => ?_⟩
    cases step with
    | kept => exact lockedUntil_later (before.lockedBefore processing) h.now_le
    | lock => exact decide_eq_true h.now_le
    | lockLost => exact decide_eq_true h.now_le
    | record _ recorded =>
        cases recorded with
        | success => cases processing
        | failure => exact absurd processing (failureStatus_ne_processing _)
        | unknown => exact lockedUntil_later (before.lockedBefore processing) h.now_le
    | retry => cases processing
    | recover => cases processing

theorem step (inv : Explained log b) (h : Board.Step b event b')
    (known : ∀ job, event = .manual job → job.id < b.store.jobs.nextKey)
    : Explained (log ++ [event]) b' where
  rows row' mem := by
    refine ⟨inv.step_replayable h row' mem, ?_⟩
    rw [Progress.replay_append]
    rcases h.progress (fun row inRows => (inv.rows row inRows).1) mem with
      ⟨later, fresh, rfl⟩ | ⟨row, inRows, same, progress⟩
    · rw [fresh, inv.unheard _ later]
      rfl
    · rw [progress, (inv.rows row inRows).2, same]
  unheard jobID later := by
    have before := h.nextKey_le.trans later
    rw [Progress.replay_append, inv.unheard jobID before, inv.after_fresh h before]
  offered job mem := by
    rcases h.offers_cases mem with old | ⟨items, -, -, sameStore, found⟩
    · exact (inv.offered job old).trans_le h.nextKey_le
    · rw [sameStore]
      exact KeyedTable.lt_of_get? found
  inFlight flight mem := by
    refine lt_of_lt_of_le ?_ h.nextKey_le
    rcases h.flights_cases mem with ⟨earlier, old, same⟩ | ⟨job, same, rfl | rfl⟩
    · rw [← same]
      exact inv.inFlight earlier old
    · obtain ⟨-, row, found, -⟩ := h.locked_offer
      rw [← same]
      exact KeyedTable.lt_of_get? found
    · rw [← same]
      exact known job rfl

end Explained

/-- A manual execution is one of before, or of the row that its call has found. -/
theorem Manager.step_manual {s s' : QueueStore} {m m' : Manager} {action : Action} {event : Event}
    (h : m.step s action = some (s', m', event))
    : ∀ e ∈ m'.manual, (∃ earlier ∈ m.manual, earlier.job = e.job)
        ∨ s.jobs.get? e.job.id = some e.job := by
  have moved {i : Nat} {job : EnqueuedJob} {before after : Stage}
      (found : m.manual[i]? = some ⟨job, before⟩)
      : ∀ e ∈ m.manual.set i ⟨job, after⟩, (∃ earlier ∈ m.manual, earlier.job = e.job)
        ∨ s.jobs.get? e.job.id = some e.job := by
    intro e mem
    rcases List.mem_or_eq_of_mem_set mem with old | rfl
    · exact Or.inl ⟨e, old, rfl⟩
    · exact Or.inl ⟨_, List.mem_of_getElem? found, rfl⟩
  cases step_moves h with
  | crash | unlockRefused | unlockLost => exact fun _ mem => absurd mem List.not_mem_nil
  | @foundByID jobID _ job found =>
      have read : s.jobs.get? job.id = some job := by rw [KeyedTable.key_of_get? found, found]
      intro e mem
      rcases List.mem_append.mp mem with old | new
      · exact Or.inl ⟨e, old, rfl⟩
      · obtain rfl := List.mem_singleton.mp new
        exact Or.inr read
  | enteredManual found | refusedManual found | executedManual found | panickedManual found
  | sentManual found => exact moved found
  | _ => exact fun e mem => Or.inl ⟨e, mem, rfl⟩

theorem Manager.step_called {s s' : QueueStore} {m m' : Manager} {action : Action}
    {job : EnqueuedJob} (h : m.step s action = some (s', m', .manual job))
    : ∃ e ∈ m.manual, e.job = job := by
  cases step_moves h with
  | enteredManual found => exact ⟨_, List.mem_of_getElem? found, rfl⟩

/-- The jobs of the manual executions were inserted. -/
def System.ManualKnown (s : System) : Prop :=
  ∀ m ∈ s.managers, ∀ e ∈ m.manual, e.job.id < s.store.jobs.nextKey

theorem System.manual_step {s s' : System} {event : Event} (h : Acts System.step s event s')
    (known : s.ManualKnown)
    : s'.ManualKnown ∧ ∀ job, event = .manual job → job.id < s.store.jobs.nextKey := by
  have keys : s.store.jobs.nextKey ≤ s'.store.jobs.nextKey := (System.step_board h).nextKey_le
  obtain ⟨action, h⟩ := h
  cases action with
  | manager i action =>
      obtain ⟨acting, store, acted, found, taken, rfl⟩ := System.manager_step h
      have before := known acting (List.mem_of_getElem? found)
      refine ⟨fun m mem e inManual => lt_of_lt_of_le ?_ keys, fun job same => ?_⟩
      · rcases List.mem_or_eq_of_mem_set mem with old | rfl
        · exact known m old e inManual
        · rcases Manager.step_manual taken e inManual with ⟨earlier, mem, same⟩ | read
          · exact same ▸ before earlier mem
          · exact KeyedTable.lt_of_get? read
      · subst same
        obtain ⟨e, mem, rfl⟩ := Manager.step_called taken
        exact before e mem
  | newManager name handlers =>
      cases h
      refine ⟨fun m mem e inManual => ?_, fun _ same => by cases same⟩
      rcases List.mem_append.mp mem with old | new
      · exact known m old e inManual
      · rw [List.mem_singleton.mp new] at inManual
        exact absurd inManual List.not_mem_nil
  | _ =>
      cases h
      exact ⟨fun m mem e inManual => (known m mem e inManual).trans_le keys,
        fun _ same => by cases same⟩

theorem Explained.of_run {now : Int} {log : List Event} {s : System}
    (run : Runs (Acts System.step) (System.initial now) log s)
    : Explained log s.board := by
  have inv : s.ManualKnown ∧ Explained log s.board := by
    refine run.invariant (fun log s => s.ManualKnown ∧ Explained log s.board)
      ⟨fun m mem => absurd mem List.not_mem_nil, .initial now⟩ ?_
    intro log s event s' inv h
    obtain ⟨known, called⟩ := System.manual_step h inv.1
    exact ⟨known, inv.2.step (System.step_board h) called⟩
  exact inv.2

/-- In every run of any number of managers the log explains the table: the status, the attempts and
the last error of each row are what the events make of a new job.
-/
theorem row_of_log {now : Int} {log : List Event} {s : System}
    (run : Runs (Acts System.step) (System.initial now) log s)
    : ∀ row ∈ s.store.jobs.rows, Progress.ofRow row = .replay log row.id :=
  fun row mem => ((Explained.of_run run).rows row mem).2

/-- A job fails, is swept and succeeds when it is executed again. -/
theorem row_of_log_retried
    : ∃ s log, perform System.step (System.initial 0)
          (oneManager ++ begins 0 ++ polls 0 ++ takesJob 0 ++ returnsJob 0 (some "refused")
            ++ sweeps 0 ++ polls 0 ++ takesJob 0 ++ returnsJob 0 none) = some (s, log)
        ∧ (∀ row ∈ s.store.jobs.rows, Progress.ofRow row = .replay log row.id)
        ∧ Progress.replay log 1 = ⟨.succeeded, 1, some "refused"⟩ := by
  have performed :=
    show perform System.step (System.initial 0)
        (oneManager ++ begins 0 ++ polls 0 ++ takesJob 0 ++ returnsJob 0 (some "refused")
          ++ sweeps 0 ++ polls 0 ++ takesJob 0 ++ returnsJob 0 none)
      = some (_, _)
    from rfl
  exact ⟨_, _, performed, row_of_log (runs_of_perform performed), rfl⟩

end GoFire.QueueManager
