import GoFire.QueueManager.Lifecycle
import GoFire.QueueManager.Refinement
import GoFire.QueueManager.RowSteps

/-! Jobs are locked when they are scheduled. The fetch compares scheduled_at with the clock and
LockJob does not look at it again, so a retry sweep in between can move the schedule of a job
that a manager still holds.
-/

namespace GoFire.QueueManager

open GoFire.State GoFire.Store TransitionSystem

/-- A retry sweep retries no job that a manager has fetched and is about to try. -/
def UnofferedRetries (b : Board) : Event → Prop
  | .swept => ∀ job ∈ b.offers, ∀ row ∈ b.store.jobs.rows, row.id = job.id
      → QueueStore.isRetryable row = false
  | _ => True

instance (b : Board) : ∀ event, Decidable (UnofferedRetries b event)
  | .swept => inferInstanceAs (Decidable (∀ job ∈ b.offers, _))
  | .internal => isTrue trivial
  | .fetched _ => isTrue trivial
  | .locked _ => isTrue trivial
  | .lockLost _ => isTrue trivial
  | .started _ => isTrue trivial
  | .reported _ => isTrue trivial
  | .recorded _ => isTrue trivial
  | .unlocked => isTrue trivial
  | .manual _ => isTrue trivial

-----------------------------------------------------------------------------------------
-- The clock readings of the poll loops
-----------------------------------------------------------------------------------------

/-- The reading of the clock that a poll in progress compares schedules with. -/
def Poll.reading : Poll → Option Int
  | .counting now => some now
  | .selecting now _ => some now
  | _ => none

namespace Manager

variable {s s' : QueueStore} {m m' : Manager} {event : Event} {action : Action}

/-- A poll keeps its reading or takes a new one from the clock. -/
theorem step_reading (h : m.step s action = some (s', m', event)) {now : Int}
    (reading : m'.poll.reading = some now)
    : m.poll.reading = some now ∨ now = s.now := by
  cases step_moves h with
  | began => exact Or.inr (Option.some.inj reading).symm
  | counted counting =>
      rw [counting]
      exact Or.inl reading
  | start | unlocked | unlockRefused | unlockLost | ended | countFailed | fetched | selectFailed
  | locked | passedOver | lockLost | acquired | acquireFailed | batchEnded | woke | returned
  | crash => cases reading
  | _ => exact Or.inl reading

/-- What a poll returns was scheduled for its reading or before. -/
theorem step_fetched {items : List EnqueuedJob}
    (h : m.step s action = some (s', m', .fetched items))
    : ∃ now, m.poll.reading = some now ∧ ∀ job ∈ items, job.scheduledAt ≤ now := by
  cases step_moves h with
  | @fetched _ _ now _ _ selecting fetched =>
      refine ⟨now, by rw [selecting, Poll.reading], fun job mem => ?_⟩
      have due := (QueueStore.mem_fetchDueJobs fetched mem).2
      simp only [QueueStore.isDue, Bool.and_eq_true] at due
      simpa using due.1.1

end Manager

-----------------------------------------------------------------------------------------
-- The jobs that managers are about to try are due
-----------------------------------------------------------------------------------------

/-- No poll reads the future, and the rows of the offered jobs are due. -/
structure OffersScheduled (s : System) : Prop where
  readings : ∀ m ∈ s.managers, ∀ now, m.poll.reading = some now → now ≤ s.store.now
  known : ∀ job ∈ s.board.offers, job.id < s.store.jobs.nextKey
  due : ∀ job ∈ s.board.offers, ∀ row ∈ s.store.jobs.rows, row.id = job.id
    → row.scheduledAt ≤ s.store.now

namespace OffersScheduled

variable {s s' : System} {event : Event}

theorem readings_step (inv : OffersScheduled s) (h : Acts System.step s event s')
    : ∀ m ∈ s'.managers, ∀ now, m.poll.reading = some now → now ≤ s'.store.now := by
  have later : s.store.now ≤ s'.store.now := (System.step_board h).now_le
  obtain ⟨action, h⟩ := h
  intro m mem now reading
  cases action with
  | newManager name handlers =>
      cases h
      rcases List.mem_append.mp mem with old | new
      · exact inv.readings m old now reading
      · rw [List.mem_singleton.mp new] at reading
        cases reading
  | manager i action =>
      obtain ⟨acting, store, acted, found, taken, rfl⟩ := System.manager_step h
      refine le_trans ?_ later
      rcases List.mem_or_eq_of_mem_set mem with old | rfl
      · exact inv.readings m old now reading
      · rcases Manager.step_reading taken reading with kept | rfl
        · exact inv.readings acting (List.mem_of_getElem? found) now kept
        · exact le_rfl
  | _ =>
      cases h
      exact (inv.readings m mem now reading).trans later

/-- What a manager fetches is due. -/
theorem fetched_due (inv : OffersScheduled s) {items : List EnqueuedJob}
    (h : Acts System.step s (.fetched items) s')
    : ∀ job ∈ items, job.scheduledAt ≤ s.store.now := by
  obtain ⟨action, h⟩ := h
  cases action with
  | manager i action =>
      obtain ⟨acting, store, acted, found, taken, rfl⟩ := System.manager_step h
      obtain ⟨now, reading, due⟩ := Manager.step_fetched taken
      have past := inv.readings acting (List.mem_of_getElem? found) now reading
      exact fun job mem => (due job mem).trans past
  | _ => cases h

theorem step (inv : OffersScheduled s) (h : Acts System.step s event s')
    (unoffered : UnofferedRetries s.board event)
    : OffersScheduled s' := by
  have onBoard := System.step_board h
  refine ⟨inv.readings_step h, fun job mem => ?_, fun job mem row' mem' same => ?_⟩
  · rcases onBoard.offers_cases mem with old | ⟨items, -, -, sameStore, found⟩
    · exact (inv.known job old).trans_le onBoard.nextKey_le
    · change job.id < s'.board.store.jobs.nextKey
      rw [sameStore]
      exact KeyedTable.lt_of_get? found
  · rcases onBoard.offers_cases mem with old | ⟨items, rfl, inItems, sameStore, found⟩
    · obtain ⟨row, inRows, sameRow, rowStep⟩ := onBoard.old_row (inv.known job old) mem' same
      rcases rowStep.scheduledAt_cases with kept | ⟨rfl, retryable, -⟩
      · rw [kept]
        exact (inv.due job old row inRows sameRow).trans onBoard.now_le
      · rw [unoffered job old row inRows sameRow] at retryable
        cases retryable
    · change row' ∈ s'.board.store.jobs.rows at mem'
      rw [sameStore] at mem'
      obtain rfl := KeyedTable.eq_of_key mem' (KeyedTable.mem_of_get? found) same
      exact (inv.fetched_due h row' inItems).trans onBoard.now_le

theorem initial (now : Int) : OffersScheduled (System.initial now) :=
  ⟨fun _ mem => absurd mem List.not_mem_nil, fun _ mem => absurd mem (Multiset.notMem_zero _),
    fun _ mem => absurd mem (Multiset.notMem_zero _)⟩

end OffersScheduled

-----------------------------------------------------------------------------------------
-- The back-off of a retried job
-----------------------------------------------------------------------------------------

/-- From an instant on, the job is not scheduled before another one. -/
structure BackedOff (jobID : Nat) (since bound : Int) (b : Board) : Prop where
  later : since ≤ b.store.now
  known : jobID < b.store.jobs.nextKey
  scheduled : ∀ row ∈ b.store.jobs.rows, row.id = jobID → bound ≤ row.scheduledAt

theorem BackedOff.step {jobID : Nat} {since bound : Int} {b b' : Board} {event : Event}
    (inv : BackedOff jobID since bound b) (minutes : bound ≤ since + GoTime.minute)
    (h : Board.Step b event b')
    : BackedOff jobID since bound b' := by
  refine ⟨inv.later.trans h.now_le, inv.known.trans_le h.nextKey_le, fun row' mem' same => ?_⟩
  obtain ⟨row, inRows, sameRow, rowStep⟩ := h.old_row inv.known mem' same
  rcases rowStep.scheduledAt_cases with kept | ⟨-, -, moved⟩
  · rw [kept]
    exact inv.scheduled row inRows sameRow
  · rw [moved]
    exact minutes.trans (add_le_add_left inv.later GoTime.minute)

/-- A sweep backs off the jobs it retries. -/
theorem BackedOff.of_sweep {b b' : Board} (h : Board.Step b .swept b') {row : EnqueuedJob}
    (mem : row ∈ b.store.jobs.rows) (retryable : QueueStore.isRetryable row = true)
    : BackedOff row.id b.store.now (b.store.now + GoTime.minute) b' := by
  have known := b.store.jobs.below row mem
  refine ⟨h.now_le, known.trans_le h.nextKey_le, fun row' mem' same => ?_⟩
  cases h with
  | sweep =>
      obtain ⟨old, inRows, ⟨-, rfl⟩ | ⟨notRetryable, rfl⟩⟩ :=
        QueueStore.mem_markRetryFailedJobs mem'
      · exact le_rfl
      · rw [KeyedTable.eq_of_key inRows mem same, retryable] at notRetryable
        cases notRetryable

/-- In every run whose sweeps retry no offered job, a job that a manager locks is due, and a
minute has passed since every sweep that retried it.
-/
theorem locked_when_scheduled {now : Int} {log : List Event} {s s' : System}
    {job : EnqueuedJob}
    (run : Runs (Guarded (Acts System.step) (fun s => UnofferedRetries s.board))
      (System.initial now) log s)
    (last : Acts System.step s (.locked job) s')
    : (∃ row, s.store.jobs.get? job.id = some row ∧ row.scheduledAt ≤ s.store.now)
      ∧ ∀ t t' after, ∀ row ∈ t.store.jobs.rows, Acts System.step t .swept t'
        → Runs (Guarded (Acts System.step) (fun s => UnofferedRetries s.board)) t' after s
        → row.id = job.id → QueueStore.isRetryable row = true
        → t.store.now + GoTime.minute ≤ s.store.now := by
  have inv : OffersScheduled s := by
    refine run.invariant (fun _ s => OffersScheduled s) (.initial now) ?_
    intro log s event s' inv h
    exact inv.step h.1 h.2
  obtain ⟨offered, row, found, -⟩ := (System.step_board last).locked_offer
  have inRows := KeyedTable.mem_of_get? found
  have due := inv.due job offered row inRows (KeyedTable.key_of_get? found)
  refine ⟨⟨row, found, due⟩, fun t t' after old mem swept rest same retryable => ?_⟩
  have backedOff : BackedOff old.id t.store.now (t.store.now + GoTime.minute) s.board := by
    refine (System.guarded_board rest).invariant (fun _ b => BackedOff old.id _ _ b)
      (.of_sweep (System.step_board swept) mem retryable) ?_
    intro log b event b' inv h
    exact inv.step le_rfl h.1
  exact (backedOff.scheduled row inRows ((KeyedTable.key_of_get? found).trans same.symm)).trans due

-----------------------------------------------------------------------------------------
-- A job is retried while another manager holds it
-----------------------------------------------------------------------------------------

/-- The manager executes its job in vain and is about to sweep. -/
def failsJob (i : Nat) : List SystemAction :=
  takesJob i ++ returnsJob i (some "refused") ++ [.tick, .acquireRetryLock true].map (.manager i)

def sweepsTable (i : Nat) : SystemAction := .manager i (.markRetryFailedJobs .answered)

/-- A single manager retries its job a minute after the sweep. -/
theorem locked_when_scheduled_retry
    : ∃ t log t' s log' s' job row, perform System.step (System.initial 0)
          (oneManager ++ begins 0 ++ polls 0 ++ failsJob 0) = some (t, log)
        ∧ System.step t (sweepsTable 0) = some (t', .swept)
        ∧ perform System.step t' (.pass 60000000000 :: [.endBatch, .wake].map (.manager 0)
            ++ polls 0) = some (s, log')
        ∧ System.step s (.manager 0 (.lockJob .answered)) = some (s', .locked job)
        ∧ s.store.jobs.get? job.id = some row ∧ row.scheduledAt ≤ s.store.now
        ∧ t.store.now + GoTime.minute ≤ s.store.now := by
  have runs {t' s : System} {log log' : List Event}
      (first : perform (restrict System.step (fun s => UnofferedRetries s.board))
        (System.initial 0) (oneManager ++ begins 0 ++ polls 0 ++ failsJob 0 ++ [sweepsTable 0])
          = some (t', log))
      (second : perform (restrict System.step (fun s => UnofferedRetries s.board)) t'
        (.pass 60000000000 :: [.endBatch, .wake].map (.manager 0) ++ polls 0) = some (s, log'))
      : Runs (Guarded (Acts System.step) (fun s => UnofferedRetries s.board)) (System.initial 0)
          (log ++ log') s
        ∧ Runs (Guarded (Acts System.step) (fun s => UnofferedRetries s.board)) t' log' s :=
    ⟨(runs_of_perform_restrict first).append (runs_of_perform_restrict second),
      runs_of_perform_restrict second⟩
  obtain ⟨run, rest⟩ := runs rfl rfl
  obtain ⟨⟨row, found, due⟩, waited⟩ :=
    locked_when_scheduled run ⟨.manager 0 (.lockJob .answered), rfl⟩
  exact ⟨_, _, _, _, _, _, _, row, rfl, rfl, rfl, rfl, found, due,
    waited _ _ _ _ (.head _) ⟨sweepsTable 0, rfl⟩ rest rfl rfl⟩

/-- Two managers fetch the same job. One executes it, and the sweep schedules the retry for the
next minute; the other manager locks the job at once.
-/
theorem retried_job_locked_early
    : ∃ s log s' job row, perform System.step (System.initial 0)
          (twoManagers ++ begins 0 ++ begins 1 ++ polls 0 ++ polls 1 ++ failsJob 0
            ++ [sweepsTable 0]) = some (s, log)
        ∧ System.step s (.manager 1 (.lockJob .answered)) = some (s', .locked job)
        ∧ s.store.jobs.get? job.id = some row
        ∧ s.store.now = 0 ∧ row.scheduledAt = 60000000000 :=
  ⟨_, _, _, _, _, rfl, rfl, rfl, rfl, rfl⟩

end GoFire.QueueManager
