import GoFire.CronManager.RowSteps

/-! One start for each next run. LockJob takes a succeeded or failed row without a look at its
next run, and the outcome of a job is written before its run times; between the two another
manager can start the occurrence again.
-/

namespace GoFire.CronManager

open GoFire.State GoFire.Store GoFire.CronParser TransitionSystem

/-- No job is started while a manager is between the outcome of the job and its run times, and
no row is lockable whose run times get lost.
-/
def RunTimesFirst (b : Board) (event : Event) : Prop :=
  (∀ jobID ∈ event.start, jobID ∉ b.updating)
    ∧ ∀ jobID ∈ event.abandoned, ∀ row ∈ b.store.jobs.rows, row.id = jobID
      → CronStore.isLockable row = false

instance (b : Board) (event : Event) : Decidable (RunTimesFirst b event) :=
  inferInstanceAs (Decidable (_ ∧ _))

/-- A job that was started and can be locked again, without a new next run since, is one whose
outcome a manager is about to complete with its run times.
-/
def RunTimesPending (log : List Event) (b : Board) : Prop :=
  ∀ row ∈ b.store.jobs.rows, Open (Event.Starts row.id) (Event.Renews row.id) log
    → CronStore.isLockable row = true → row.id ∈ b.updating

namespace RunTimesPending

variable {log : List Event} {b b' : Board} {event : Event}

theorem step (inv : RunTimesPending log b) (h : Board.Step b event b')
    (safe : RunTimesFirst b event)
    : RunTimesPending (log ++ [event]) b' := by
  intro row' mem opened lockable
  rcases h.row_cases mem with new | ⟨row, inRows, step⟩
  · rcases open_append.mp opened with started | ⟨-, unrenewed⟩
    · exact absurd started new.not_started
    · exact absurd new.scheduled unrenewed
  · rw [step.id_eq] at opened ⊢
    rcases step.lockable_cases lockable with ⟨before, notStarted⟩ | ⟨result, rfl, same⟩
    · rcases open_append.mp opened with started | ⟨openBefore, unrenewed⟩
      · exact absurd started notStarted
      · rcases h.updating_cases (inv row inRows openBefore before) with stays | renewed | lost
        · exact stays
        · exact absurd renewed unrenewed
        · have unlockable := safe.2 row.id lost row inRows rfl
          exact absurd (before.symm.trans unlockable) (by simp)
    · rw [same]
      exact h.marked_updating

/-- A job is not started before its next run is written anew. -/
theorem not_open (inv : RunTimesPending log b) {job : CronJob}
    (h : Board.Step b (.locked job) b') (safe : RunTimesFirst b (.locked job))
    : ¬ Open (Event.Starts job.id) (Event.Renews job.id) log := by
  obtain ⟨-, row, found, lockable⟩ := h.locked_offer
  have same : row.id = job.id := KeyedTable.key_of_get? found
  intro opened
  have pending := inv row (KeyedTable.mem_of_get? found) (same ▸ opened) lockable
  exact safe.1 job.id rfl (same ▸ pending)

end RunTimesPending

/-- In every run in which run times come first, the next run of a job is written between any
two starts of the job.
-/
theorem renewed_between_starts {arith : IntArith} {now : Int} {before between after : List Event}
    {first second : CronJob} {s : System}
    (run : Runs (Guarded (Acts (System.step arith)) (fun s => RunTimesFirst s.board))
      (System.initial now) (before ++ .locked first :: between ++ .locked second :: after) s)
    (sameJob : second.id = first.id)
    : ∃ e ∈ between, e.Renews first.id := by
  refine (System.guarded_board run).closed_between (Event.Starts first.id)
    (Event.Renews first.id) rfl ?_
  intro log b b' reached last
  have inv : RunTimesPending log b := by
    refine reached.invariant RunTimesPending ?_ ?_
    · exact fun row mem => absurd mem List.not_mem_nil
    · intro log b event b' inv h
      exact inv.step h.1 h.2
  rw [← sameJob]
  exact inv.not_open last.1 last.2

-----------------------------------------------------------------------------------------
-- A second manager locks the job between its outcome and its run times
-----------------------------------------------------------------------------------------

set_option maxRecDepth 2000 in
/-- A job that is started in two successive minutes. -/
theorem renewed_between_starts_minutes
    : ∃ s before first between second, perform (System.step unbounded) (System.initial 0)
          (schedulesJob ++ passesMinute ++ polls 0 ++ [locksJob 0] ++ marksOutcome 0
            ++ updatesRunTimes 0 ++ passesMinute ++ polls 0 ++ [locksJob 0])
          = some (s, before ++ .locked first :: between ++ .locked second :: [])
        ∧ ∃ e ∈ between, e.Renews first.id := by
  have performed :=
    show perform (restrict (System.step unbounded) (fun s => RunTimesFirst s.board))
        (System.initial 0) (schedulesJob ++ passesMinute ++ polls 0 ++ [locksJob 0]
          ++ marksOutcome 0 ++ updatesRunTimes 0 ++ passesMinute ++ polls 0 ++ [locksJob 0])
      = some (_, [.internal, .internal, .internal, .internal, .scheduled 1 _, .internal,
          .internal, .internal, .fetched _]
        ++ .locked _ :: [.internal, .internal, .internal, .internal, .internal, .internal,
          .marked _, .updated 1 _, .internal, .internal, .internal, .internal, .internal,
          .fetched _]
        ++ .locked _ :: [])
    from rfl
  exact ⟨_, _, _, _, _, perform_of_restrict performed,
    renewed_between_starts (runs_of_perform_restrict performed) rfl⟩

set_option maxRecDepth 2000 in
/-- Two managers fetch the due job. One executes it and writes the outcome; before it writes
the run times, the other locks the job for the same occurrence.
-/
theorem occurrence_started_twice
    : ∃ s log s' job, perform (System.step unbounded) (System.initial 0)
          (schedulesJob ++ passesMinute ++ polls 0 ++ polls 1 ++ [locksJob 0] ++ marksOutcome 0)
          = some (s, log)
        ∧ System.step unbounded s (locksJob 1) = some (s', .locked job)
        ∧ Open (Event.Starts job.id) (Event.Renews job.id) log
        ∧ (s.store.jobs.get? job.id).map CronJob.nextRunAt = some job.nextRunAt :=
  ⟨_, _, _, _, rfl, rfl, by decide, rfl⟩

end GoFire.CronManager
