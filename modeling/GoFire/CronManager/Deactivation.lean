import GoFire.CronManager.RowSteps

/-! Deactivated jobs are not started. The WHERE clause of FetchDueCronJobs looks at the flag of
a row only together with its next run, and LockJob does not look at it at all.
-/

namespace GoFire.CronManager

open GoFire.State GoFire.Store GoFire.CronParser TransitionSystem

/-- When a manager polls, every row that it takes up for its status is active; a job is
deactivated when it exists and no manager holds it to be tried.
-/
def FlagRespected (b : Board) (event : Event) : Prop :=
  (event.isFetch = true → ∀ row ∈ b.store.jobs.rows,
      CronStore.isPending b.store.now row = true → row.isActive = true)
    ∧ ∀ jobID ∈ event.deactivation,
        jobID < b.store.jobs.nextKey ∧ ∀ job ∈ b.offers, job.id ≠ jobID

instance (b : Board) (event : Event) : Decidable (FlagRespected b event) :=
  inferInstanceAs (Decidable (_ ∧ _))

/-- The job has been given out, its row is inactive and no manager is about to try it. -/
structure Withdrawn (b : Board) (jobID : Nat) : Prop where
  known : jobID < b.store.jobs.nextKey
  inactive : ∀ row ∈ b.store.jobs.rows, row.id = jobID → row.isActive = false
  unoffered : ∀ job ∈ b.offers, job.id ≠ jobID

namespace Withdrawn

variable {b b' : Board} {event : Event} {jobID : Nat}

/-- A poll under the condition takes up no inactive row. -/
theorem not_fetched (inactive : ∀ row ∈ b.store.jobs.rows, row.id = jobID → row.isActive = false)
    (respected : FlagRespected b event) (polls : event.isFetch = true) {job : CronJob}
    (found : b.store.jobs.get? job.id = some job) (current : b.store.isFetched job = true)
    : job.id ≠ jobID := by
  intro same
  have inRows := KeyedTable.mem_of_get? found
  have withdrawn := inactive job inRows same
  rw [CronStore.isFetched, Bool.or_eq_true, Bool.and_eq_true] at current
  rcases current with ⟨active, -⟩ | pending
  · exact absurd (active.symm.trans withdrawn) (by simp)
  · have active := respected.1 polls job inRows pending
    exact absurd (active.symm.trans withdrawn) (by simp)

theorem kept (inv : Withdrawn b jobID) (h : Board.Step b event b')
    (respected : FlagRespected b event) (unactivated : ¬ event.Activates jobID)
    : Withdrawn b' jobID where
  known := inv.known.trans_le h.nextKey_le
  inactive row' mem same := by
    obtain ⟨row, inRows, rfl, step⟩ := h.old_row inv.known mem same
    by_contra active
    rcases step.active_cases (by simpa using active) with ⟨before, -⟩ | activated
    · exact absurd (before.symm.trans (inv.inactive row inRows rfl)) (by simp)
    · exact unactivated activated
  unoffered job mem := by
    rcases h.offers_cases mem with old | ⟨polls, -, found, current⟩
    · exact inv.unoffered job old
    · exact not_fetched inv.inactive respected polls found current

/-- A deactivation under the condition withdraws the job. -/
theorem of_deactivation (h : Board.Step b event b') (respected : FlagRespected b event)
    (deactivated : event.Deactivates jobID)
    : Withdrawn b' jobID := by
  obtain ⟨known, unoffered⟩ := respected.2 jobID deactivated
  refine ⟨known.trans_le h.nextKey_le, fun row' mem same => ?_, fun job mem => ?_⟩
  · obtain ⟨row, inRows, rfl, step⟩ := h.old_row known mem same
    by_contra active
    rcases step.active_cases (by simpa using active) with ⟨-, kept⟩ | activated
    · exact kept deactivated
    · cases event with
      | deactivated => simp at activated
      | _ => simp at deactivated
  · rcases h.offers_cases mem with old | ⟨polls, -⟩
    · exact unoffered job old
    · cases event with
      | fetched => simp at deactivated
      | _ => simp at polls

end Withdrawn

/-- In every run that respects the flag, a deactivated job is activated before any manager
starts it.
-/
theorem activated_before_start {arith : IntArith} {now : Int} {before between after : List Event}
    {jobID : Nat} {job : CronJob} {s : System}
    (run : Runs (Guarded (Acts (System.step arith)) (fun s => FlagRespected s.board))
      (System.initial now) (before ++ .deactivated jobID :: between ++ .locked job :: after) s)
    (sameJob : job.id = jobID)
    : ∃ e ∈ between, e.Activates jobID := by
  refine (System.guarded_board run).closed_between (Event.Deactivates jobID)
    (Event.Activates jobID) rfl ?_
  intro log b b' reached last opened
  have inv : Open (Event.Deactivates jobID) (Event.Activates jobID) log
      → Withdrawn b jobID := by
    refine reached.invariant (fun log b =>
      Open (Event.Deactivates jobID) (Event.Activates jobID) log → Withdrawn b jobID) ?_ ?_
    · exact fun opened => absurd opened (not_open_nil _ _)
    · intro log b event b' inv h opened
      rcases open_append.mp opened with deactivated | ⟨openBefore, unactivated⟩
      · exact .of_deactivation h.1 h.2 deactivated
      · exact (inv openBefore).kept h.1 h.2 unactivated
  obtain ⟨offered, -⟩ := last.1.locked_offer
  exact (inv opened).unoffered job offered sameJob

-----------------------------------------------------------------------------------------
-- A new job is deactivated in vain
-----------------------------------------------------------------------------------------

set_option maxRecDepth 2000 in
/-- A job that was executed once is deactivated, stays so for a minute and is activated and
started again.
-/
theorem activated_before_start_minutes
    : ∃ s before jobID between job, perform (System.step unbounded) (System.initial 0)
          (schedulesJob ++ passesMinute ++ polls 0 ++ [locksJob 0] ++ marksOutcome 0
            ++ updatesRunTimes 0 ++ [.deActivate 1 .answered] ++ passesMinute
            ++ [.activate 1 .answered] ++ polls 0 ++ [locksJob 0])
          = some (s, before ++ .deactivated jobID :: between ++ .locked job :: [])
        ∧ ∃ e ∈ between, e.Activates jobID := by
  have performed :=
    show perform (restrict (System.step unbounded) (fun s => FlagRespected s.board))
        (System.initial 0) (schedulesJob ++ passesMinute ++ polls 0 ++ [locksJob 0]
          ++ marksOutcome 0 ++ updatesRunTimes 0 ++ [.deActivate 1 .answered] ++ passesMinute
          ++ [.activate 1 .answered] ++ polls 0 ++ [locksJob 0])
      = some (_, [.internal, .internal, .internal, .internal, .scheduled 1 _, .internal,
          .internal, .internal, .fetched _, .locked _, .internal, .internal, .internal,
          .internal, .internal, .internal, .marked _, .updated 1 _, .internal, .internal]
        ++ .deactivated 1 :: [.internal, .activated 1, .internal, .internal, .fetched _]
        ++ .locked _ :: [])
    from rfl
  exact ⟨_, _, _, _, _, perform_of_restrict performed,
    activated_before_start (runs_of_perform_restrict performed) rfl⟩

set_option maxRecDepth 2000 in
/-- A job is deactivated as soon as it is scheduled. It is still queued, so the next poll of a
manager takes it up and starts it.
-/
theorem deactivated_job_started
    : ∃ s log s' job, perform (System.step unbounded) (System.initial 0)
          (schedulesJob ++ [.deActivate 1 .answered] ++ polls 0) = some (s, log)
        ∧ System.step unbounded s (locksJob 0) = some (s', .locked job)
        ∧ Open (Event.Deactivates job.id) (Event.Activates job.id) log
        ∧ job.isActive = false :=
  ⟨_, _, _, _, rfl, rfl, by decide, rfl⟩

end GoFire.CronManager
