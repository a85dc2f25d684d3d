import GoFire.CronManager.RowSteps

/-! Jobs are started when they are due. The WHERE clause of FetchDueCronJobs takes up queued,
retrying and long processing rows whatever their next run is, and LockJob does not look at the
next run again.
-/

namespace GoFire.CronManager

open GoFire.State GoFire.Store GoFire.CronParser TransitionSystem

/-- When a manager polls, every row that it takes up for its status is due; the next run of a
job moves into the future only while no manager holds the job to be tried.
-/
def TimelyOffers (b : Board) (event : Event) : Prop :=
  (event.isFetch = true → ∀ row ∈ b.store.jobs.rows,
      CronStore.isPending b.store.now row = true → CronStore.isDueAt b.store.now row = true)
    ∧ ∀ renewal ∈ event.renewal, b.store.now < renewal.2 → ∀ job ∈ b.offers, job.id ≠ renewal.1

instance (b : Board) (event : Event) : Decidable (TimelyOffers b event) :=
  inferInstanceAs (Decidable (_ ∧ _))

/-- The rows of the jobs that managers are about to try are due. -/
def OffersDue (b : Board) : Prop :=
  ∀ job ∈ b.offers, job.id < b.store.jobs.nextKey
    ∧ ∀ row ∈ b.store.jobs.rows, row.id = job.id → CronStore.isDueAt b.store.now row = true

namespace OffersDue

variable {b b' : Board} {event : Event}

/-- What is fetched under the condition is due. -/
theorem fetched {job : CronJob} (timely : TimelyOffers b event) (polls : event.isFetch = true)
    (found : b.store.jobs.get? job.id = some job) (current : b.store.isFetched job = true)
    : CronStore.isDueAt b.store.now job = true := by
  rw [CronStore.isFetched, Bool.or_eq_true, Bool.and_eq_true] at current
  rcases current with ⟨-, due⟩ | pending
  · exact due
  · exact timely.1 polls job (KeyedTable.mem_of_get? found) pending

theorem step (inv : OffersDue b) (h : Board.Step b event b') (timely : TimelyOffers b event)
    : OffersDue b' := by
  intro job mem
  rcases h.offers_cases mem with old | ⟨polls, sameStore, found, current⟩
  · obtain ⟨known, due⟩ := inv job old
    refine ⟨known.trans_le h.nextKey_le, fun row' mem' same => ?_⟩
    obtain ⟨row, inRows, sameRow, step⟩ := h.old_row known mem' same
    rcases step.nextRunAt_cases with kept | ⟨nextRunAt, renewed, written⟩
    · exact CronStore.isDueAt_later (due row inRows sameRow) h.now_le kept
    · rw [CronStore.isDueAt_iff, written]
      intro _ h
      obtain ⟨⟩ := h
      by_contra future
      have later : b.store.now < nextRunAt := h.now_le.trans_lt (lt_of_not_ge future)
      exact timely.2 _ renewed later job old sameRow.symm
  · rw [sameStore]
    refine ⟨KeyedTable.lt_of_get? found, fun row inRows same => ?_⟩
    obtain rfl := KeyedTable.eq_of_key inRows (KeyedTable.mem_of_get? found) same
    exact fetched timely polls found current

end OffersDue

/-- In every run with timely offers, whenever a manager starts a job, the next run of the job is
NULL or not later than now.
-/
theorem started_when_due {arith : IntArith} {now : Int} {log : List Event} {s s' : System}
    {job : CronJob}
    (run : Runs (Guarded (Acts (System.step arith)) (fun s => TimelyOffers s.board))
      (System.initial now) log s)
    (last : Acts (System.step arith) s (.locked job) s')
    : ∃ row, s.store.jobs.get? job.id = some row
        ∧ ∀ nextRunAt ∈ row.nextRunAt, nextRunAt ≤ s.store.now := by
  have inv : OffersDue s.board := by
    refine (System.guarded_board run).invariant (fun _ b => OffersDue b) ?_ ?_
    · exact fun job mem => absurd mem (Multiset.notMem_zero job)
    · intro log b event b' inv h
      exact inv.step h.1 h.2
  obtain ⟨offered, row, found, -⟩ := (System.step_board last).locked_offer
  have due := (inv job offered).2 row (KeyedTable.mem_of_get? found) (KeyedTable.key_of_get? found)
  exact ⟨row, found, CronStore.isDueAt_iff.mp due⟩

-----------------------------------------------------------------------------------------
-- A new job is started at once
-----------------------------------------------------------------------------------------

set_option maxRecDepth 2000 in
/-- A job that is started a second time, when its second minute has come. -/
theorem started_when_due_second
    : ∃ s log s' job row, perform (System.step unbounded) (System.initial 0)
          (schedulesJob ++ passesMinute ++ polls 0 ++ [locksJob 0] ++ marksOutcome 0
            ++ updatesRunTimes 0 ++ passesMinute ++ polls 0) = some (s, log)
        ∧ System.step unbounded s (locksJob 0) = some (s', .locked job)
        ∧ s.store.jobs.get? job.id = some row
        ∧ ∀ nextRunAt ∈ row.nextRunAt, nextRunAt ≤ s.store.now := by
  have performed :=
    show perform (restrict (System.step unbounded) (fun s => TimelyOffers s.board))
        (System.initial 0) (schedulesJob ++ passesMinute ++ polls 0 ++ [locksJob 0]
          ++ marksOutcome 0 ++ updatesRunTimes 0 ++ passesMinute ++ polls 0)
      = some (_, _)
    from rfl
  obtain ⟨row, found, due⟩ :=
    started_when_due (runs_of_perform_restrict performed) ⟨locksJob 0, rfl⟩
  exact ⟨_, _, _, _, row, perform_of_restrict performed, rfl, found, due⟩

set_option maxRecDepth 2000 in
/-- A job is scheduled for the end of the first minute; the poll of a manager takes it up
because it is queued, and starts it at once.
-/
theorem new_job_started_early
    : ∃ s log s' job row, perform (System.step unbounded) (System.initial 0)
          (schedulesJob ++ polls 0) = some (s, log)
        ∧ System.step unbounded s (locksJob 0) = some (s', .locked job)
        ∧ s.store.jobs.get? job.id = some row ∧ row.nextRunAt = some 60000000000
        ∧ s.store.now = 0 :=
  ⟨_, _, _, _, _, rfl, rfl, rfl, rfl, rfl⟩

end GoFire.CronManager
