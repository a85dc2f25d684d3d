import GoFire.CronManager.Board
import GoFire.CronManager.Reschedules
import GoFire.CronManager.ScheduleBook

/-! Names that are always scheduled under the same expression. Whatever the managers do, a row of
such a name never has a next run of anything else.
-/

namespace GoFire.CronManager

open GoFire.State GoFire.Store GoFire.CronParser TransitionSystem

-----------------------------------------------------------------------------------------
-- The rows that managers have fetched
-----------------------------------------------------------------------------------------

def Poll.jobs : Poll → List CronJob
  | .locking items _ _ => items
  | .acquiring job items _ _ => job :: items
  | _ => []

/-- The rows, as they were fetched, that a manager still works with. -/
def Manager.jobs (m : Manager) : List CronJob := m.poll.jobs ++ m.workers.map Execution.job

section Jobs

variable {arith : IntArith} {s s' : CronStore} {m m' : Manager} {event : Event} {action : Action}

theorem Manager.mem_jobs {job : CronJob}
    : job ∈ m.jobs ↔ job ∈ m.poll.jobs ∨ ∃ e ∈ m.workers, e.job = job := by
  rw [jobs, List.mem_append, List.mem_map]

/-- A step keeps the rows of a manager or drops some, except that a fetch reads new ones. -/
theorem Manager.jobs_step (h : m.step arith s action = some (s', m', event)) {job : CronJob}
    (mem : job ∈ m'.jobs)
    : job ∈ m.jobs ∨ s.jobs.get? job.id = some job := by
  have moved {i : Nat} {job' : CronJob} {before after : Stage}
      (found : m.workers[i]? = some ⟨job', before⟩)
      (mem : job ∈ jobs { m with workers := m.workers.set i ⟨job', after⟩ })
      : job ∈ m.jobs := by
    rw [mem_jobs] at mem ⊢
    rcases mem with polled | ⟨e, inWorkers, same⟩
    · exact Or.inl polled
    · rcases List.mem_or_eq_of_mem_set inWorkers with old | rfl
      · exact Or.inr ⟨e, old, same⟩
      · exact Or.inr ⟨_, List.mem_of_getElem? found, same⟩
  cases step_moves h with
  | fetched selecting fetched =>
      rcases mem_jobs.mp mem with new | old
      · exact Or.inr (fetchDueCronJobs_current fetched job new).1
      · exact Or.inl (mem_jobs.mpr (Or.inr old))
  | locked locking =>
      rw [mem_jobs, locking]
      exact Or.inl (mem_jobs.mp mem)
  | passedOver locking | lockLost locking =>
      rw [mem_jobs, locking]
      exact Or.inl ((mem_jobs.mp mem).imp (List.mem_cons_of_mem _) id)
  | acquireFailed acquiring =>
      rw [mem_jobs, acquiring]
      exact Or.inl ((mem_jobs.mp mem).imp (List.mem_cons_of_mem _) id)
  | @acquired job' items page more acquiring =>
      rw [mem_jobs, acquiring]
      rcases mem_jobs.mp mem with polled | ⟨e, inWorkers, same⟩
      · exact Or.inl (Or.inl (List.mem_cons_of_mem _ polled))
      · rcases List.mem_append.mp inWorkers with old | new
        · exact Or.inl (Or.inr ⟨e, old, same⟩)
        · rw [List.mem_singleton.mp new] at same
          exact Or.inl (Or.inl (same ▸ List.mem_cons_self))
  | entered found | refused found | executed found => exact Or.inl (moved found mem)
  | @sent i job' result found =>
      have kept : job ∈ jobs { m with workers := m.workers.set i ⟨job', .finished⟩ } := mem
      exact Or.inl (moved found kept)
  | finished =>
      rw [mem_jobs]
      refine Or.inl ((mem_jobs.mp mem).imp id fun h => ?_)
      obtain ⟨e, inWorkers, same⟩ := h
      exact ⟨e, List.mem_of_mem_eraseIdx inWorkers, same⟩
  | crash | panicked => exact absurd mem List.not_mem_nil
  | began | ended | counted | countFailed | selectFailed | woke | returned =>
      exact Or.inl (mem_jobs.mpr (Or.inr ((mem_jobs.mp mem).resolve_left List.not_mem_nil)))
  | @pageEnded page more =>
      refine Or.inl (mem_jobs.mpr (Or.inr ((mem_jobs.mp mem).resolve_left ?_)))
      cases more <;> exact List.not_mem_nil
  | start idle =>
      exact Or.inl (mem_jobs.mpr (Or.inr ((mem_jobs.mp mem).resolve_left List.not_mem_nil)))
  | _ => exact Or.inl mem

/-- An execution begins with a row that the manager has fetched. -/
theorem Manager.entering_mem {job : CronJob} (enters : job ∈ m.entering action)
    : job ∈ m.jobs := by
  cases action with
  | enter i =>
      simp only [entering, Option.mem_def, Option.bind_eq_some_iff] at enters
      obtain ⟨⟨job', stage⟩, found, entered⟩ := enters
      refine mem_jobs.mpr (Or.inr ⟨_, List.mem_of_getElem? found, ?_⟩)
      cases stage with
      | entered => exact Option.some.inj entered
      | _ => cases entered
  | _ => cases enters

end Jobs

-----------------------------------------------------------------------------------------
-- The expressions of the names
-----------------------------------------------------------------------------------------

/-- Every schedule has the expression of its name. -/
def Book.Fixed (exprOf : String → String) (book : Book) : Prop :=
  ∀ name, ∀ schedule ∈ book name, schedule.expression = exprOf name

variable {exprOf : String → String}

theorem Book.Fixed.obey {book : Book} (fixed : book.Fixed exprOf) {command : Command}
    (called : ∀ jobName expression payload key now,
      command = .addOrUpdate jobName expression payload key now → expression = exprOf jobName)
    : (book.obey command).Fixed exprOf := by
  intro name schedule mem
  cases command with
  | other => exact fixed name schedule mem
  | addOrUpdate jobName expression payload key now =>
      rw [obey_addOrUpdate] at mem
      split at mem
      case isFalse => exact fixed name schedule mem
      case isTrue same =>
        obtain rfl := Option.some.inj mem
        rw [same, ← called _ _ _ _ _ rfl]
        cases book jobName with
        | none => rfl
        | some old => rfl
  | changeActivate key isActive =>
      obtain ⟨old, found, rfl⟩ := Option.map_eq_some_iff.mp mem
      refine Eq.trans ?_ (fixed name old found)
      unfold Schedule.switched
      split <;> rfl

theorem has_of_row {s : CronStore} (distinct : s.jobs.Distinct CronJob.name) {row : CronJob}
    (mem : row ∈ s.jobs.rows)
    : (book s).Has row.name row.id := by
  rw [Book.Has, book, KeyedTable.lookup_of_mem distinct mem]
  rfl

theorem row_of_has {s : CronStore} (fixed : (book s).Fixed exprOf) {name : String} {key : Nat}
    (has : (book s).Has name key)
    : ∃ row ∈ s.jobs.rows, row.id = key ∧ row.expression = exprOf name := by
  obtain ⟨entry, found, keyed⟩ := Option.map_eq_some_iff.mp has
  have expression := fixed name entry found
  obtain ⟨row, looked, rfl⟩ := Option.map_eq_some_iff.mp found
  exact ⟨row, (KeyedTable.mem_of_lookup looked).1, keyed, expression⟩

theorem expression_of_row {s : CronStore} (fixed : (book s).Fixed exprOf)
    (distinct : s.jobs.Distinct CronJob.name) {row : CronJob} (mem : row ∈ s.jobs.rows)
    : row.expression = exprOf row.name := by
  refine fixed row.name (schedule row) ?_
  rw [book, KeyedTable.lookup_of_mem distinct mem]
  rfl

/-- A call of Schedule that took effect was made with its name and expression. -/
theorem SystemAction.scheduling_of_command {arith : IntArith} {s s' : System}
    {action : SystemAction} {event : Event} (h : s.step arith action = some (s', event))
    {jobName expression : String} {payload : Json} {key : Nat} {now : Int}
    (same : action.command s event = .addOrUpdate jobName expression payload key now)
    : action.scheduling = some (jobName, expression) := by
  cases action with
  | schedule loc readAt name expression' args delivery =>
      simp only [System.step, System.schedule] at h
      split at h
      case isFalse => cases h
      case isTrue =>
        cases delivery with
        | refused =>
            cases h
            cases same
        | answered | lost =>
            cases h
            cases same
            rfl
  | activate jobID delivery => cases delivery <;> cases same
  | deActivate jobID delivery => cases delivery <;> cases same
  | _ => cases same

-----------------------------------------------------------------------------------------
-- Runs
-----------------------------------------------------------------------------------------

/-- Every row, and every row that some manager has fetched, has the expression of its name. -/
structure System.Fixed (exprOf : String → String) (s : System) : Prop where
  book : (CronManager.book s.store).Fixed exprOf
  distinct : s.store.jobs.Distinct CronJob.name
  fetched : ∀ m ∈ s.managers, ∀ job ∈ m.jobs,
    (CronManager.book s.store).Has job.name job.id ∧ job.expression = exprOf job.name

namespace System.Fixed

variable {arith : IntArith} {s s' : System} {action : SystemAction}

/-- No call gives a job another expression, and every execution begins with that of its row. -/
theorem keepsExpressions (inv : s.Fixed exprOf)
    (called : ∀ call ∈ action.scheduling, call.2 = exprOf call.1)
    : s.KeepsExpressions action := by
  refine ⟨fun call mem row inRows same other => ?_, fun job enters => ?_⟩
  · rw [called call mem, ← same] at other
    exact absurd (expression_of_row inv.book inv.distinct inRows) other
  · cases action with
    | manager i action =>
        obtain ⟨m, found, begins⟩ := Option.bind_eq_some_iff.mp enters
        obtain ⟨has, expression⟩ :=
          inv.fetched m (List.mem_of_getElem? found) job (Manager.entering_mem begins)
        obtain ⟨row, inRows, keyed, same⟩ := row_of_has inv.book has
        exact ⟨row, inRows, keyed, same.trans expression.symm⟩
    | _ => cases enters

theorem step (inv : s.Fixed exprOf) (h : Acts (utcStep arith) s action s')
    (called : ∀ call ∈ action.scheduling, call.2 = exprOf call.1)
    : s'.Fixed exprOf := by
  obtain ⟨asked, h⟩ := h
  simp only [utcStep, Option.map_eq_some_iff, Prod.mk.injEq] at h
  obtain ⟨⟨next, event⟩, h, rfl, rfl⟩ := h
  have obeys : Obeys s.store (asked.inUtc.command s event) next.store :=
    obeys_step ⟨asked.inUtc, by rw [obey, h, Option.map_some]⟩
  have still {job : CronJob} (has : (CronManager.book s.store).Has job.name job.id)
      : (CronManager.book next.store).Has job.name job.id := by
    rw [obeys.book]
    exact has.obey _
  have kept : ∀ m ∈ s.managers, ∀ job ∈ m.jobs,
      (CronManager.book next.store).Has job.name job.id ∧ job.expression = exprOf job.name :=
    fun m mem job held => (inv.fetched m mem job held).imp still id
  refine ⟨?_, obeys.distinct inv.distinct, ?_⟩
  · rw [obeys.book]
    refine inv.book.obey fun jobName expression payload key now same => ?_
    exact called _ (SystemAction.scheduling_of_command h same)
  · cases asked with
    | manager i action =>
        obtain ⟨m, store, m', found, taken, rfl⟩ := System.manager_step h
        intro holder isManager job held
        rcases List.mem_or_eq_of_mem_set isManager with old | rfl
        · exact kept holder old job held
        · rcases Manager.jobs_step taken held with before | read
          · exact kept m (List.mem_of_getElem? found) job before
          · have inRows := KeyedTable.mem_of_get? read
            exact ⟨still (has_of_row inv.distinct inRows),
              expression_of_row inv.book inv.distinct inRows⟩
    | newManager name handlers loc =>
        cases h
        intro holder isManager job held
        rcases List.mem_append.mp isManager with old | new
        · exact kept holder old job held
        · rw [List.mem_singleton.mp new] at held
          exact absurd held List.not_mem_nil
    | pass duration =>
        cases h
        exact kept
    | activate jobID delivery | deActivate jobID delivery =>
        cases delivery <;>
        · cases h
          exact kept
    | schedule loc readAt jobName expression args delivery =>
        simp only [System.step, SystemAction.inUtc, System.schedule] at h
        split at h
        case isFalse => cases h
        case isTrue =>
          cases delivery <;>
          · cases h
            exact kept

end System.Fixed

/-- In every run with all clocks in UTC in which each name is always scheduled under one expression,
every row has a next run of the expression of its name, whatever the managers do in between.
-/
theorem next_run_of_fixed_expression {arith : IntArith} {now : Int} {log : List SystemAction}
    {s : System} (exprOf : String → String)
    (run : Runs (Acts (System.utcStep arith)) (System.initial now) log s)
    (fixed : ∀ action ∈ log, ∀ call ∈ action.scheduling, call.2 = exprOf call.1)
    : ∀ row ∈ s.store.jobs.rows, row.expression = exprOf row.name
        ∧ ∃ x, row.nextRunAt
          = some (calculateNextRun arith (exprOf row.name) ⟨x, GoTime.utc⟩).ns := by
  have inv : s.Fixed exprOf ∧ System.CurrentInUtc arith s := by
    refine run.invariant (fun log s =>
      (∀ action ∈ log, ∀ call ∈ action.scheduling, call.2 = exprOf call.1)
        → s.Fixed exprOf ∧ System.CurrentInUtc arith s) (fun _ => ⟨?_, ?_⟩) ?_ fixed
    · exact ⟨fun _ _ mem => (by cases mem), List.nodup_nil, fun _ mem => absurd mem List.not_mem_nil⟩
    · exact ⟨⟨fun _ mem => absurd mem List.not_mem_nil, fun _ mem => absurd mem List.not_mem_nil,
        fun _ mem => absurd mem List.not_mem_nil⟩, fun _ mem => absurd mem List.not_mem_nil⟩
    · intro log s action s' inv h fixed
      have called := fixed action (List.mem_append_right _ (List.mem_singleton.mpr rfl))
      obtain ⟨before, current⟩ := inv fun action mem => fixed action (List.mem_append_left _ mem)
      exact ⟨before.step h called, current.step h (before.keepsExpressions called)⟩
  intro row mem
  have expression := expression_of_row inv.1.book inv.1.distinct mem
  obtain ⟨nextRun, isNext, x, computed⟩ := inv.2.current.rows row mem
  rw [expression] at computed
  exact ⟨expression, x, computed ▸ isNext⟩

set_option maxRecDepth 2000 in
/-- The job is scheduled again, under the same expression, while it runs. -/
theorem next_run_of_fixed_expression_again
    : ∃ s log, perform (System.utcStep unbounded) (System.initial 0)
          (schedulesJob ++ polls 0 ++ [locksJob 0] ++ entersJob 0
            ++ [.schedule GoTime.utc 0 "mail" "* * * * *" none .answered] ++ returnsJob 0)
          = some (s, log)
        ∧ ∀ row ∈ s.store.jobs.rows, row.expression = "* * * * *"
          ∧ ∃ x, row.nextRunAt
            = some (calculateNextRun unbounded "* * * * *" ⟨x, GoTime.utc⟩).ns := by
  have performed :=
    show perform (System.utcStep unbounded) (System.initial 0)
        (schedulesJob ++ polls 0 ++ [locksJob 0] ++ entersJob 0
          ++ [.schedule GoTime.utc 0 "mail" "* * * * *" none .answered] ++ returnsJob 0)
      = some (_, _)
    from rfl
  refine ⟨_, _, performed, ?_⟩
  exact next_run_of_fixed_expression (fun _ => "* * * * *") (runs_of_perform performed)
    (by decide)

end GoFire.CronManager
