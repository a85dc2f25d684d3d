import GoFire.CronManager.Lifecycle
import GoFire.CronManager.RowSteps
import GoFire.CronParser.NextRunCorrectness

/-! The next run of a row against its expression. The result processor writes a next run that was
computed from the row as it was fetched, before the handler ran.
-/

namespace GoFire.CronManager

open GoFire.State GoFire.Store GoFire.CronParser TransitionSystem

-----------------------------------------------------------------------------------------
-- The next runs that managers have computed and not yet written
-----------------------------------------------------------------------------------------

/-- The job of a result, and the next run it carries. -/
def resultRun (result : JobResult) : Nat × Int := (result.jobID, result.nextRun)

def Execution.run : Execution → Option (Nat × Int)
  | ⟨job, .executing _ _ nextRun⟩ => some (job.id, nextRun)
  | ⟨_, .sending result⟩ => some (resultRun result)
  | _ => none

def Processor.run : Processor → Option (Nat × Int)
  | .marking result => some (resultRun result)
  | .updating result => some (resultRun result)
  | _ => none

/-- The row, as it was fetched, of a job whose execution is about to begin. -/
def Execution.entering : Execution → Option CronJob
  | ⟨job, .entered⟩ => some job
  | _ => none

namespace Manager

def runs (m : Manager) : List (Nat × Int) :=
  m.workers.filterMap Execution.run ++ m.jobResults.map resultRun ++ m.processor.run.toList

def entering (m : Manager) : Action → Option CronJob
  | .enter i => m.workers[i]?.bind Execution.entering
  | _ => none

variable {arith : IntArith} {s s' : CronStore} {m m' : Manager} {event : Event} {action : Action}

theorem mem_runs {run : Nat × Int}
    : run ∈ m.runs ↔ (∃ e ∈ m.workers, e.run = some run)
        ∨ (∃ result ∈ m.jobResults, resultRun result = run) ∨ m.processor.run = some run := by
  simp only [runs, List.mem_append, List.mem_filterMap, List.mem_map, Option.mem_toList, or_assoc]

/-- A job goroutine that moves on holds the run of its old or of its new stage. -/
theorem runs_of_worker {i : Nat} {e : Execution} {run : Nat × Int}
    (mem : run ∈ runs { m with workers := m.workers.set i e })
    : run ∈ m.runs ∨ e.run = some run := by
  simp only [mem_runs] at mem ⊢
  rcases mem with ⟨other, inWorkers, same⟩ | rest
  · rcases List.mem_or_eq_of_mem_set inWorkers with old | rfl
    · exact Or.inl (Or.inl ⟨other, old, same⟩)
    · exact Or.inr same
  · exact Or.inl (Or.inr rest)

/-- A job goroutine that begins an execution holds at most the run it computes. -/
theorem runs_of_entered {i : Nat} {job : CronJob} {stage : Stage} {run : Nat × Int}
    (found : m.workers[i]? = some ⟨job, .entered⟩)
    (held : Execution.run ⟨job, stage⟩ = some (job.id, m.nextRun arith s job))
    (mem : run ∈ runs { m with workers := m.workers.set i ⟨job, stage⟩ })
    : run ∈ m.runs ∨ ∃ job ∈ m.entering (.enter i),
        run = (job.id, (calculateNextRun arith job.expression ⟨s.now, m.loc⟩).ns) := by
  rcases runs_of_worker mem with old | new
  · exact Or.inl old
  · refine Or.inr ⟨job, ?_, (Option.some.inj (held.symm.trans new)).symm⟩
    simp only [entering, found, Option.bind_some, Execution.entering, Option.mem_def]

/-- A new run comes from the beginning of an execution only, computed from the fetched row. -/
theorem runs_step (h : m.step arith s action = some (s', m', event)) {run : Nat × Int}
    (mem : run ∈ m'.runs)
    : run ∈ m.runs ∨ ∃ job ∈ m.entering action,
        run = (job.id, (calculateNextRun arith job.expression ⟨s.now, m.loc⟩).ns) := by
  cases step_moves h with
  | acquired =>
      simp only [mem_runs, List.mem_append, List.mem_singleton] at mem ⊢
      rcases mem with ⟨e, old | rfl, same⟩ | rest
      · exact Or.inl (Or.inl ⟨e, old, same⟩)
      · cases same
      · exact Or.inl (Or.inr rest)
  | entered found => exact runs_of_entered found rfl mem
  | refused found => exact runs_of_entered found rfl mem
  | executed found =>
      rcases runs_of_worker mem with old | new
      · exact Or.inl old
      · exact Or.inl (mem_runs.mpr (Or.inl ⟨_, List.mem_of_getElem? found, new⟩))
  | sent found =>
      simp only [mem_runs, List.mem_append, List.mem_singleton] at mem ⊢
      rcases mem with ⟨e, inWorkers, same⟩ | ⟨result, old | rfl, same⟩ | rest
      · rcases List.mem_or_eq_of_mem_set inWorkers with old | rfl
        · exact Or.inl (Or.inl ⟨e, old, same⟩)
        · cases same
      · exact Or.inl (Or.inr (Or.inl ⟨result, old, same⟩))
      · exact Or.inl (Or.inl ⟨_, List.mem_of_getElem? found, congrArg some same⟩)
      · exact Or.inl (Or.inr (Or.inr rest))
  | finished =>
      simp only [mem_runs] at mem ⊢
      rcases mem with ⟨e, inWorkers, same⟩ | rest
      · exact Or.inl (Or.inl ⟨e, List.mem_of_mem_eraseIdx inWorkers, same⟩)
      · exact Or.inl (Or.inr rest)
  | @received result rest _ buffered =>
      simp only [mem_runs, buffered, List.mem_cons] at mem ⊢
      rcases mem with worker | ⟨later, inRest, same⟩ | same
      · exact Or.inl (Or.inl worker)
      · exact Or.inl (Or.inr (Or.inl ⟨later, Or.inr inRest, same⟩))
      · exact Or.inl (Or.inr (Or.inl ⟨result, Or.inl rfl, Option.some.inj same⟩))
  | unmarked marking =>
      simp only [mem_runs, marking] at mem ⊢
      exact Or.inl mem
  | marked marking =>
      simp only [mem_runs, marking] at mem ⊢
      exact Or.inl mem
  | updateRefused =>
      simp only [mem_runs, Processor.run, reduceCtorEq, or_false] at mem ⊢
      exact Or.inl (mem.imp id Or.inl)
  | updated =>
      simp only [mem_runs, Processor.run, reduceCtorEq, or_false] at mem ⊢
      exact Or.inl (mem.imp id Or.inl)
  | panicked => exact absurd mem List.not_mem_nil
  | crash => exact absurd mem List.not_mem_nil
  | _ => exact Or.inl mem

end Manager

-----------------------------------------------------------------------------------------
-- What is written to the table
-----------------------------------------------------------------------------------------

/-- No statement changed an expression, and a next run that changed is one of those held. -/
structure Writes (held : List (Nat × Int)) (s s' : CronStore) : Prop where
  sameKey : s'.jobs.nextKey = s.jobs.nextKey
  old : ∀ row' ∈ s'.jobs.rows, ∃ row ∈ s.jobs.rows,
    row'.id = row.id ∧ row'.expression = row.expression
      ∧ (row'.nextRunAt = row.nextRunAt ∨ ∃ nextRun, (row.id, nextRun) ∈ held
        ∧ row'.nextRunAt = some nextRun)

namespace Writes

variable {held : List (Nat × Int)} {s s' : CronStore}

theorem refl (held : List (Nat × Int)) (s : CronStore) : Writes held s s :=
  ⟨rfl, fun row mem => ⟨row, mem, rfl, rfl, Or.inl rfl⟩⟩

theorem of_lockJob (held : List (Nat × Int)) (s : CronStore) (jobID : Nat) (lockedBy : String)
    : Writes held s (s.lockJob jobID lockedBy).1 := by
  refine ⟨rfl, fun row' mem => ?_⟩
  obtain ⟨row, inRows, ⟨-, -, rfl⟩ | ⟨rfl, -⟩⟩ := CronStore.mem_lockJob mem
  · exact ⟨row, inRows, rfl, rfl, Or.inl rfl⟩
  · exact ⟨row', inRows, rfl, rfl, Or.inl rfl⟩

theorem of_markOutcome (held : List (Nat × Int)) (s : CronStore) (result : JobResult)
    : Writes held s (markOutcome s result) := by
  refine ⟨markOutcome_nextKey s result, fun row' mem => ?_⟩
  obtain ⟨row, inRows, ⟨-, marked⟩ | rfl⟩ := mem_markOutcome mem
  · refine ⟨row, inRows, ?_⟩
    cases marked with
    | _ => exact ⟨rfl, rfl, Or.inl rfl⟩
  · exact ⟨row', inRows, rfl, rfl, Or.inl rfl⟩

theorem of_updateJobRunTimes {jobID : Nat} {nextRun : Int} (mem : (jobID, nextRun) ∈ held)
    (s : CronStore) (lastRunAt : Int)
    : Writes held s (s.updateJobRunTimes jobID lastRunAt nextRun) := by
  refine ⟨rfl, fun row' mem' => ?_⟩
  obtain ⟨row, inRows, ⟨rfl, rfl⟩ | ⟨-, rfl⟩⟩ := KeyedTable.mem_update_key (by intro; rfl) mem'
  · exact ⟨row, inRows, rfl, rfl, Or.inr ⟨nextRun, mem, rfl⟩⟩
  · exact ⟨row', inRows, rfl, rfl, Or.inl rfl⟩

theorem of_changeActivate (held : List (Nat × Int)) (s : CronStore) (jobID : Nat)
    (isActive : Bool)
    : Writes held s (s.changeActivate jobID isActive) := by
  refine ⟨rfl, fun row' mem => ?_⟩
  obtain ⟨row, inRows, ⟨-, rfl⟩ | ⟨-, rfl⟩⟩ := KeyedTable.mem_update_key (by intro; rfl) mem
  · exact ⟨row, inRows, rfl, rfl, Or.inl rfl⟩
  · exact ⟨row', inRows, rfl, rfl, Or.inl rfl⟩

end Writes

/-- The statements of a manager write at most the next runs it holds. -/
theorem Manager.writes_step {arith : IntArith} {s s' : CronStore} {m m' : Manager}
    {event : Event} {action : Action} (h : m.step arith s action = some (s', m', event))
    : Writes m.runs s s' := by
  cases step_moves h with
  | locked => exact .of_lockJob _ _ _ _
  | lockLost => exact .of_lockJob _ _ _ _
  | marked => exact .of_markOutcome _ _ _
  | @updated _ result updating =>
      have held : (result.jobID, result.nextRun) ∈ m.runs :=
        mem_runs.mpr (Or.inr (Or.inr (congrArg Processor.run updating)))
      exact .of_updateJobRunTimes held _ _
  | _ => exact .refl _ _

-----------------------------------------------------------------------------------------
-- The expression of a row while a next run of it is held
-----------------------------------------------------------------------------------------

/-- The time is a next run of the expression in UTC, from some instant on. -/
def IsNextRun (arith : IntArith) (expression : String) (nextRun : Int) : Prop :=
  ∃ x, nextRun = (calculateNextRun arith expression ⟨x, GoTime.utc⟩).ns

/-- The next runs of the rows, and those that are held for a row, belong to the expression of the
row.
-/
structure Current (arith : IntArith) (s : CronStore) (held : List (Nat × Int)) : Prop where
  rows : ∀ row ∈ s.jobs.rows, ∃ nextRun ∈ row.nextRunAt, IsNextRun arith row.expression nextRun
  known : ∀ run ∈ held, run.1 < s.jobs.nextKey
  held : ∀ run ∈ held, ∀ row ∈ s.jobs.rows, row.id = run.1
    → IsNextRun arith row.expression run.2

namespace Current

variable {arith : IntArith} {s s' : CronStore} {held held' : List (Nat × Int)}

theorem writes (inv : Current arith s held) (writes : Writes held s s')
    : Current arith s' held := by
  refine ⟨fun row' mem => ?_, fun run mem => ?_, fun run mem row' mem' same => ?_⟩
  · obtain ⟨row, inRows, -, expression, kept | ⟨nextRun, isHeld, written⟩⟩ := writes.old row' mem
    · rw [kept, expression]
      exact inv.rows row inRows
    · rw [written, expression]
      exact ⟨nextRun, rfl, inv.held _ isHeld row inRows rfl⟩
  · rw [writes.sameKey]
    exact inv.known run mem
  · obtain ⟨row, inRows, sameID, expression, -⟩ := writes.old row' mem'
    rw [expression]
    exact inv.held run mem row inRows (sameID.symm.trans same)

/-- A next run may be held that belongs to the expression of its row. -/
theorem extend (inv : Current arith s held)
    (each : ∀ run ∈ held', run ∈ held
      ∨ ∃ row ∈ s.jobs.rows, row.id = run.1 ∧ IsNextRun arith row.expression run.2)
    : Current arith s held' := by
  refine ⟨inv.rows, fun run mem => ?_, fun run mem row inRows same => ?_⟩
  · rcases each run mem with old | ⟨row, inRows, same, -⟩
    · exact inv.known run old
    · exact same ▸ s.jobs.below row inRows
  · rcases each run mem with old | ⟨own, inRows', same', computed⟩
    · exact inv.held run old row inRows same
    · rw [KeyedTable.eq_of_key inRows inRows' (same.trans same'.symm)]
      exact computed

/-- A job is re-scheduled with the same expression, or while no next run is held for it. -/
theorem addOrUpdate (inv : Current arith s held) {jobName expression : String}
    {scheduledAt : Int} (args : Args) (computed : IsNextRun arith expression scheduledAt)
    (quiet : ∀ row ∈ s.jobs.rows, row.name = jobName → row.expression ≠ expression
      → ∀ run ∈ held, run.1 ≠ row.id)
    : Current arith (s.addOrUpdate jobName scheduledAt expression args).1 held := by
  refine ⟨fun row' mem => ?_, fun run mem => ?_, fun run mem row' mem' same => ?_⟩
  · rcases CronStore.addOrUpdate_writes mem with old | ⟨nextRunAt, sameExpression, -⟩
    · exact inv.rows row' old
    · rw [nextRunAt, sameExpression]
      exact ⟨scheduledAt, rfl, computed⟩
  · exact (inv.known run mem).trans_le (CronStore.nextKey_le_addOrUpdate _ _ _ _ _)
  · rcases CronStore.addOrUpdate_writes mem' with old | ⟨-, rfl, fresh | ⟨row, inRows, name, id⟩⟩
    · exact inv.held run mem row' old same
    · exact absurd (inv.known run mem) (by rw [← same, fresh]; exact lt_irrefl _)
    · by_cases unchanged : row.expression = row'.expression
      · rw [← unchanged]
        exact inv.held run mem row inRows (id.trans same)
      · exact absurd (same.symm.trans id.symm) (quiet row inRows name unchanged run mem)

end Current

-----------------------------------------------------------------------------------------
-- Systems whose clocks are all in UTC
-----------------------------------------------------------------------------------------

def SystemAction.inUtc : SystemAction → SystemAction
  | .schedule _ readAt jobName expression args delivery =>
      .schedule GoTime.utc readAt jobName expression args delivery
  | .newManager name handlers _ => .newManager name handlers GoTime.utc
  | action => action

/-- The name and the expression of a Schedule call whose statement is executed. -/
def SystemAction.scheduling : SystemAction → Option (String × String)
  | .schedule _ _ jobName expression _ delivery =>
      if delivery = .refused then none else some (jobName, expression)
  | _ => none

/-- The row, as it was fetched, of the job whose execution begins. -/
def SystemAction.entering (s : System) : SystemAction → Option CronJob
  | .manager i action => s.managers[i]?.bind (·.entering action)
  | _ => none

namespace System

/-- A step with all clocks in UTC, observed as the action itself. -/
def utcStep (arith : IntArith) (s : System) (action : SystemAction)
    : Option (System × SystemAction) :=
  (s.step arith action.inUtc).map fun next => (next.1, action.inUtc)

/-- The next runs that the managers have computed and not yet written. -/
def runs (s : System) : List (Nat × Int) := s.managers.flatMap Manager.runs

/-- A job gets another expression only while no manager holds a next run of it, and the execution
of a job begins only while its row has the expression that was fetched.
-/
def KeepsExpressions (s : System) (action : SystemAction) : Prop :=
  (∀ call ∈ action.scheduling, ∀ row ∈ s.store.jobs.rows, row.name = call.1
      → row.expression ≠ call.2 → ∀ run ∈ s.runs, run.1 ≠ row.id)
    ∧ ∀ job ∈ action.entering s, ∃ row ∈ s.store.jobs.rows,
        row.id = job.id ∧ row.expression = job.expression

instance (s : System) (action : SystemAction) : Decidable (s.KeepsExpressions action) :=
  inferInstanceAs (Decidable (_ ∧ _))

namespace KeepsExpressions

variable {arith : IntArith} {s s' : System} {i : Nat} {m m' : Manager} {event : Event}
  {action : Action} {store : CronStore}

/-- A step of a manager that begins an execution only with the expression of the row. -/
theorem manager_step (inv : Current arith s.store s.runs) (inUtc : m.loc = GoTime.utc)
    (safe : s.KeepsExpressions (.manager i action)) (found : s.managers[i]? = some m)
    (h : m.step arith s.store action = some (store, m', event))
    : Current arith store (runs ⟨store, s.managers.set i m'⟩) := by
  have ours {run : Nat × Int} (mem : run ∈ m.runs) : run ∈ s.runs :=
    List.mem_flatMap.mpr ⟨m, List.mem_of_getElem? found, mem⟩
  have both : Current arith s.store (runs ⟨store, s.managers.set i m'⟩ ++ s.runs) := by
    apply inv.extend
    intro run mem
    rcases List.mem_append.mp mem with after | before
    · obtain ⟨holder, isManager, holds⟩ := List.mem_flatMap.mp after
      rcases List.mem_or_eq_of_mem_set isManager with other | rfl
      · exact Or.inl (List.mem_flatMap.mpr ⟨holder, other, holds⟩)
      · rcases Manager.runs_step h holds with old | ⟨job, enters, rfl⟩
        · exact Or.inl (ours old)
        · have begins : job ∈ SystemAction.entering s (.manager i action) := by
            rw [SystemAction.entering, found]
            exact enters
          obtain ⟨row, inRows, same, expression⟩ := safe.2 job begins
          refine Or.inr ⟨row, inRows, same, s.store.now, ?_⟩
          rw [expression, inUtc]
    · exact Or.inl before
  have writes := Manager.writes_step h
  have written : Current arith store (runs ⟨store, s.managers.set i m'⟩ ++ s.runs) := by
    refine both.writes ⟨writes.sameKey, fun row' mem => ?_⟩
    obtain ⟨row, inRows, same, expression, next⟩ := writes.old row' mem
    refine ⟨row, inRows, same, expression, next.imp id ?_⟩
    exact fun ⟨nextRun, held, now⟩ => ⟨nextRun, List.mem_append_right _ (ours held), now⟩
  exact written.extend fun run mem => Or.inl (List.mem_append_left _ mem)

end KeepsExpressions

/-- The rows of a system are current, and all its clocks are in UTC. -/
structure CurrentInUtc (arith : IntArith) (s : System) : Prop where
  current : Current arith s.store s.runs
  utc : ∀ m ∈ s.managers, m.loc = GoTime.utc

theorem CurrentInUtc.step {arith : IntArith} {s s' : System} {action : SystemAction}
    (inv : CurrentInUtc arith s) (h : Acts (utcStep arith) s action s')
    (safe : s.KeepsExpressions action)
    : CurrentInUtc arith s' := by
  obtain ⟨asked, h⟩ := h
  simp only [utcStep, Option.map_eq_some_iff, Prod.mk.injEq] at h
  obtain ⟨⟨next, event⟩, h, rfl, rfl⟩ := h
  cases asked with
  | pass duration =>
      cases h
      exact ⟨⟨inv.current.rows, inv.current.known, inv.current.held⟩, inv.utc⟩
  | schedule loc readAt jobName expression args delivery =>
      simp only [System.step, SystemAction.inUtc, schedule] at h
      split at h
      case isFalse => cases h
      case isTrue =>
        cases delivery with
        | refused =>
            cases h
            exact inv
        | _ =>
            cases h
            exact ⟨inv.current.addOrUpdate args ⟨readAt, rfl⟩ (safe.1 _ rfl), inv.utc⟩
  | activate jobID delivery =>
      cases delivery with
      | refused =>
          cases h
          exact inv
      | _ =>
          cases h
          exact ⟨inv.current.writes (.of_changeActivate _ _ _ _), inv.utc⟩
  | deActivate jobID delivery =>
      cases delivery with
      | refused =>
          cases h
          exact inv
      | _ =>
          cases h
          exact ⟨inv.current.writes (.of_changeActivate _ _ _ _), inv.utc⟩
  | newManager name handlers loc =>
      cases h
      refine ⟨inv.current.extend fun run mem => Or.inl ?_, fun m mem => ?_⟩
      · simpa [runs, Manager.runs, Processor.run] using mem
      · rcases List.mem_append.mp mem with old | new
        · exact inv.utc m old
        · rw [List.mem_singleton.mp new]
  | manager i action =>
      simp only [System.step, SystemAction.inUtc, Option.bind_eq_bind, Option.bind_eq_some_iff,
        Prod.exists, Option.pure_def, Option.some.injEq, Prod.mk.injEq] at h
      obtain ⟨m, found, store, m', e, taken, rfl, rfl⟩ := h
      have inUtc := inv.utc m (List.mem_of_getElem? found)
      refine ⟨KeepsExpressions.manager_step inv.current inUtc safe found taken, fun other mem => ?_⟩
      rcases List.mem_or_eq_of_mem_set mem with old | rfl
      · exact inv.utc other old
      · exact (Manager.loc_kept taken).trans inUtc

end System

/-- In every run with all clocks in UTC that keeps the expressions, the next run of every row is
computed from the expression that is stored in the row.
-/
theorem next_run_of_expression {arith : IntArith} {now : Int} {log : List SystemAction}
    {s : System}
    (run : Runs (Guarded (Acts (System.utcStep arith)) System.KeepsExpressions)
      (System.initial now) log s)
    : ∀ row ∈ s.store.jobs.rows,
        ∃ x, row.nextRunAt = some (calculateNextRun arith row.expression ⟨x, GoTime.utc⟩).ns := by
  have inv : System.CurrentInUtc arith s := by
    refine run.invariant (fun _ s => System.CurrentInUtc arith s) ?_ ?_
    · exact ⟨⟨fun _ mem => absurd mem List.not_mem_nil, fun _ mem => absurd mem List.not_mem_nil,
        fun _ mem => absurd mem List.not_mem_nil⟩, fun _ mem => absurd mem List.not_mem_nil⟩
    · intro log s action s' inv h
      exact inv.step h.1 h.2
  intro row mem
  obtain ⟨nextRun, isNext, x, computed⟩ := inv.current.rows row mem
  exact ⟨x, computed ▸ isNext⟩

-----------------------------------------------------------------------------------------
-- A job is re-scheduled while it runs
-----------------------------------------------------------------------------------------

/-- The job of every minute shall run at midnight only. -/
def reschedulesDaily : List SystemAction :=
  [.schedule GoTime.utc 0 "mail" "0 0 * * *" none .answered]

/-- The manager begins to execute the job that it locked. -/
def entersJob (i : Nat) : List SystemAction := [.acquire, .enter 0].map (.manager i)

/-- The handler returns, and the outcome and the run times are written. -/
def returnsJob (i : Nat) : List SystemAction :=
  [ .execute 0 (.returned none), .send 0, .finish 0, .receive, .mark .answered,
    .updateJobRunTimes .answered ].map (.manager i)

set_option maxRecDepth 2000 in
/-- The job is re-scheduled after a run. -/
theorem next_run_of_expression_rescheduled
    : ∃ s log, perform (System.utcStep unbounded) (System.initial 0)
          (schedulesJob ++ polls 0 ++ [locksJob 0] ++ entersJob 0 ++ returnsJob 0
            ++ reschedulesDaily) = some (s, log)
        ∧ s.store.jobs.rows.map CronJob.expression = ["0 0 * * *"]
        ∧ ∀ row ∈ s.store.jobs.rows, ∃ x,
            row.nextRunAt = some (calculateNextRun unbounded row.expression ⟨x, GoTime.utc⟩).ns := by
  have performed :=
    show perform (restrict (System.utcStep unbounded) System.KeepsExpressions) (System.initial 0)
        (schedulesJob ++ polls 0 ++ [locksJob 0] ++ entersJob 0 ++ returnsJob 0
          ++ reschedulesDaily)
      = some (_, _)
    from rfl
  exact ⟨_, _, perform_of_restrict performed, rfl,
    next_run_of_expression (runs_of_perform_restrict performed)⟩

/-- The fields of a job that runs at midnight. -/
def daily : CronExpr :=
  { minute := [0], hour := [0], month := [1, 2, 3, 4, 5, 6, 7, 8, 9, 10, 11, 12],
    dayOfMonth := [1, 2, 3, 4, 5, 6, 7, 8, 9, 10, 11, 12, 13, 14, 15, 16, 17, 18, 19, 20, 21, 22,
      23, 24, 25, 26, 27, 28, 29, 30, 31],
    dayOfWeek := [0, 1, 2, 3, 4, 5, 6] }

/-- The next run of a job that runs at midnight is a midnight. -/
theorem daily_next_run (x : Int)
    : (calculateNextRun unbounded "0 0 * * *" ⟨x, GoTime.utc⟩).ns % GoTime.day = 0 := by
  have accepted : parseCron unbounded "0 0 * * *" = .ok daily := by decide
  have someDay : daily.DayMatches 0 := by decide
  have midnight : daily.TimeMatches 0 := by decide
  obtain ⟨goal, least, next⟩ := exists_goal_utc accepted someDay le_rfl (by decide) midnight x
  obtain ⟨-, hour, minute⟩ := wallPass_found.mp least.1.2
  simp only [daily, List.mem_singleton] at hour minute
  rw [next]
  simp only [GoTime.day, GoTime.hour, GoTime.minute, GoTime.second]
  omega

set_option maxRecDepth 2000 in
/-- A manager executes the job of every minute. While the handler runs, the job is re-scheduled
for midnight; then the run times are written, with the minute that was computed before.
-/
theorem reschedule_overwritten
    : ∃ s log row, perform (System.utcStep unbounded) (System.initial 0)
          (schedulesJob ++ polls 0 ++ [locksJob 0] ++ entersJob 0 ++ reschedulesDaily
            ++ returnsJob 0) = some (s, log)
        ∧ row ∈ s.store.jobs.rows ∧ row.expression = "0 0 * * *"
        ∧ row.nextRunAt = some 60000000000
        ∧ ∀ x, row.nextRunAt
          ≠ some (calculateNextRun unbounded row.expression ⟨x, GoTime.utc⟩).ns := by
  have wrong {row : CronJob} (expression : row.expression = "0 0 * * *")
      (written : row.nextRunAt = some 60000000000) (x : Int)
      : row.nextRunAt
        ≠ some (calculateNextRun unbounded row.expression ⟨x, GoTime.utc⟩).ns := by
    intro same
    have midnight := daily_next_run x
    rw [written, expression] at same
    rw [← Option.some.inj same] at midnight
    exact absurd midnight (by decide)
  exact ⟨_, _, _, rfl, .head _, rfl, rfl, wrong rfl rfl⟩

end GoFire.CronManager
