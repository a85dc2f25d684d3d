import GoFire.QueueManager.RowHistory

/-! A row says that its job succeeded only if its handler was started and returned without an error:
no result of success comes from anywhere else.
-/

namespace GoFire.QueueManager

open GoFire.State GoFire.Store TransitionSystem

/-- The events that start a handler of the job. -/
inductive Begins (jobID : Nat) : Event → Prop where
  | started {job : EnqueuedJob} (same : job.id = jobID) : Begins jobID (.started job)
  | manual {job : EnqueuedJob} (same : job.id = jobID) : Begins jobID (.manual job)

/-- A success was reported after a handler of its job was started. -/
def Backed (log : List Event) (result : JobResult) : Prop :=
  result.status = .succeeded
    → ∃ begun, Begins result.jobID begun ∧ [begun, .reported result].Sublist log

def Execution.Backed (log : List Event) (e : Execution) : Prop :=
  match e.stage with
  | .executing _ => ∃ begun ∈ log, Begins e.job.id begun
  | .sending result => QueueManager.Backed log result
  | _ => True

/-- Every success that a manager holds is backed by the log. -/
structure Manager.Backed (log : List Event) (m : Manager) : Prop where
  workers : ∀ e ∈ m.workers, e.Backed log
  manual : ∀ e ∈ m.manual, e.Backed log
  results : ∀ result ∈ m.jobResults, QueueManager.Backed log result
  processor : ∀ result, m.processor = .recording result → QueueManager.Backed log result

theorem Backed.later {log : List Event} {result : JobResult} (backed : Backed log result)
    (event : Event)
    : Backed (log ++ [event]) result := by
  intro succeeded
  obtain ⟨begun, begins, ordered⟩ := backed succeeded
  exact ⟨begun, begins, ordered.trans (List.sublist_append_left _ _)⟩

theorem Execution.Backed.later {log : List Event} {e : Execution} (backed : e.Backed log)
    (event : Event)
    : e.Backed (log ++ [event]) := by
  obtain ⟨job, stage⟩ := e
  cases stage with
  | executing args =>
      obtain ⟨begun, mem, begins⟩ := backed
      exact ⟨begun, List.mem_append_left _ mem, begins⟩
  | sending result => exact QueueManager.Backed.later backed event
  | _ => trivial

/-- The result of a handler that was started is backed by its report. -/
theorem Execution.Backed.report {log : List Event} {job : EnqueuedJob} {args : Args}
    (backed : Execution.Backed log ⟨job, .executing args⟩) (err : Option String)
    : QueueManager.Backed (log ++ [.reported (jobResult job err)]) (jobResult job err) := by
  intro succeeded
  obtain ⟨begun, mem, begins⟩ := backed
  exact ⟨begun, begins, (List.singleton_sublist.mpr mem).append (List.Sublist.refl _)⟩

/-- handleJob reports no success of its own. -/
theorem Manager.enter_reported {s s' : QueueStore} {m m' : Manager} {i : Nat} {result : JobResult}
    (h : m.enter s i = some (s', m', .reported result))
    : result.status ≠ .succeeded := by
  have failed (job : EnqueuedJob) (message : String)
      : (jobResult job (some message)).status ≠ .succeeded := by
    simp [jobResult, errorToJobStatus]
  simp only [enter] at h
  split at h
  case h_2 => cases h
  case h_1 job _ =>
    split at h
    case isFalse =>
      cases h
      exact failed job _
    case isTrue =>
      split at h
      case h_1 => cases h
      case h_2 =>
        cases h
        exact failed job _

namespace Manager.Backed

variable {log : List Event} {s s' : QueueStore} {m m' : Manager} {action : Action} {event : Event}

theorem later (backed : m.Backed log) (event : Event) : m.Backed (log ++ [event]) where
  workers e mem := (backed.workers e mem).later event
  manual e mem := (backed.manual e mem).later event
  results result mem := (backed.results result mem).later event
  processor result recording := (backed.processor result recording).later event

/-- Moving one execution on. -/
theorem set {executions : List Execution} (backed : ∀ e ∈ executions, e.Backed log) (i : Nat)
    {e' : Execution} (moved : e'.Backed log)
    : ∀ e ∈ executions.set i e', e.Backed log := by
  intro e mem
  rcases List.mem_or_eq_of_mem_set mem with old | rfl
  · exact backed e old
  · exact moved

theorem append {executions : List Execution} (backed : ∀ e ∈ executions, e.Backed log)
    (job : EnqueuedJob)
    : ∀ e ∈ executions ++ [⟨job, .entered⟩], e.Backed log := by
  intro e mem
  rcases List.mem_append.mp mem with old | new
  · exact backed e old
  · rw [List.mem_singleton.mp new]
    trivial

theorem step (inv : m.Backed log) (h : m.step s action = some (s', m', event))
    : m'.Backed (log ++ [event]) := by
  have before := inv.later event
  have results {result : JobResult} (backed : QueueManager.Backed (log ++ [event]) result)
      : ∀ other ∈ m.jobResults ++ [result], QueueManager.Backed (log ++ [event]) other := by
    intro other mem
    rcases List.mem_append.mp mem with old | new
    · exact before.results other old
    · rwa [List.mem_singleton.mp new]
  cases step_moves h with
  | start => exact { before with processor := fun _ same => by cases same }
  | crash | unlockRefused | unlockLost =>
      exact ⟨fun _ mem => absurd mem List.not_mem_nil, fun _ mem => absurd mem List.not_mem_nil,
        fun _ mem => absurd mem List.not_mem_nil, fun _ same => by cases same⟩
  | acquired => exact { before with workers := append before.workers _ }
  | @entered i job args found =>
      exact { before with
        workers := set before.workers i
          ⟨.started job, List.mem_append_right _ (List.mem_singleton.mpr rfl), .started rfl⟩ }
  | @refused i job err found =>
      exact { before with
        workers := set before.workers i fun succeeded => absurd succeeded (enter_reported h) }
  | @executed i job args err found =>
      have running := inv.workers _ (List.mem_of_getElem? found)
      exact { before with workers := set before.workers i (running.report err) }
  | @panicked i => exact { before with workers := set before.workers i trivial }
  | @sent i job result found =>
      have sending := before.workers _ (List.mem_of_getElem? found)
      exact { before with
        workers := set before.workers i trivial
        results := results sending }
  | finished =>
      exact { before with
        workers := fun e mem => before.workers e (List.mem_of_mem_eraseIdx mem) }
  | foundByID => exact { before with manual := append before.manual _ }
  | @enteredManual i job args found =>
      exact { before with
        manual := set before.manual i
          ⟨.manual job, List.mem_append_right _ (List.mem_singleton.mpr rfl), .manual rfl⟩ }
  | @refusedManual i => exact { before with manual := set before.manual i trivial }
  | @executedManual i job args err found =>
      have running := inv.manual _ (List.mem_of_getElem? found)
      exact { before with manual := set before.manual i (running.report err) }
  | @panickedManual i => exact { before with manual := set before.manual i trivial }
  | @sentManual i job result found =>
      have sending := before.manual _ (List.mem_of_getElem? found)
      exact { before with
        manual := set before.manual i trivial
        results := results sending }
  | @received result rest receiving buffered =>
      have held := before.results
      rw [buffered] at held
      exact { before with
        results := fun other mem => held other (List.mem_cons_of_mem _ mem)
        processor := fun other same => by
          cases same
          exact held result List.mem_cons_self }
  | unrecorded | recorded | stopped => exact { before with processor := fun _ same => by cases same }
  | _ => exact { before with }

end Manager.Backed

theorem Manager.step_recorded {s s' : QueueStore} {m m' : Manager} {action : Action}
    {result : JobResult} (h : m.step s action = some (s', m', .recorded result))
    : m.processor = .recording result := by
  cases step_moves h with
  | recorded recording => exact recording

/-- Every recorded success was reported before, after its handler was started. -/
def Confirmed (log : List Event) : Prop :=
  ∀ result, .recorded result ∈ log → result.status = .succeeded
    → ∃ begun, Begins result.jobID begun ∧ [begun, .reported result, .recorded result].Sublist log

theorem Confirmed.append {log : List Event} {event : Event} (confirmed : Confirmed log)
    (backed : ∀ result, event = .recorded result → Backed log result)
    : Confirmed (log ++ [event]) := by
  intro result mem succeeded
  rcases List.mem_append.mp mem with old | new
  · obtain ⟨begun, begins, ordered⟩ := confirmed result old succeeded
    exact ⟨begun, begins, ordered.trans (List.sublist_append_left _ _)⟩
  · obtain rfl := List.mem_singleton.mp new
    obtain ⟨begun, begins, ordered⟩ := backed result rfl succeeded
    exact ⟨begun, begins, ordered.append (List.Sublist.refl [Event.recorded result])⟩

/-- All managers of a system, and the log behind them. -/
structure System.Backed (log : List Event) (s : System) : Prop where
  managers : ∀ m ∈ s.managers, m.Backed log
  confirmed : Confirmed log

theorem System.Backed.step {log : List Event} {s s' : System} {event : Event}
    (inv : s.Backed log) (h : Acts System.step s event s')
    : s'.Backed (log ++ [event]) := by
  obtain ⟨action, h⟩ := h
  cases action with
  | manager i action =>
      obtain ⟨acting, store, acted, found, taken, rfl⟩ := System.manager_step h
      have before := inv.managers acting (List.mem_of_getElem? found)
      refine ⟨fun m mem => ?_, inv.confirmed.append fun result same => ?_⟩
      · rcases List.mem_or_eq_of_mem_set mem with old | rfl
        · exact (inv.managers m old).later event
        · exact before.step taken
      · subst same
        exact before.processor result (Manager.step_recorded taken)
  | newManager name handlers =>
      cases h
      refine ⟨fun m mem => ?_, inv.confirmed.append fun _ same => by cases same⟩
      rcases List.mem_append.mp mem with old | new
      · exact (inv.managers m old).later _
      · rw [List.mem_singleton.mp new]
        exact ⟨fun _ mem => absurd mem List.not_mem_nil, fun _ mem => absurd mem List.not_mem_nil,
          fun _ mem => absurd mem List.not_mem_nil, fun _ same => by cases same⟩
  | _ =>
      cases h
      exact ⟨fun m mem => (inv.managers m mem).later _,
        inv.confirmed.append fun _ same => by cases same⟩

/-- Only a recorded success makes a job succeeded. -/
theorem Progress.after_succeeded {jobID : Nat} {p : Progress} {event : Event}
    (succeeded : (p.after jobID event).status = .succeeded)
    : p.status = .succeeded
      ∨ ∃ result, event = .recorded result ∧ result.jobID = jobID ∧ result.status = .succeeded := by
  cases event with
  | recorded result =>
      simp only [after] at succeeded
      split at succeeded
      case isFalse => exact Or.inl succeeded
      case isTrue same =>
        unfold Progress.recorded at succeeded
        split at succeeded
        case h_1 success => exact Or.inr ⟨result, rfl, same, success⟩
        case h_2 =>
          rcases QueueStore.failureStatus_cases result.attempts with dead | failed
          · cases dead.symm.trans succeeded
          · cases failed.symm.trans succeeded
        case h_3 => exact Or.inl succeeded
  | locked | lockLost | swept | unlocked =>
      simp only [after] at succeeded
      split at succeeded
      case isTrue => cases succeeded
      case isFalse => exact Or.inl succeeded
  | _ => exact Or.inl succeeded

/-- By induction from the end of the log. -/
theorem Progress.replay_succeeded {log : List Event} {jobID : Nat}
    (succeeded : (Progress.replay log jobID).status = .succeeded)
    : ∃ result, .recorded result ∈ log ∧ result.jobID = jobID ∧ result.status = .succeeded := by
  induction log using List.reverseRecOn with
  | nil => cases succeeded
  | append_singleton log event ih =>
      rw [replay_append] at succeeded
      rcases after_succeeded succeeded with before | ⟨result, rfl, same, success⟩
      · obtain ⟨result, mem, found⟩ := ih before
        exact ⟨result, List.mem_append_left _ mem, found⟩
      · exact ⟨result, List.mem_append_right _ (List.mem_singleton.mpr rfl), same, success⟩

/-- In every run of any number of managers a row says that its job succeeded only if a handler of
the job was started, then returned without an error, and this result was then recorded.
-/
theorem succeeded_row_confirmed {now : Int} {log : List Event} {s : System}
    (run : Runs (Acts System.step) (System.initial now) log s) {row : EnqueuedJob}
    (mem : row ∈ s.store.jobs.rows) (succeeded : row.status = .succeeded)
    : ∃ begun result, Begins row.id begun ∧ result.jobID = row.id ∧ result.status = .succeeded
        ∧ [begun, .reported result, .recorded result].Sublist log := by
  have backed : s.Backed log := by
    refine run.invariant (fun log s => s.Backed log) ⟨?_, ?_⟩ fun _ _ _ _ inv h => inv.step h
    · exact fun _ mem => absurd mem List.not_mem_nil
    · exact fun _ mem => absurd mem List.not_mem_nil
  have replayed := congrArg Progress.status ((Explained.of_run run).rows row mem).2
  obtain ⟨result, recorded, same, success⟩ :=
    Progress.replay_succeeded (replayed.symm.trans succeeded)
  obtain ⟨begun, begins, ordered⟩ := backed.confirmed result recorded success
  exact ⟨begun, result, same ▸ begins, same, success, ordered⟩

/-- The job of one round. -/
theorem succeeded_row_confirmed_first
    : ∃ s log row, perform System.step (System.initial 0)
          (oneManager ++ begins 0 ++ polls 0 ++ takesJob 0 ++ returnsJob 0 none) = some (s, log)
        ∧ s.store.jobs.get? 1 = some row
        ∧ ∃ begun result, Begins row.id begun ∧ result.jobID = row.id
          ∧ result.status = .succeeded
          ∧ [begun, .reported result, .recorded result].Sublist log := by
  have performed :=
    show perform System.step (System.initial 0)
        (oneManager ++ begins 0 ++ polls 0 ++ takesJob 0 ++ returnsJob 0 none) = some (_, _)
    from rfl
  have run := runs_of_perform performed
  refine ⟨_, _, _, performed, rfl, ?_⟩
  exact succeeded_row_confirmed run (.head _) rfl

end GoFire.QueueManager
