import GoFire.CronManager.Outcomes
import GoFire.QueueManager.Outcomes

/-! Outcomes survive shutdown when nothing holds one any more. Start waits for its job goroutines
only: a result may still be in the channel or in the hand of the result processor when it
returns, and the result processor of the queue stops with the context.
-/

namespace GoFire.Managers

open GoFire.CronParser GoFire.Store TransitionSystem

/-- In every run of a manager that keeps its outcomes, when Start returns, exactly the outcomes
of the executions that ended have been passed to MarkSuccess or MarkFailure with a context that
is not cancelled, each once.
-/
theorem outcomes_passed_at_return (arith : IntArith) (name : String) (handlers : List String)
    (loc : GoTime.Location)
    : (∀ log m,
        Runs (Guarded (Acts (QueueManager.Manager.observe QueueManager.Manager.signal))
            (KeepsOutcomes QueueManager.Manager.endings))
          { name, handlers } (log ++ [.returned]) m
        → total Signal.passes log = total Signal.finishes log)
      ∧ ∀ log m,
        Runs (Guarded (Acts (CronManager.Manager.observe arith CronManager.Manager.signal))
            (KeepsOutcomes CronManager.Manager.endings))
          { name, handlers, loc } (log ++ [.returned]) m
        → total Signal.passes log = total Signal.finishes log := by
  refine ⟨fun log m run => ?_, fun log m run => ?_⟩
  · exact QueueManager.Manager.resultPipeline.passed_at_return (iff_of_true rfl rfl) rfl run
  · exact CronManager.Manager.resultPipeline.passed_at_return trivial rfl run

-----------------------------------------------------------------------------------------
-- A manager with one job is cancelled
-----------------------------------------------------------------------------------------

/-- A queue manager executes the job of a table to the end and goes on as given. -/
def queuedThen (rest : List QueueManager.Action) : List (QueueStore × QueueManager.Action) :=
  let executes : List QueueManager.Action :=
    [ .start 1 10, .unlockStaleJobs .answered, .loop, .countDueJobs .answered,
      .selectDueJobs .answered [1], .lockJob .answered, .acquire, .enter 0,
      .execute 0 (.returned none), .send 0, .finish 0, .endBatch, .wake ]
  (executes ++ rest).map (QueueStore.insert ⟨.empty, 0⟩ "mail" 0 none, ·)

/-- A cron manager executes the job of a table to the end and goes on as given. -/
def scheduledThen (rest : List CronManager.Action) : List (CronStore × CronManager.Action) :=
  let executes : List CronManager.Action :=
    [ .start 1 10, .loop, .countDueCronJobs .answered, .selectDueCronJobs .answered [1],
      .lockJob .answered, .acquire, .enter 0, .execute 0 (.returned none), .send 0, .finish 0,
      .endPage, .wake ]
  (executes ++ rest).map ((CronStore.addOrUpdate ⟨.empty, 0⟩ "mail" 0 "* * * * *" none).1, ·)

/-- Both managers record their outcomes before they are cancelled. -/
theorem outcomes_passed_at_return_recorded
    : (∃ log m, perform (QueueManager.Manager.observe QueueManager.Manager.signal)
            { name := "a", handlers := ["mail"] }
            (queuedThen [.receive, .record .answered, .cancel, .loop, .waitDone])
          = some (m, log ++ [.returned])
          ∧ total Signal.passes log = total Signal.finishes log)
      ∧ ∃ log m, perform (CronManager.Manager.observe unbounded CronManager.Manager.signal)
            { name := "a", handlers := ["mail"], loc := GoTime.utc }
            (scheduledThen [.receive, .mark .answered, .cancel, .loop, .waitDone])
          = some (m, log ++ [.returned])
          ∧ total Signal.passes log = total Signal.finishes log := by
  have queued :=
    show perform (restrict (QueueManager.Manager.observe QueueManager.Manager.signal)
          (KeepsOutcomes QueueManager.Manager.endings)) { name := "a", handlers := ["mail"] }
        (queuedThen [.receive, .record .answered, .cancel, .loop, .waitDone])
      = some (_, [_, _, _, _, _, _, _, _, _, _, _, _, _, _, _, _, _] ++ [.returned])
    from rfl
  have scheduled :=
    show perform (restrict (CronManager.Manager.observe unbounded CronManager.Manager.signal)
          (KeepsOutcomes CronManager.Manager.endings))
        { name := "a", handlers := ["mail"], loc := GoTime.utc }
        (scheduledThen [.receive, .mark .answered, .cancel, .loop, .waitDone])
      = some (_, [_, _, _, _, _, _, _, _, _, _, _, _, _, _, _, _] ++ [.returned])
    from rfl
  refine ⟨⟨_, _, perform_of_restrict queued, ?_⟩, _, _, perform_of_restrict scheduled, ?_⟩
  · exact (outcomes_passed_at_return unbounded _ _ GoTime.utc).1 _ _ (runs_of_perform_restrict queued)
  · exact (outcomes_passed_at_return _ _ _ _).2 _ _ (runs_of_perform_restrict scheduled)

set_option maxRecDepth 2000 in
/-- Both managers are cancelled while their results are in the channel. Start returns, and no
outcome has been passed to the store; so it is in a system with that manager alone.
-/
theorem outcome_left_at_return
    : (∃ log m result s systemLog,
        perform (QueueManager.Manager.observe QueueManager.Manager.signal)
            { name := "a", handlers := ["mail"] } (queuedThen [.cancel, .loop, .waitDone])
          = some (m, log ++ [.returned])
          ∧ total Signal.finishes log = {.result result} ∧ total Signal.passes log = 0
          ∧ perform QueueManager.System.step (QueueManager.System.initial 0)
              (QueueManager.oneManager ++ (queuedThen [.cancel, .loop, .waitDone]).map
                (fun action => .manager 0 action.2)) = some (s, systemLog)
          ∧ s.managers = [m])
      ∧ ∃ log m result s systemLog,
        perform (CronManager.Manager.observe unbounded CronManager.Manager.signal)
            { name := "a", handlers := ["mail"], loc := GoTime.utc }
            (scheduledThen [.cancel, .loop, .waitDone])
          = some (m, log ++ [.returned])
          ∧ total Signal.finishes log = {.result result} ∧ total Signal.passes log = 0
          ∧ perform (CronManager.System.step unbounded) (CronManager.System.initial 0)
              ([ .newManager "a" ["mail"] GoTime.utc,
                 .schedule GoTime.utc 0 "mail" "* * * * *" none .answered ]
                ++ (scheduledThen [.cancel, .loop, .waitDone]).map
                  (fun action => .manager 0 action.2)) = some (s, systemLog)
          ∧ s.managers = [m] :=
  ⟨⟨[_, _, _, _, _, _, _, _, _, _, _, _, _, _, _], _, _, _, _, rfl, rfl, rfl, rfl, rfl⟩,
    [_, _, _, _, _, _, _, _, _, _, _, _, _, _], _, _, _, _, rfl, rfl, rfl, rfl, rfl⟩

end GoFire.Managers
