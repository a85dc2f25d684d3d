import GoFire.Server.Stages

/-! Shutdown over all runs: what has happened once GracefulExit gets past its wait, and what its wait
takes.
-/

namespace GoFire.Server

open TransitionSystem

variable {F : Type}

def WorkerStage.counted : WorkerStage → Nat
  | .done => 0
  | .running => 1
  | .returned => 1

/-- What a stage holds of the counter of the wait group. -/
def CallStage.counted : CallStage F → Nat
  | .added => 2
  | .launched workers _ => (workers .enqueue).counted + (workers .cron).counted
  | _ => 0

def Call.counted (call : Call F) : Nat := call.stage.counted

variable {s s' : System F} {event : Event} {log : List Event} {useQueueWriter : Bool}

-----------------------------------------------------------------------------------------
-- The wait group
-----------------------------------------------------------------------------------------

theorem counted_update {workers : Role → WorkerStage} {role : Role} {before : WorkerStage}
    (found : workers role = before) (after : WorkerStage) (syncing : Bool)
    : (CallStage.launched (Function.update workers role after) syncing : CallStage F).counted
          + before.counted
      = (CallStage.launched workers syncing : CallStage F).counted + after.counted := by
  cases role with
  | enqueue =>
      have other : Function.update workers .enqueue after .cron = workers .cron :=
        Function.update_of_ne (by decide) _ _
      simp only [CallStage.counted, Function.update_self, other, found]
      omega
  | cron =>
      have other : Function.update workers .cron after .enqueue = workers .enqueue :=
        Function.update_of_ne (by decide) _ _
      simp only [CallStage.counted, Function.update_self, other, found]
      omega

/-- The counter follows what the call holds of it. -/
theorem Call.Moves.counted {shared : Shared F} {server : Nat} {call : Call F}
    {next : Shared F × CallStage F × Event} (moves : call.Moves shared server next)
    (held : call.counted ≤ shared.wg)
    : next.1.wg + call.counted = shared.wg + next.2.1.counted := by
  unfold Call.counted at held ⊢
  cases moves with
  | @returned workers syncing role stage running finished =>
      have same := counted_update (F := F) running .returned syncing
      rw [stage]
      simp only [WorkerStage.counted] at same ⊢
      omega
  | @done workers syncing role stage returned =>
      have same := counted_update (F := F) returned .done syncing
      rw [stage] at held ⊢
      simp only [WorkerStage.counted] at same ⊢
      omega
  | used stage | fatal stage | sync stage => rw [stage]
  | derived stage | failed stage | registered stage | assigned stage | added stage
  | launched stage | stopSync stage =>
      rw [stage]
      rfl

theorem ExitStage.Moves.counted {shared : Shared F} {exit : Nat} {stage : ExitStage}
    {next : Shared F × ExitStage × Event} (moves : stage.Moves shared exit next)
    : next.1.wg = shared.wg := by
  cases moves with
  | _ => rfl

/-- The counter of the wait group is what the calls hold of it. -/
def System.Counted (s : System F) : Prop := s.shared.wg = total Call.counted s.calls

theorem System.Counted.step (counted : s.Counted) (h : s.Moves event s') : s'.Counted := by
  unfold Counted at counted ⊢
  cases h with
  | handlerAdded | background | parentCancelled | exitCalled => exact counted
  | exit _ moved => exact moved.counted.trans counted
  | called parent =>
      rw [total_append]
      exact counted
  | @call server call shared stage event found moved =>
      obtain ⟨rest, all, others⟩ := total_set Call.counted found
      have moved := moved.counted (by omega)
      rw [others]
      have after : Call.counted { call with stage } = stage.counted := rfl
      dsimp only at moved ⊢
      omega

theorem counted_of_run (run : Runs (Acts System.step) (.initial useQueueWriter) log s)
    : s.Counted := by
  refine run.invariant (fun _ s => s.Counted) rfl ?_
  exact fun _ _ _ _ counted h => counted.step (System.moves_of_acts h)

/-- With the counter at zero every manager that was ever counted has returned. -/
theorem System.Counted.returned_of_zero (counted : s.Counted) (zero : s.shared.wg = 0)
    {server : Nat} (added : s.Has server CallStage.isAdded) (role : Role)
    : s.Has server (CallStage.hasReturned role) := by
  obtain ⟨call, found, isAdded⟩ := added
  obtain ⟨rest, all, -⟩ := total_set Call.counted found
  have none : call.stage.counted = 0 := by
    unfold Counted at counted
    have : call.counted = call.stage.counted := rfl
    omega
  refine ⟨call, found, ?_⟩
  cases stage : call.stage with
  | launched workers syncing =>
      rw [stage, CallStage.counted] at none
      rw [CallStage.hasReturned, decide_eq_true_eq]
      intro running
      cases role with
      | enqueue | cron =>
          rw [running, WorkerStage.counted] at none
          omega
  | added =>
      rw [stage] at none
      cases none
  | _ =>
      rw [stage] at isAdded
      cases isAdded

/-- When an exit gets past its wait, all managers counted before have returned. -/
theorem returned_before_wait {exit : Nat}
    (run : Runs (Acts System.step) (.initial useQueueWriter) log s)
    (waited : Acts System.step s (.waited exit) s') {server : Nat} (added : .added server ∈ log)
    (role : Role)
    : .returned server role ∈ log := by
  have zero : s.shared.wg = 0 := by
    cases System.moves_of_acts waited with
    | exit _ moved =>
        cases moved with
        | waited zero => exact zero
    | call _ moved => cases moved
  exact (returned_iff_mem run server role).mp
    ((counted_of_run run).returned_of_zero zero ((added_iff_mem run server).mpr added) role)

/-- A store is closed by an exit that got past its wait. -/
theorem waited_before_close {exit : Nat} {storage : Storage}
    (run : Runs (Acts System.step) (.initial useQueueWriter) log s)
    (closes : Acts System.step s (.closed exit storage) s')
    : .waited exit ∈ log := by
  rw [← waited_iff_mem run exit]
  cases System.moves_of_acts closes with
  | call _ moved => cases moved
  | exit found moved =>
      cases moved with
      | closedCron => exact ⟨_, found, rfl⟩
      | closedEnqueued => exact ⟨_, found, rfl⟩

/-- By the time of a wait that is over, the managers of all servers counted so far had returned. -/
theorem returned_before_waited
    (run : Runs (Acts System.step) (.initial useQueueWriter : System F) log s) {exit : Nat}
    (waited : .waited exit ∈ log)
    : ∃ earlier later, log = earlier ++ .waited exit :: later
        ∧ ∀ server role, .added server ∈ earlier → .returned server role ∈ earlier := by
  obtain ⟨earlier, later, rfl⟩ := List.append_of_mem waited
  obtain ⟨t, t', front, waits, -⟩ := run.split
  exact ⟨earlier, later, rfl, fun server role added =>
    returned_before_wait front waits added role⟩

/-- In every run a store is closed only by an exit that got past its wait before, and then the managers
of all servers counted by that time had returned.
-/
theorem closed_after_managers
    (run : Runs (Acts System.step) (.initial useQueueWriter : System F) log s)
    {before after : List Event} {exit : Nat} {storage : Storage}
    (whole : log = before ++ .closed exit storage :: after)
    : ∃ earlier later, before = earlier ++ .waited exit :: later
        ∧ ∀ server role, .added server ∈ earlier → .returned server role ∈ earlier := by
  obtain ⟨t, t', front, closes, -⟩ := (whole ▸ run).split
  exact returned_before_waited front (waited_before_close front closes)

/-- One server is started and shut down; its exit goes on to its releases. -/
def startsAndExits : List (Action Unit) :=
  let exit := .exit 0 .answered ""
  [.registerHandler "mail" (some ()), .addServer 0]
    ++ List.replicate 5 (.call 0 .advance)
    ++ [.call 0 (.use .cron), .gracefulExit, exit, exit]
    ++ [.call 0 (.return_ .cron), .call 0 (.return_ .enqueue), .call 0 (.finish .enqueue),
      .call 0 (.finish .cron)]
    ++ [exit, exit, exit, exit]

/-- Both managers have returned before its exit closes the store. -/
theorem closed_after_managers_once
    : ∃ s log, perform System.step (.initial false) startsAndExits = some (s, log)
        ∧ ∃ before after, log = before ++ .closed 0 .enqueued :: after
          ∧ ∃ earlier later, before = earlier ++ .waited 0 :: later
            ∧ ∀ server role, .added server ∈ earlier → .returned server role ∈ earlier := by
  have performed :=
    show perform System.step (.initial false) startsAndExits
      = some (_, [_, _, _, _, _, _, _, _, _, _, _, _, _, _, _, _, _] ++ .closed 0 .enqueued :: [_])
    from rfl
  exact ⟨_, _, performed, _, _, rfl, closed_after_managers (runs_of_perform performed) rfl⟩

-----------------------------------------------------------------------------------------
-- Releases
-----------------------------------------------------------------------------------------

/-- The pool is closed once an exit has closed the stores, and stays closed. -/
theorem System.Moves.closed (h : s.Moves event s')
    : s'.shared.closed = true
      ↔ s.shared.closed = true ∨ ∃ exit storage, event = .closed exit storage := by
  cases h with
  | handlerAdded | background | parentCancelled | exitCalled | called => simp
  | call _ moved =>
      cases moved with
      | _ => simp
  | exit _ moved =>
      cases moved with
      | _ => simp

theorem closed_of_run (run : Runs (Acts System.step) (.initial useQueueWriter : System F) log s)
    : s.shared.closed = true ↔ ∃ event ∈ log, ∃ exit storage, event = .closed exit storage :=
  run.marked (by simp [System.initial]) fun _ _ _ h => (System.moves_of_acts h).closed

/-- In every run GracefulExit releases no lock: each of its calls of Release comes after the pool is
closed and is refused.
-/
theorem releases_refused
    (run : Runs (Acts System.step) (.initial useQueueWriter : System F) log s) {exit lockID : Nat}
    {err : Option String} (released : .released exit lockID err ∈ log)
    : err = some "failed to release lock: sql: database is closed" := by
  obtain ⟨before, after, rfl⟩ := List.append_of_mem released
  obtain ⟨t, t', front, releases, -⟩ := run.split
  cases System.moves_of_acts releases with
  | call _ moved => cases moved
  | exit found moved =>
      cases moved with
      | released delivery cause =>
          have closed := (closed_iff_mem front exit).mp ⟨_, found, rfl⟩
          have pool := (closed_of_run front).mpr ⟨_, closed, exit, .enqueued, rfl⟩
          simp [releaseError, pool]

/-- The first release of an exit. -/
theorem releases_refused_once
    : ∃ s log err, perform System.step (.initial false) startsAndExits = some (s, log)
        ∧ .released 0 0 err ∈ log
        ∧ err = some "failed to release lock: sql: database is closed" := by
  have performed :=
    show perform System.step (.initial false) startsAndExits
      = some (_, [_, _, _, _, _, _, _, _, _, _, _, _, _, _, _, _, _, _] ++ [.released 0 0 _])
    from rfl
  refine ⟨_, _, _, performed, List.mem_append_right _ (List.mem_singleton_self _), ?_⟩
  exact releases_refused (runs_of_perform performed)
    (List.mem_append_right _ (List.mem_singleton_self _))

-----------------------------------------------------------------------------------------
-- Statements
-----------------------------------------------------------------------------------------

/-- The JobManager holds the Cancel of this server: it was assigned, and no other one since. -/
def HoldsCancel (log : List Event) (server : Nat) : Prop :=
  Open (· = .assigned server) (fun event => ∃ other, event = .assigned other) log

theorem System.Moves.cancel (h : s.Moves event s')
    : (∃ server, event = .assigned server ∧ s'.shared.cancel = some server)
      ∨ ((∀ server, event ≠ .assigned server) ∧ s'.shared.cancel = s.shared.cancel) := by
  cases h with
  | handlerAdded | background | parentCancelled | exitCalled | called =>
      exact Or.inr ⟨fun _ same => (by cases same), rfl⟩
  | call _ moved =>
      cases moved with
      | assigned => exact Or.inl ⟨_, rfl, rfl⟩
      | _ => exact Or.inr ⟨fun _ same => (by cases same), rfl⟩
  | exit _ moved =>
      cases moved with
      | _ => exact Or.inr ⟨fun _ same => (by cases same), rfl⟩

theorem cancel_of_run (run : Runs (Acts System.step) (.initial useQueueWriter : System F) log s)
    (server : Nat)
    : s.shared.cancel = some server ↔ HoldsCancel log server := by
  refine run.invariant (fun log s => s.shared.cancel = some server ↔ HoldsCancel log server) ?_ ?_
  · exact iff_of_false (by simp [System.initial]) (not_open_nil _ _)
  · intro log s event s' same h
    rw [HoldsCancel, open_append]
    rcases (System.moves_of_acts h).cancel with ⟨other, rfl, set⟩ | ⟨unassigned, kept⟩
    · rw [set]
      simp
    · rw [kept, same, HoldsCancel, or_iff_right (unassigned server), and_iff_left]
      exact fun assigned => assigned.elim unassigned

theorem System.Moves.cancelled (h : s.Moves event s') (server : Nat)
    : server ∈ s'.shared.cancelled
      ↔ server ∈ s.shared.cancelled ∨ ∃ exit, event = .cancelCalled exit (some server) := by
  cases h with
  | handlerAdded | background | parentCancelled | exitCalled | called => simp
  | call _ moved =>
      cases moved with
      | _ => simp
  | exit _ moved =>
      cases moved with
      | cancelled => simp [or_comm, eq_comm]
      | _ => simp

theorem System.Moves.parents (h : s.Moves event s') (parent : Nat)
    : parent ∈ s'.shared.cancelledParents
      ↔ parent ∈ s.shared.cancelledParents ∨ event = .parentCancelled parent := by
  cases h with
  | parentCancelled => simp [or_comm, eq_comm]
  | handlerAdded | background | exitCalled | called => simp
  | call _ moved =>
      cases moved with
      | _ => simp
  | exit _ moved =>
      cases moved with
      | _ => simp

/-- A call keeps the context it was given. -/
theorem called_of_run (run : Runs (Acts System.step) (.initial useQueueWriter : System F) log s)
    : ∀ server call, s.calls[server]? = some call → .called server call.parent ∈ log := by
  refine run.invariant
    (fun log s => ∀ server call, s.calls[server]? = some call → .called server call.parent ∈ log)
    (fun _ _ none => by simp [System.initial] at none) ?_
  intro log s event s' called h server call found
  have earlier {call : Call F} (found : s.calls[server]? = some call)
      : .called server call.parent ∈ log ++ [event] :=
    List.mem_append_left _ (called server call found)
  cases System.moves_of_acts h with
  | handlerAdded | background | parentCancelled | exitCalled | exit => exact earlier found
  | called parent =>
      rcases getElem?_concat_cases found with old | ⟨rfl, rfl⟩
      · exact earlier old
      · exact List.mem_append_right _ (List.mem_singleton_self _)
  | @call other call' shared stage event found' moved =>
      rcases getElem?_set_cases found with ⟨-, old⟩ | ⟨rfl, rfl⟩
      · exact earlier old
      · have kept := earlier found'
        exact kept

/-- In every run an exit gets past its wait only if, for each server counted before, the context it was
given was cancelled, or some exit called Cancel while the JobManager held that of this server. The Cancel
of a server is lost once another one is started.
-/
theorem wait_needs_cancel
    (run : Runs (Acts System.step) (.initial useQueueWriter : System F) log s)
    {before after : List Event} {exit : Nat} (whole : log = before ++ .waited exit :: after)
    {server : Nat} (added : .added server ∈ before)
    : (∃ parent, .called server parent ∈ before ∧ .parentCancelled parent ∈ before)
      ∨ ∃ earlier exit' later, before = earlier ++ .cancelCalled exit' (some server) :: later
          ∧ HoldsCancel earlier server := by
  obtain ⟨t, t', front, waits, -⟩ := (whole ▸ run).split
  have returned := returned_before_wait front waits added .enqueue
  obtain ⟨earlier, later, rfl⟩ := List.append_of_mem returned
  obtain ⟨u, u', start, returns, -⟩ := front.split
  cases System.moves_of_acts returns with
  | exit _ moved => cases moved
  | @call _ call _ _ _ found moved =>
      cases moved with
      | returned stage running finished =>
          simp only [Call.ctxDone, Bool.or_eq_true, List.contains_iff_mem] at finished
          rcases finished with own | parent
          · have called : ∃ event ∈ earlier, ∃ exit, event = .cancelCalled exit (some server) :=
              (start.marked (P := fun s => server ∈ s.shared.cancelled) (by simp [System.initial])
                fun _ _ _ h => (System.moves_of_acts h).cancelled server).mp own
            obtain ⟨event, mem, exit', rfl⟩ := called
            obtain ⟨first, rest, rfl⟩ := List.append_of_mem mem
            obtain ⟨v, v', begin_, cancels, -⟩ := start.split
            refine Or.inr ⟨first, exit', rest ++ .returned server .enqueue :: later, by simp, ?_⟩
            rw [← cancel_of_run begin_]
            cases System.moves_of_acts cancels with
            | call _ moved => cases moved
            | exit _ moved =>
                cases moved with
                | cancelled set => exact set
          · have cancelled : ∃ event ∈ earlier, event = .parentCancelled call.parent :=
              (start.marked (P := fun s => call.parent ∈ s.shared.cancelledParents)
                (by simp [System.initial])
                fun _ _ _ h => (System.moves_of_acts h).parents call.parent).mp parent
            obtain ⟨event, mem, rfl⟩ := cancelled
            exact Or.inl ⟨call.parent,
              List.mem_append_left _ (called_of_run start server call found),
              List.mem_append_left _ mem⟩

/-- The exit of one server calls its Cancel. -/
theorem wait_needs_cancel_once
    : ∃ s log, perform System.step (.initial false) startsAndExits = some (s, log)
        ∧ ∃ before after, log = before ++ .waited 0 :: after
          ∧ ((∃ parent, .called 0 parent ∈ before ∧ .parentCancelled parent ∈ before)
            ∨ ∃ earlier exit' later, before = earlier ++ .cancelCalled exit' (some 0) :: later
                ∧ HoldsCancel earlier 0) := by
  have performed :=
    show perform System.step (.initial false) startsAndExits
      = some (_, [ _, _, _, _, _, .added 0, _, _, _, _, _, _, _, _, _ ] ++ .waited 0 :: [_, _, _])
    from rfl
  refine ⟨_, _, performed, _, _, rfl, ?_⟩
  exact wait_needs_cancel (runs_of_perform performed) rfl (by simp)

end GoFire.Server
