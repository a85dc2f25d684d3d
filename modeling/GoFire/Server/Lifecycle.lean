import GoFire.Foundations.KeyedTable
import GoFire.Foundations.TransitionSystem
import GoFire.Server.Handlers

/-! The servers of one container: calls of AddServerWithContainer, the managers they start, and calls
of GracefulExit, in any order and interleaved step by step. All of them share one JobManager and one
connection pool.
-/

namespace GoFire.Server

open TransitionSystem

variable {F : Type}

/-- The managers that a server starts. -/
inductive Role where
  | enqueue
  | cron
  deriving DecidableEq

/-- A goroutine that runs Start of a manager. -/
inductive WorkerStage where
  | running
  | returned
  | done
  deriving DecidableEq

/-- Where a call of AddServerWithContainer is, and after it what it has started. -/
inductive CallStage (F : Type) where
  | registering (rest : List (MethodHandler F))
  | failed (err : String)
  | derived
  | assigned
  | added
  | launched (workers : Role → WorkerStage) (syncing : Bool)

/-- A call, with the context it is given and the handlers of its configuration at that time. -/
structure Call (F : Type) where
  parent : Nat
  handlers : List (MethodHandler F)
  stage : CallStage F

/-- Where a call of GracefulExit is. -/
inductive ExitStage where
  | listening
  | stopping
  | waiting
  | closingCron
  | closingEnqueued
  | releasing (rest : List Nat)
  | complete

inductive Storage where
  | cron
  | enqueued
  deriving DecidableEq

/-- What statements come from. The retry worker and the result processor of the cron jobs start with
the container.
-/
inductive User where
  | manager (server : Nat) (role : Role)
  | sync (server : Nat)
  | background
  deriving DecidableEq

/-- What all calls share: the registered handlers, the JobManager, the contexts that are cancelled
and whether the pool is closed. A jobCtx is named by its call.
-/
structure Shared (F : Type) where
  jobHandler : JobHandler F := .empty
  useQueueWriter : Bool
  cancel : Option Nat := none
  wg : Nat := 0
  cancelledParents : List Nat := []
  cancelled : List Nat := []
  closed : Bool := false
  crashed : Bool := false

inductive Event where
  | handlerAdded (err : Option String)
  | called (server parent : Nat)
  | registered (server : Nat) (jobName : String)
  | failed (server : Nat) (err : String)
  | derived (server : Nat)
  | assigned (server : Nat)
  | added (server : Nat)
  | launched (server : Nat)
  | used (user : User) (ok : Bool)
  | returned (server : Nat) (role : Role)
  | done (server : Nat) (role : Role)
  | fatal (server : Nat) (role : Role)
  | syncStopped (server : Nat) (ok : Bool)
  | parentCancelled (parent : Nat)
  | exitCalled (exit : Nat)
  | signalled (exit : Nat)
  | cancelCalled (exit : Nat) (server : Option Nat)
  | waited (exit : Nat)
  | closed (exit : Nat) (storage : Storage)
  | released (exit : Nat) (lockID : Nat) (err : Option String)
  | exited (exit : Nat)

namespace Call

variable (shared : Shared F) (server : Nat) (call : Call F)

/-- The jobCtx of the call is done. -/
def ctxDone : Bool :=
  shared.cancelled.contains server || shared.cancelledParents.contains call.parent

/-- The next step of AddServerWithContainer. -/
def advance : Option (Shared F × CallStage F × Event) :=
  match call.stage with
  | .registering [] => some (shared, .derived, .derived server)
  | .registering (handler :: rest) =>
      match shared.jobHandler.register handler.jobName handler.func with
      | .error err => some (shared, .failed err, .failed server err)
      | .ok jobHandler =>
          some ({ shared with jobHandler }, .registering rest, .registered server handler.jobName)
  | .derived => some ({ shared with cancel := some server }, .assigned, .assigned server)
  | .assigned => some ({ shared with wg := shared.wg + 2 }, .added, .added server)
  | .added => some (shared, .launched (fun _ => .running) shared.useQueueWriter, .launched server)
  | .failed _ => none
  | .launched _ _ => none

/-- A running manager makes a statement. -/
def use (role : Role) : Option (Shared F × CallStage F × Event) :=
  match call.stage with
  | .launched workers syncing =>
      if workers role = .running then
        some (shared, .launched workers syncing, .used (.manager server role) !shared.closed)
      else none
  | _ => none

/-- Start of a manager returns when its context is done. -/
def return_ (role : Role) : Option (Shared F × CallStage F × Event) :=
  match call.stage with
  | .launched workers syncing =>
      if workers role = .running ∧ ctxDone shared server call = true then
        some (shared, .launched (Function.update workers role .returned) syncing,
          .returned server role)
      else none
  | _ => none

/-- The deferred Done. -/
def finish (role : Role) : Option (Shared F × CallStage F × Event) :=
  match call.stage with
  | .launched workers syncing =>
      if workers role = .returned then
        some ({ shared with wg := shared.wg - 1 },
          .launched (Function.update workers role .done) syncing, .done server role)
      else none
  | _ => none

/-- A manager ends the process: that of the queue when UnlockStaleJobs fails, that of the cron jobs
when a handler panics.
-/
def fatal (role : Role) : Option (Shared F × CallStage F × Event) :=
  match call.stage with
  | .launched workers syncing =>
      if workers role = .running then
        some ({ shared with crashed := true }, .launched workers syncing, .fatal server role)
      else none
  | _ => none

/-- The sync worker makes a statement, also at its end. -/
def sync : Option (Shared F × CallStage F × Event) :=
  match call.stage with
  | .launched workers true =>
      some (shared, .launched workers true, .used (.sync server) !shared.closed)
  | _ => none

def stopSync : Option (Shared F × CallStage F × Event) :=
  match call.stage with
  | .launched workers true =>
      if ctxDone shared server call = true then
        some (shared, .launched workers false, .syncStopped server !shared.closed)
      else none
  | _ => none

end Call

inductive CallAction where
  | advance
  | use (role : Role)
  | return_ (role : Role)
  | finish (role : Role)
  | fatal (role : Role)
  | sync
  | stopSync

def Call.step (shared : Shared F) (server : Nat) (call : Call F)
    : CallAction → Option (Shared F × CallStage F × Event)
  | .advance => call.advance shared server
  | .use role => call.use shared server role
  | .return_ role => call.return_ shared server role
  | .finish role => call.finish shared server role
  | .fatal role => call.fatal shared server role
  | .sync => call.sync shared server
  | .stopSync => call.stopSync shared server

/-- constants.Locks. -/
def locks : List Nat := [0, 1, 2, 3, 4, 5, 6]

/-- Release on the pool: a closed pool makes no statement. -/
def releaseError (closed : Bool) (delivery : Delivery) (cause : String) : Option String :=
  let failed := "failed to release lock: "
  if closed then some (failed ++ "sql: database is closed")
  else
    match delivery with
    | .answered => none
    | .refused => some (failed ++ cause)
    | .lost => some (failed ++ cause)

/-- The next step of GracefulExit. It drops the errors of Close and Release. -/
def ExitStage.step (shared : Shared F) (exit : Nat) (delivery : Delivery) (cause : String)
    : ExitStage → Option (Shared F × ExitStage × Event)
  | .listening => some (shared, .stopping, .signalled exit)
  | .stopping =>
      match shared.cancel with
      | none => some (shared, .waiting, .cancelCalled exit none)
      | some server =>
          some ({ shared with cancelled := server :: shared.cancelled }, .waiting,
            .cancelCalled exit (some server))
  | .waiting => if shared.wg = 0 then some (shared, .closingCron, .waited exit) else none
  | .closingCron => some ({ shared with closed := true }, .closingEnqueued, .closed exit .cron)
  | .closingEnqueued =>
      some ({ shared with closed := true }, .releasing locks, .closed exit .enqueued)
  | .releasing (lockID :: rest) =>
      some (shared, .releasing rest,
        .released exit lockID (releaseError shared.closed delivery cause))
  | .releasing [] => some (shared, .complete, .exited exit)
  | .complete => none

/-- The container with its configuration, and all calls on it. -/
structure System (F : Type) where
  handlers : List (MethodHandler F) := []
  shared : Shared F
  calls : List (Call F) := []
  exits : List ExitStage := []

inductive Action (F : Type) where
  | registerHandler (jobName : String) (func : Option F)
  | addServer (parent : Nat)
  | call (server : Nat) (action : CallAction)
  | background
  | cancelParent (parent : Nat)
  | gracefulExit
  | exit (exit : Nat) (delivery : Delivery) (cause : String)

def System.step (s : System F) (action : Action F) : Option (System F × Event) :=
  if s.shared.crashed then none
  else
    match action with
    | .registerHandler jobName func =>
        let (handlers, err) := Server.registerHandler s.handlers jobName func
        some ({ s with handlers }, .handlerAdded err)
    | .addServer parent =>
        some ({ s with calls := s.calls ++ [⟨parent, s.handlers, .registering s.handlers⟩] },
          .called s.calls.length parent)
    | .call server action => do
        let call ← s.calls[server]?
        let (shared, stage, event) ← call.step s.shared server action
        return ({ s with shared, calls := s.calls.set server { call with stage } }, event)
    | .background => some (s, .used .background !s.shared.closed)
    | .cancelParent parent =>
        some ({ s with
          shared.cancelledParents := parent :: s.shared.cancelledParents },
          .parentCancelled parent)
    | .gracefulExit =>
        some ({ s with exits := s.exits ++ [.listening] }, .exitCalled s.exits.length)
    | .exit exit delivery cause => do
        let stage ← s.exits[exit]?
        let (shared, stage, event) ← stage.step s.shared exit delivery cause
        return ({ s with shared, exits := s.exits.set exit stage }, event)

/-- A new container. -/
def System.initial (useQueueWriter : Bool) : System F where
  shared := { useQueueWriter }

-----------------------------------------------------------------------------------------
-- What a step can do
-----------------------------------------------------------------------------------------

inductive Call.Moves (shared : Shared F) (server : Nat) (call : Call F)
    : Shared F × CallStage F × Event → Prop where
  | derived (stage : call.stage = .registering [])
      : Moves shared server call (shared, .derived, .derived server)
  | failed {handler : MethodHandler F} {rest : List (MethodHandler F)} {err : String}
      (stage : call.stage = .registering (handler :: rest))
      : Moves shared server call (shared, .failed err, .failed server err)
  | registered {handler : MethodHandler F} {rest : List (MethodHandler F)}
      {jobHandler : JobHandler F} (stage : call.stage = .registering (handler :: rest))
      (ok : shared.jobHandler.register handler.jobName handler.func = .ok jobHandler)
      : Moves shared server call
          ({ shared with jobHandler }, .registering rest, .registered server handler.jobName)
  | assigned (stage : call.stage = .derived)
      : Moves shared server call
          ({ shared with cancel := some server }, .assigned, .assigned server)
  | added (stage : call.stage = .assigned)
      : Moves shared server call ({ shared with wg := shared.wg + 2 }, .added, .added server)
  | launched (stage : call.stage = .added)
      : Moves shared server call
          (shared, .launched (fun _ => .running) shared.useQueueWriter, .launched server)
  | used {workers : Role → WorkerStage} {syncing : Bool} {role : Role}
      (stage : call.stage = .launched workers syncing) (running : workers role = .running)
      : Moves shared server call
          (shared, .launched workers syncing, .used (.manager server role) !shared.closed)
  | returned {workers : Role → WorkerStage} {syncing : Bool} {role : Role}
      (stage : call.stage = .launched workers syncing) (running : workers role = .running)
      (finished : call.ctxDone shared server = true)
      : Moves shared server call
          (shared, .launched (Function.update workers role .returned) syncing,
            .returned server role)
  | done {workers : Role → WorkerStage} {syncing : Bool} {role : Role}
      (stage : call.stage = .launched workers syncing) (returned : workers role = .returned)
      : Moves shared server call
          ({ shared with wg := shared.wg - 1 },
            .launched (Function.update workers role .done) syncing, .done server role)
  | fatal {workers : Role → WorkerStage} {syncing : Bool} {role : Role}
      (stage : call.stage = .launched workers syncing)
      : Moves shared server call
          ({ shared with crashed := true }, .launched workers syncing, .fatal server role)
  | sync {workers : Role → WorkerStage} (stage : call.stage = .launched workers true)
      : Moves shared server call
          (shared, .launched workers true, .used (.sync server) !shared.closed)
  | stopSync {workers : Role → WorkerStage} (stage : call.stage = .launched workers true)
      : Moves shared server call
          (shared, .launched workers false, .syncStopped server !shared.closed)

theorem Call.step_moves {shared : Shared F} {server : Nat} {call : Call F} {action : CallAction}
    {next : Shared F × CallStage F × Event} (h : call.step shared server action = some next)
    : call.Moves shared server next := by
  cases action with
  | advance =>
      simp only [step, advance] at h
      split at h
      case h_1 stage =>
        cases h
        exact .derived stage
      case h_2 handler rest stage =>
        split at h
        case h_1 =>
          cases h
          exact .failed stage
        case h_2 ok =>
          cases h
          exact .registered stage ok
      case h_3 stage =>
        cases h
        exact .assigned stage
      case h_4 stage =>
        cases h
        exact .added stage
      case h_5 stage =>
        cases h
        exact .launched stage
      case h_6 => cases h
      case h_7 => cases h
  | use role =>
      simp only [step, use] at h
      split at h
      case h_1 stage =>
        split at h
        case isTrue running =>
          cases h
          exact .used stage running
        case isFalse => cases h
      case h_2 => cases h
  | return_ role =>
      simp only [step, return_] at h
      split at h
      case h_1 stage =>
        split at h
        case isTrue ready =>
          cases h
          exact .returned stage ready.1 ready.2
        case isFalse => cases h
      case h_2 => cases h
  | finish role =>
      simp only [step, finish] at h
      split at h
      case h_1 stage =>
        split at h
        case isTrue returned =>
          cases h
          exact .done stage returned
        case isFalse => cases h
      case h_2 => cases h
  | fatal role =>
      simp only [step, fatal] at h
      split at h
      case h_1 stage =>
        split at h
        case isTrue =>
          cases h
          exact .fatal stage
        case isFalse => cases h
      case h_2 => cases h
  | sync =>
      simp only [step, sync] at h
      split at h
      case h_1 stage =>
        cases h
        exact .sync stage
      case h_2 => cases h
  | stopSync =>
      simp only [step, stopSync] at h
      split at h
      case h_1 stage =>
        split at h
        case isTrue =>
          cases h
          exact .stopSync stage
        case isFalse => cases h
      case h_2 => cases h

inductive ExitStage.Moves (shared : Shared F) (exit : Nat)
    : ExitStage → Shared F × ExitStage × Event → Prop where
  | signalled : Moves shared exit .listening (shared, .stopping, .signalled exit)
  | nothing (unset : shared.cancel = none)
      : Moves shared exit .stopping (shared, .waiting, .cancelCalled exit none)
  | cancelled {server : Nat} (set : shared.cancel = some server)
      : Moves shared exit .stopping
          ({ shared with cancelled := server :: shared.cancelled }, .waiting,
            .cancelCalled exit (some server))
  | waited (zero : shared.wg = 0)
      : Moves shared exit .waiting (shared, .closingCron, .waited exit)
  | closedCron
      : Moves shared exit .closingCron
          ({ shared with closed := true }, .closingEnqueued, .closed exit .cron)
  | closedEnqueued
      : Moves shared exit .closingEnqueued
          ({ shared with closed := true }, .releasing locks, .closed exit .enqueued)
  | released {lockID : Nat} {rest : List Nat} (delivery : Delivery) (cause : String)
      : Moves shared exit (.releasing (lockID :: rest))
          (shared, .releasing rest,
            .released exit lockID (releaseError shared.closed delivery cause))
  | exited : Moves shared exit (.releasing []) (shared, .complete, .exited exit)

theorem ExitStage.step_moves {shared : Shared F} {exit : Nat} {delivery : Delivery}
    {cause : String} {stage : ExitStage} {next : Shared F × ExitStage × Event}
    (h : stage.step shared exit delivery cause = some next)
    : stage.Moves shared exit next := by
  cases stage with
  | listening =>
      cases h
      exact .signalled
  | stopping =>
      simp only [step] at h
      split at h
      case h_1 unset =>
        cases h
        exact .nothing unset
      case h_2 set =>
        cases h
        exact .cancelled set
  | waiting =>
      simp only [step] at h
      split at h
      case isTrue zero =>
        cases h
        exact .waited zero
      case isFalse => cases h
  | closingCron =>
      cases h
      exact .closedCron
  | closingEnqueued =>
      cases h
      exact .closedEnqueued
  | releasing rest =>
      cases rest with
      | nil =>
          cases h
          exact .exited
      | cons lockID rest =>
          cases h
          exact .released delivery cause
  | complete => cases h

inductive System.Moves (s : System F) : Event → System F → Prop where
  | handlerAdded {jobName : String} {func : Option F}
      : Moves s (.handlerAdded (Server.registerHandler s.handlers jobName func).2)
          { s with handlers := (Server.registerHandler s.handlers jobName func).1 }
  | called (parent : Nat)
      : Moves s (.called s.calls.length parent)
          { s with calls := s.calls ++ [⟨parent, s.handlers, .registering s.handlers⟩] }
  | call {server : Nat} {call : Call F} {shared : Shared F} {stage : CallStage F} {event : Event}
      (found : s.calls[server]? = some call)
      (moved : call.Moves s.shared server (shared, stage, event))
      : Moves s event { s with shared, calls := s.calls.set server { call with stage } }
  | background : Moves s (.used .background !s.shared.closed) s
  | parentCancelled (parent : Nat)
      : Moves s (.parentCancelled parent)
          { s with shared.cancelledParents := parent :: s.shared.cancelledParents }
  | exitCalled : Moves s (.exitCalled s.exits.length) { s with exits := s.exits ++ [.listening] }
  | exit {exit : Nat} {stage stage' : ExitStage} {shared : Shared F} {event : Event}
      (found : s.exits[exit]? = some stage)
      (moved : stage.Moves s.shared exit (shared, stage', event))
      : Moves s event { s with shared, exits := s.exits.set exit stage' }

theorem System.moves_of_acts {s s' : System F} {event : Event} (h : Acts System.step s event s')
    : s.Moves event s' := by
  obtain ⟨action, h⟩ := h
  simp only [step] at h
  split at h
  case isTrue => cases h
  case isFalse =>
    cases action with
    | registerHandler jobName func =>
        cases h
        exact .handlerAdded
    | addServer parent =>
        cases h
        exact .called parent
    | call server action =>
        simp only [Option.bind_eq_bind, Option.bind_eq_some_iff] at h
        obtain ⟨call, found, ⟨shared, stage, event⟩, stepped, h⟩ := h
        cases h
        exact .call found (Call.step_moves stepped)
    | background =>
        cases h
        exact .background
    | cancelParent parent =>
        cases h
        exact .parentCancelled parent
    | gracefulExit =>
        cases h
        exact .exitCalled
    | exit exit delivery cause =>
        simp only [Option.bind_eq_bind, Option.bind_eq_some_iff] at h
        obtain ⟨stage, found, ⟨shared, stage', event⟩, stepped, h⟩ := h
        cases h
        exact .exit found (ExitStage.step_moves stepped)

end GoFire.Server
