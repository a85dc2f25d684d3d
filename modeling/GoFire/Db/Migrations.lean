import GoFire.Db.Catalog
import GoFire.Lock.LockManager

/-! db.Init: calls of any processes, which share a database. Under the migration lock each pings its own
connection, creates the schema and executes the scripts of the migrations directory.
-/

namespace GoFire.Db

open GoFire.Lock TransitionSystem

-----------------------------------------------------------------------------------------
-- The scripts
-----------------------------------------------------------------------------------------

def schema : String := "gofire_schema"

def cronJobs : List Statement :=
  let table : ScriptName := ⟨schema, "cron_jobs"⟩
  [ .createTable table ["id", "name", "status", "payload", "last_error", "locked_by", "locked_at",
      "created_at", "updated_at", "last_run_at", "finished_at", "next_run_at", "is_active",
      "expression"],
    .createIndex "idx_jobs_status" table ["status"],
    .createIndex "idx_jobs_next_run_at" table ["next_run_at"] ]

def enqueuedJobs : List Statement :=
  let table : ScriptName := ⟨schema, "enqueued_jobs"⟩
  [ .createTable table ["id", "name", "payload", "status", "attempts", "max_attempts",
      "scheduled_at", "executed_at", "last_error", "locked_by", "locked_at", "created_at"],
    .createIndex "idx_jobs_status_scheduled_at" table ["status", "scheduled_at"],
    .createIndex "idx_jobs_scheduled_at" table ["scheduled_at"] ]

/-- The only table without its schema. -/
def stateTable : ScriptName := ⟨none, "gofire_schema_state"⟩

def gofireSchemaState : List Statement :=
  [ .createTable stateTable ["id", "job_id", "job_status", "reason", "created_at", "data"],
    .createIndex "gofire_schema_state" stateTable ["job_id"] ]

def gofireSchemaUsers : List Statement :=
  [.createTable ⟨schema, "users"⟩ ["id", "username", "password"]]

/-- ReadDir lists the files by their names. -/
def migrationFiles : List (String × List Statement) :=
  [ ("cron_jobs.sql", cronJobs), ("enqueued_jobs.sql", enqueuedJobs),
    ("gofire_schema_state.sql", gofireSchemaState), ("gofire_schema_users.sql", gofireSchemaUsers) ]

def readSQLScripts : List (List Statement) := migrationFiles.map Prod.snd

/-- One Exec: PostgreSQL executes its statements as a whole or not at all. -/
def execution (currentSchema : String) (statements : List Statement)
    : SettlingStep Catalog SqlState :=
  .sequence (statements.map (Statement.settling currentSchema))

/-- All that Init executes, in its order. -/
def executions (currentSchema : String) : List (SettlingStep Catalog SqlState) :=
  ([.createSchema schema] :: readSQLScripts).map (execution currentSchema)

-----------------------------------------------------------------------------------------
-- Init
-----------------------------------------------------------------------------------------

/-- constants.MigrationLock. -/
def migrationLock : Int := 0

/-- What makes Init return an error. -/
inductive Failure where
  | opening (err : String)
  | acquiring (err : String)
  | pinging (err : String)
  | refused (err : String)
  | failed (err : SqlState)
  deriving DecidableEq

/-- Where a call of Init is: after its executions it closes its pool and releases the lock, as the
deferred calls say.
-/
inductive Stage where
  | opened
  | acquired
  | migrating (done : Nat)
  | closing (failure : Failure)
  | releasing (failure : Option Failure)
  | returned (failure : Option Failure)
  deriving DecidableEq

structure Call where
  process : Nat
  stage : Stage

/-- Acquire and Release of a call, on a connection of the lock manager of its process. -/
def Call.request (call : Call) (init connection : Nat) : Request :=
  ⟨⟨call.process, init⟩, migrationLock, ⟨call.process, connection⟩⟩

structure System where
  locks : Lock.System := .initial
  catalog : Catalog
  calls : List Call := []

inductive Event where
  | called (init process : Nat)
  | notOpened (init : Nat) (err : String)
  | locked (event : Lock.Event)
  | pinged (init : Nat) (err : Option String)
  | executed (init done : Nat) (failure : Option Failure)
  | closed (init : Nat) (err : Option String)

inductive Action where
  | call (process : Nat) (err : Option String)
  | acquire (init connection : Nat) (delivery : Delivery) (cause : String)
  | ping (init : Nat) (err : Option String)
  | exec (init : Nat) (delivery : Delivery) (cause : String)
  | close (init : Nat) (err : Option String)
  | release (init connection : Nat) (delivery : Delivery) (cause : String)
  | disconnect (session : Session)

namespace System

def initial (catalog : Catalog) : System := { catalog }

def put (s : System) (init : Nat) (call : Call) (stage : Stage) : System :=
  { s with calls := s.calls.set init { call with stage } }

/-- The call begins with sql.Open, which looks at the URL only. -/
def open_ (s : System) (process : Nat) (err : Option String) : System × Event :=
  match err with
  | none =>
      ({ s with calls := s.calls ++ [⟨process, .opened⟩] }, .called s.calls.length process)
  | some err =>
      ({ s with calls := s.calls ++ [⟨process, .returned (some (.opening err))⟩] },
        .notOpened s.calls.length err)

def acquire (s : System) (init connection : Nat) (call : Call) (delivery : Delivery)
    (cause : String) : Option (System × Event) := do
  let (locks, event) ← s.locks.step (.acquire (call.request init connection) delivery cause)
  let stage : Stage :=
    match event with
    | .acquireFailed _ err => .returned (some (.acquiring err))
    | .acquireLost _ err => .returned (some (.acquiring err))
    | _ => .acquired
  return ({ s.put init call stage with locks }, .locked event)

def ping (s : System) (init : Nat) (call : Call) (err : Option String) : System × Event :=
  match err with
  | none => (s.put init call (.migrating 0), .pinged init none)
  | some err => (s.put init call (.releasing (some (.pinging err))), .pinged init (some err))

/-- The next Exec. One that is lost was executed but seems to fail. -/
def exec (currentSchema : String) (s : System) (init : Nat) (call : Call) (done : Nat)
    (delivery : Delivery) (cause : String) : Option (System × Event) := do
  let step ← (executions currentSchema)[done]?
  let fail (s : System) (failure : Failure) : System × Event :=
    (s.put init call (.closing failure), .executed init done (some failure))
  match delivery, step.exec s.catalog with
  | .answered, .ok catalog =>
      return ({ s.put init call (.migrating (done + 1)) with catalog }, .executed init done none)
  | .answered, .error err => return fail s (.failed err)
  | .refused, _ => return fail s (.refused cause)
  | .lost, .ok catalog => return fail { s with catalog } (.refused cause)
  | .lost, .error _ => return fail s (.refused cause)

/-- The deferred Close, whose error is only logged. -/
def close (s : System) (init : Nat) (call : Call) (failure : Option Failure)
    (err : Option String) : System × Event :=
  (s.put init call (.releasing failure), .closed init err)

/-- The deferred Release, whose error is only logged. -/
def release (s : System) (init connection : Nat) (call : Call) (failure : Option Failure)
    (delivery : Delivery) (cause : String) : Option (System × Event) := do
  let (locks, event) ← s.locks.step (.release (call.request init connection) delivery cause)
  return ({ s.put init call (.returned failure) with locks }, .locked event)

def step (currentSchema : String) (s : System) : Action → Option (System × Event)
  | .call process err => some (s.open_ process err)
  | .acquire init connection delivery cause => do
      let call ← s.calls[init]?
      match call.stage with
      | .opened => s.acquire init connection call delivery cause
      | _ => none
  | .ping init err => do
      let call ← s.calls[init]?
      match call.stage with
      | .acquired => some (s.ping init call err)
      | _ => none
  | .exec init delivery cause => do
      let call ← s.calls[init]?
      match call.stage with
      | .migrating done => s.exec currentSchema init call done delivery cause
      | _ => none
  | .close init err => do
      let call ← s.calls[init]?
      match call.stage with
      | .migrating done =>
          if done = (executions currentSchema).length then some (s.close init call none err)
          else none
      | .closing failure => some (s.close init call failure err)
      | _ => none
  | .release init connection delivery cause => do
      let call ← s.calls[init]?
      match call.stage with
      | .releasing failure => s.release init connection call failure delivery cause
      | _ => none
  | .disconnect session => do
      let (locks, event) ← s.locks.step (.disconnect session)
      return ({ s with locks }, .locked event)

end System

-----------------------------------------------------------------------------------------
-- What a step can do
-----------------------------------------------------------------------------------------

/-- The call of Release with this request, whatever comes of it. -/
def Releases (r : Request) : Lock.Event → Prop
  | .released x => x = r
  | .releaseFailed x _ => x = r
  | .releaseLost x _ => x = r
  | _ => False

inductive System.Moves (currentSchema : String) (s : System) : Event → System → Prop where
  | called (process : Nat)
      : Moves currentSchema s (.called s.calls.length process)
          { s with calls := s.calls ++ [⟨process, .opened⟩] }
  | notOpened (process : Nat) (err : String)
      : Moves currentSchema s (.notOpened s.calls.length err)
          { s with calls := s.calls ++ [⟨process, .returned (some (.opening err))⟩] }
  | acquired {init connection : Nat} {call : Call} {locks : Lock.System}
      (found : s.calls[init]? = some call) (stage : call.stage = .opened)
      (moved : s.locks.Moves (.acquired (call.request init connection)) locks)
      : Moves currentSchema s (.locked (.acquired (call.request init connection)))
          { s.put init call .acquired with locks }
  | acquireFailed {init connection : Nat} {call : Call} {locks : Lock.System} {err : String}
      {event : Lock.Event} (found : s.calls[init]? = some call) (stage : call.stage = .opened)
      (failed : event = .acquireFailed (call.request init connection) err
        ∨ event = .acquireLost (call.request init connection) err)
      (moved : s.locks.Moves event locks)
      : Moves currentSchema s (.locked event)
          { s.put init call (.returned (some (.acquiring err))) with locks }
  | pinged {init : Nat} {call : Call} (found : s.calls[init]? = some call)
      (stage : call.stage = .acquired)
      : Moves currentSchema s (.pinged init none) (s.put init call (.migrating 0))
  | pingFailed {init : Nat} {call : Call} (err : String) (found : s.calls[init]? = some call)
      (stage : call.stage = .acquired)
      : Moves currentSchema s (.pinged init (some err))
          (s.put init call (.releasing (some (.pinging err))))
  | executed {init done : Nat} {call : Call} {step : SettlingStep Catalog SqlState}
      {catalog : Catalog} (found : s.calls[init]? = some call)
      (stage : call.stage = .migrating done) (next : (executions currentSchema)[done]? = some step)
      (ok : step.exec s.catalog = .ok catalog)
      : Moves currentSchema s (.executed init done none)
          { s.put init call (.migrating (done + 1)) with catalog }
  | execFailed {init done : Nat} {call : Call} (failure : Failure)
      (found : s.calls[init]? = some call) (stage : call.stage = .migrating done)
      : Moves currentSchema s (.executed init done (some failure))
          (s.put init call (.closing failure))
  | execLost {init done : Nat} {call : Call} {step : SettlingStep Catalog SqlState}
      {catalog : Catalog} (failure : Failure) (found : s.calls[init]? = some call)
      (stage : call.stage = .migrating done) (next : (executions currentSchema)[done]? = some step)
      (ok : step.exec s.catalog = .ok catalog)
      : Moves currentSchema s (.executed init done (some failure))
          { s.put init call (.closing failure) with catalog }
  | closed {init : Nat} {call : Call} (err : Option String) (found : s.calls[init]? = some call)
      (stage : call.stage = .migrating (executions currentSchema).length)
      : Moves currentSchema s (.closed init err) (s.put init call (.releasing none))
  | closedAfter {init : Nat} {call : Call} {failure : Failure} (err : Option String)
      (found : s.calls[init]? = some call) (stage : call.stage = .closing failure)
      : Moves currentSchema s (.closed init err) (s.put init call (.releasing (some failure)))
  | released {init connection : Nat} {call : Call} {locks : Lock.System}
      {failure : Option Failure} {event : Lock.Event} (found : s.calls[init]? = some call)
      (stage : call.stage = .releasing failure)
      (releases : Releases (call.request init connection) event)
      (moved : s.locks.Moves event locks)
      : Moves currentSchema s (.locked event) { s.put init call (.returned failure) with locks }
  | disconnected {session : Session} {locks : Lock.System}
      (moved : s.locks.Moves (.disconnected session) locks)
      : Moves currentSchema s (.locked (.disconnected session)) { s with locks }

/-- What Acquire reports. -/
theorem acquire_reports {s s' : Lock.System} {r : Request} {delivery : Delivery} {cause : String}
    {event : Lock.Event} (h : s.step (.acquire r delivery cause) = some (s', event))
    : event = .acquired r
      ∨ ∃ err, event = .acquireFailed r err ∨ event = .acquireLost r err := by
  simp only [Lock.System.step] at h
  split at h
  case isFalse => cases h
  case isTrue =>
    cases delivery with
    | answered =>
        simp only [Lock.System.acquire, Option.bind_eq_bind, Option.bind_eq_some_iff] at h
        obtain ⟨locks, -, h⟩ := h
        cases h
        exact Or.inl rfl
    | refused =>
        cases h
        exact Or.inr ⟨_, Or.inl rfl⟩
    | lost =>
        simp only [Lock.System.acquire, Option.bind_eq_bind, Option.bind_eq_some_iff] at h
        obtain ⟨locks, -, h⟩ := h
        cases h
        exact Or.inr ⟨_, Or.inr rfl⟩

/-- What Release reports. -/
theorem release_reports {s s' : Lock.System} {r : Request} {delivery : Delivery} {cause : String}
    {event : Lock.Event} (h : s.step (.release r delivery cause) = some (s', event))
    : Releases r event := by
  simp only [Lock.System.step] at h
  split at h
  case isFalse => cases h
  case isTrue =>
    cases delivery with
    | answered | refused | lost =>
        cases h
        rfl

theorem System.moves_of_acts {currentSchema : String} {s s' : System} {event : Event}
    (h : Acts (System.step currentSchema) s event s')
    : s.Moves currentSchema event s' := by
  obtain ⟨action, h⟩ := h
  cases action with
  | call process err =>
      cases err with
      | none =>
          cases h
          exact .called process
      | some err =>
          cases h
          exact .notOpened process err
  | acquire init connection delivery cause =>
      simp only [step, Option.bind_eq_bind, Option.bind_eq_some_iff] at h
      obtain ⟨call, found, h⟩ := h
      split at h
      case h_2 => cases h
      case h_1 stage =>
        simp only [System.acquire, Option.bind_eq_bind, Option.bind_eq_some_iff, Prod.exists] at h
        obtain ⟨locks, event, taken, h⟩ := h
        have moved := Lock.System.moves_of_acts ⟨_, taken⟩
        rcases acquire_reports taken with rfl | ⟨err, rfl | rfl⟩
        · cases h
          exact .acquired found stage moved
        · cases h
          exact .acquireFailed found stage (Or.inl rfl) moved
        · cases h
          exact .acquireFailed found stage (Or.inr rfl) moved
  | ping init err =>
      simp only [step, Option.bind_eq_bind, Option.bind_eq_some_iff] at h
      obtain ⟨call, found, h⟩ := h
      split at h
      case h_2 => cases h
      case h_1 stage =>
        cases err with
        | none =>
            cases h
            exact .pinged found stage
        | some err =>
            cases h
            exact .pingFailed err found stage
  | exec init delivery cause =>
      simp only [step, Option.bind_eq_bind, Option.bind_eq_some_iff] at h
      obtain ⟨call, found, h⟩ := h
      split at h
      case h_2 => cases h
      case h_1 done stage =>
        simp only [System.exec, Option.bind_eq_bind, Option.bind_eq_some_iff] at h
        obtain ⟨step, next, h⟩ := h
        split at h
        case h_1 ok =>
          cases h
          exact .executed found stage next ok
        case h_4 ok =>
          cases h
          exact .execLost _ found stage next ok
        case h_2 | h_3 | h_5 =>
          cases h
          exact .execFailed _ found stage
  | close init err =>
      simp only [step, Option.bind_eq_bind, Option.bind_eq_some_iff] at h
      obtain ⟨call, found, h⟩ := h
      split at h
      case h_3 => cases h
      case h_1 done stage =>
        split at h
        case isFalse => cases h
        case isTrue whole =>
          cases h
          exact .closed err found (whole ▸ stage)
      case h_2 failure stage =>
        cases h
        exact .closedAfter err found stage
  | release init connection delivery cause =>
      simp only [step, Option.bind_eq_bind, Option.bind_eq_some_iff] at h
      obtain ⟨call, found, h⟩ := h
      split at h
      case h_2 => cases h
      case h_1 failure stage =>
        simp only [System.release, Option.bind_eq_bind, Option.bind_eq_some_iff, Prod.exists] at h
        obtain ⟨locks, event, taken, h⟩ := h
        cases h
        exact .released found stage (release_reports taken) (Lock.System.moves_of_acts ⟨_, taken⟩)
  | disconnect session =>
      simp only [step, Option.bind_eq_bind, Option.bind_eq_some_iff, Prod.exists] at h
      obtain ⟨locks, event, taken, h⟩ := h
      have moved := Lock.System.moves_of_acts ⟨_, taken⟩
      cases taken
      cases h
      exact .disconnected moved

end GoFire.Db
