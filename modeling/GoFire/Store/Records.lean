import GoFire.Foundations.KeyedTable
import GoFire.State.Statuses

/-! The rows and results that stores and managers exchange. -/

namespace GoFire.Store

open GoFire.State

/-- A JSON document, as a payload column holds it. -/
inductive Json where
  | null
  | bool (value : Bool)
  | num (value : Int)
  | str (value : String)
  | arr (items : List Json)
  | obj (members : List (String × Json))

/-- A slice of job arguments; a call without arguments has the nil slice. -/
abbrev Args := Option (List Json)

/-- json.Marshal of job arguments; the nil slice is null. -/
def marshalArgs : Args → Json
  | none => .null
  | some items => .arr items

/-- json.Unmarshal into a slice of job arguments. -/
def unmarshalArgs : Json → Option Args
  | .null => some none
  | .arr items => some (some items)
  | _ => none

/-- A row of enqueued_jobs. Times are instants in nanoseconds. -/
structure EnqueuedJob where
  id : Nat
  name : String
  payload : Json
  status : JobStatus
  attempts : Nat
  maxAttempts : Nat
  scheduledAt : Int
  executedAt : Option Int
  lastError : Option String
  lockedBy : Option String
  lockedAt : Option Int
  createdAt : Int

/-- A job as it is published to and read from the message queue. -/
structure Job where
  name : String
  args : Args
  scheduledAt : Int

/-- What a finished execution reports to its manager's result processor. -/
structure JobResult where
  jobID : Nat
  err : Option String
  attempts : Nat := 0
  maxAttempts : Nat := 0
  status : JobStatus
  ranAt : Int := 0
  nextRun : Int := 0

/-- How a call of a job handler ends. -/
inductive HandlerOutcome where
  | returned (err : Option String)
  | panicked

/-- The capacity of the channels on which managers receive job results. -/
def resultCapacity : Nat := 1000

structure PaginationResult (α : Type) where
  items : List α
  totalItems : Nat
  page : Nat
  pageSize : Nat
  totalPages : Nat
  hasNextPage : Bool
  hasPreviousPage : Bool

/-- The page of a result list, with the page count rounded up. -/
def paginate {α : Type} (items : List α) (totalItems page pageSize : Nat)
    : PaginationResult α :=
  let totalPages := (totalItems + pageSize - 1) / pageSize
  { items, totalItems, page, pageSize, totalPages,
    hasNextPage := page < totalPages, hasPreviousPage := 1 < page }

end GoFire.Store
