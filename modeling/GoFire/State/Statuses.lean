/-! The job statuses and the table of valid transitions between them. -/

namespace GoFire.State

inductive JobStatus where
  | queued
  | processing
  | succeeded
  | failed
  | retrying
  | dead
  deriving DecidableEq, Repr

def allStatuses : List JobStatus := [.queued, .processing, .succeeded, .failed, .retrying, .dead]

structure Transition where
  source : JobStatus
  target : JobStatus
  deriving DecidableEq

def validTransitions : List Transition :=
  [ ⟨.queued, .processing⟩, ⟨.processing, .succeeded⟩, ⟨.processing, .failed⟩,
    ⟨.failed, .retrying⟩, ⟨.retrying, .processing⟩, ⟨.failed, .dead⟩ ]

def isValidTransition (source target : JobStatus) : Bool :=
  validTransitions.any (fun t => t.source = source && t.target = target)

/-- The limit of attempts that Insert and BulkInsert write and MarkFailure compares with. -/
def maxRetryAttempt : Nat := 3

end GoFire.State
