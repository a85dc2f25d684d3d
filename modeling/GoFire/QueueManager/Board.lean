import GoFire.Foundations.TransitionSystem
import GoFire.QueueManager.Manager
import Mathlib.Algebra.Order.Group.Multiset

/-! What the managers do to the jobs, without their goroutines: the table, the fetched rows
that are still to be tried, and the executions in progress. Every step of the managers is a
step of this board with the same event.
-/

namespace GoFire.QueueManager

open GoFire.State GoFire.Store TransitionSystem

/-- An execution in progress, from its successful LockJob to its recorded outcome: not
started, running, or with its result on the way to the store.
-/
inductive Flight where
  | waiting (job : EnqueuedJob)
  | running (job : EnqueuedJob)
  | returned (result : JobResult)

def Flight.jobID : Flight → Nat
  | .waiting job => job.id
  | .running job => job.id
  | .returned result => result.jobID

/-- The attempts argument with which the execution's outcome is recorded. -/
def Flight.attempts : Flight → Nat
  | .waiting job => job.attempts + 1
  | .running job => job.attempts + 1
  | .returned result => result.attempts

structure Board where
  store : QueueStore
  offers : Multiset EnqueuedJob
  flights : Multiset Flight

/-- What can happen to the jobs. Offers and executions can get lost at any time. -/
inductive Board.Step : Board → Event → Board → Prop where
  | forget (b : Board) {offers : Multiset EnqueuedJob} {flights : Multiset Flight}
      (fewerOffers : offers ≤ b.offers) (fewerFlights : flights ≤ b.flights)
      : Step b .internal { b with offers, flights }
  | pass (b : Board) (duration : Nat)
      : Step b .internal { b with store := { b.store with now := b.store.now + duration } }
  | insert (b : Board) (batch : List Job)
      : Step b .internal { b with store := b.store.bulkInsert batch }
  | remove (b : Board) (jobID : Nat)
      : Step b .internal { b with store := (b.store.removeByID jobID).1 }
  | fetch (b : Board) {items : List EnqueuedJob}
      (current : ∀ job ∈ items, b.store.jobs.get? job.id = some job)
      : Step b (.fetched items) { b with offers := items + b.offers }
  | lock (b : Board) {job : EnqueuedJob} {offers : Multiset EnqueuedJob} (lockedBy : String)
      (offered : b.offers = job ::ₘ offers)
      (ok : (b.store.lockJob job.id lockedBy).2 = true)
      : Step b (.locked job)
          ⟨(b.store.lockJob job.id lockedBy).1, offers, .waiting job ::ₘ b.flights⟩
  | lockLost (b : Board) {job : EnqueuedJob} {offers : Multiset EnqueuedJob}
      (lockedBy : String) (offered : b.offers = job ::ₘ offers)
      : Step b (.lockLost job.id)
          { b with store := (b.store.lockJob job.id lockedBy).1, offers }
  | start (b : Board) {job : EnqueuedJob} {flights : Multiset Flight}
      (waiting : b.flights = .waiting job ::ₘ flights)
      : Step b (.started job) { b with flights := .running job ::ₘ flights }
  | report (b : Board) {flight : Flight} {result : JobResult} {flights : Multiset Flight}
      (inProgress : b.flights = flight ::ₘ flights)
      (unreported : ∀ earlier, flight ≠ .returned earlier)
      (sameJob : result.jobID = flight.jobID) (sameAttempts : result.attempts = flight.attempts)
      : Step b (.reported result) { b with flights := .returned result ::ₘ flights }
  | record (b : Board) {result : JobResult} {flights : Multiset Flight}
      (returned : b.flights = .returned result ::ₘ flights)
      : Step b (.recorded result) { b with store := recordOutcome b.store result, flights }
  | sweep (b : Board)
      : Step b .swept { b with store := b.store.markRetryFailedJobs }
  | unlock (b : Board) {offers : Multiset EnqueuedJob} {flights : Multiset Flight}
      (timeout : Int) (fewerOffers : offers ≤ b.offers) (fewerFlights : flights ≤ b.flights)
      : Step b .unlocked ⟨b.store.unlockStaleJobs timeout, offers, flights⟩
  | manual (b : Board) (job : EnqueuedJob)
      : Step b (.manual job) { b with flights := .running job ::ₘ b.flights }

-----------------------------------------------------------------------------------------
-- Counting executions
-----------------------------------------------------------------------------------------

/-- How many of the executions are of the given job. -/
def executionsOf (flights : Multiset Flight) (jobID : Nat) : Nat :=
  flights.countP (fun flight => flight.jobID = jobID)

def Board.executions (b : Board) (jobID : Nat) : Nat := executionsOf b.flights jobID

theorem executionsOf_cons (flight : Flight) (flights : Multiset Flight) (jobID : Nat)
    : executionsOf (flight ::ₘ flights) jobID
      = executionsOf flights jobID + if flight.jobID = jobID then 1 else 0 :=
  Multiset.countP_cons _ _ _

theorem executionsOf_mono {flights flights' : Multiset Flight} (fewer : flights' ≤ flights)
    (jobID : Nat)
    : executionsOf flights' jobID ≤ executionsOf flights jobID :=
  Multiset.countP_le_of_le _ fewer

theorem executionsOf_pos {flights : Multiset Flight} {jobID : Nat}
    : 0 < executionsOf flights jobID ↔ ∃ flight ∈ flights, flight.jobID = jobID :=
  Multiset.countP_pos

-----------------------------------------------------------------------------------------
-- What a manager holds
-----------------------------------------------------------------------------------------

def Poll.offers : Poll → Multiset EnqueuedJob
  | .locking items => items
  | .acquiring _ items => items
  | _ => 0

def Poll.flights : Poll → Multiset Flight
  | .acquiring job _ => {.waiting job}
  | _ => 0

def Execution.flights (e : Execution) : Multiset Flight :=
  match e.stage with
  | .entered => {.waiting e.job}
  | .executing _ => {.running e.job}
  | .sending result => {.returned result}
  | .finished => 0

/-- A manual execution is in progress from the call of its handler on; it takes no lock. -/
def Execution.manualFlights (e : Execution) : Multiset Flight :=
  match e.stage with
  | .entered => 0
  | _ => e.flights

def Processor.flights : Processor → Multiset Flight
  | .recording result => {.returned result}
  | _ => 0

namespace Manager

def offers (m : Manager) : Multiset EnqueuedJob := m.poll.offers

def flights (m : Manager) : Multiset Flight :=
  m.poll.flights + total Execution.flights m.workers + total Execution.manualFlights m.manual
    + total (fun result => {.returned result}) m.jobResults + m.processor.flights

end Manager

/-- The board of a system. -/
def System.board (s : System) : Board :=
  ⟨s.store, total Manager.offers s.managers, total Manager.flights s.managers⟩

end GoFire.QueueManager
