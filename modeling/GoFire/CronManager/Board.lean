import GoFire.CronManager.ManagerSteps
import GoFire.Foundations.TransitionSystem
import Mathlib.Algebra.Order.Group.Multiset
import Mathlib.Tactic.Abel
import Mathlib.Tactic.GCongr

/-! What the cron managers do to the jobs, without their goroutines: the table, the fetched
rows that are still to be tried, and the jobs whose outcome is handled but whose run times are
not yet updated. Every step of the managers is a step of this board with the same event.
-/

namespace GoFire.CronManager

open GoFire.State GoFire.Store GoFire.CronParser TransitionSystem

structure Board where
  store : CronStore
  offers : Multiset CronJob
  updating : Multiset Nat

/-- What can happen to the jobs. Offers can get lost at any time. -/
inductive Board.Step : Board → Event → Board → Prop where
  | forget (b : Board) {offers : Multiset CronJob} (fewer : offers ≤ b.offers)
      : Step b .internal { b with offers }
  | pass (b : Board) (duration : Nat)
      : Step b .internal { b with store := { b.store with now := b.store.now + duration } }
  | fetch (b : Board) {items : List CronJob}
      (current : ∀ job ∈ items, b.store.jobs.get? job.id = some job
        ∧ b.store.isFetched job = true)
      : Step b (.fetched items) { b with offers := items + b.offers }
  | lock (b : Board) {job : CronJob} {offers : Multiset CronJob} (lockedBy : String)
      (offered : b.offers = job ::ₘ offers)
      (ok : (b.store.lockJob job.id lockedBy).2 = true)
      : Step b (.locked job) { b with store := (b.store.lockJob job.id lockedBy).1, offers }
  | lockLost (b : Board) {job : CronJob} {offers : Multiset CronJob} (lockedBy : String)
      (offered : b.offers = job ::ₘ offers)
      : Step b .internal { b with store := (b.store.lockJob job.id lockedBy).1, offers }
  | mark (b : Board) (result : JobResult)
      : Step b (.marked result) { b with store := markOutcome b.store result,
                                         updating := result.jobID ::ₘ b.updating }
  | unmarked (b : Board) (jobID : Nat)
      : Step b .internal { b with updating := jobID ::ₘ b.updating }
  | update (b : Board) {jobID : Nat} {updating : Multiset Nat} (lastRunAt nextRunAt : Int)
      (pending : b.updating = jobID ::ₘ updating)
      : Step b (.updated jobID nextRunAt)
          { b with store := b.store.updateJobRunTimes jobID lastRunAt nextRunAt, updating }
  | updateRefused (b : Board) {jobID : Nat} {updating : Multiset Nat}
      (pending : b.updating = jobID ::ₘ updating)
      : Step b (.updateRefused jobID) { b with updating }
  | schedule (b : Board) (jobName : String) (scheduledAt : Int) (expression : String)
      (args : Args)
      : Step b (.scheduled (b.store.addOrUpdate jobName scheduledAt expression args).2 scheduledAt)
          { b with store := (b.store.addOrUpdate jobName scheduledAt expression args).1 }
  | activate (b : Board) (jobID : Nat)
      : Step b (.activated jobID) { b with store := b.store.activate jobID }
  | deActivate (b : Board) (jobID : Nat)
      : Step b (.deactivated jobID) { b with store := b.store.deActivate jobID }
  | deActivateLost (b : Board) (jobID : Nat)
      : Step b .internal { b with store := b.store.deActivate jobID }
  | crash (b : Board) {pending : Option Nat} {offers : Multiset CronJob}
      {updating : Multiset Nat} (fewer : offers ≤ b.offers)
      (lost : b.updating = pending.toList + updating)
      : Step b (.crashed pending) { b with offers, updating }

def Poll.offers : Poll → Multiset CronJob
  | .locking items _ _ => items
  | .acquiring _ items _ _ => items
  | _ => 0

namespace Manager

def offers (m : Manager) : Multiset CronJob := m.poll.offers

def updating (m : Manager) : Multiset Nat := m.processor.pending.toList

end Manager

/-- The board of a system. -/
def System.board (s : System) : Board :=
  ⟨s.store, total Manager.offers s.managers, total Manager.updating s.managers⟩

-----------------------------------------------------------------------------------------
-- Every step of a manager is a step of the board, whatever the others hold
-----------------------------------------------------------------------------------------

/-- The step moves the manager's share of any board. -/
def Simulates (s : CronStore) (m : Manager) (next : CronStore × Manager × Event) : Prop :=
  ∀ offers updating, Board.Step ⟨s, m.offers + offers, m.updating + updating⟩ next.2.2
    ⟨next.1, next.2.1.offers + offers, next.2.1.updating + updating⟩

namespace Manager

variable {s : CronStore} {m m' : Manager} {next : CronStore × Manager × Event}

/-- A step that at most gives up offers. -/
theorem simulates_internal (fewer : m'.offers ≤ m.offers) (same : m'.updating = m.updating)
    : Simulates s m (s, m', .internal) := by
  intro offers updating
  rw [same]
  exact .forget _ (add_le_add_left fewer offers)

/-- A step of the poll loop that at most gives up offers. -/
theorem simulates_poll {poll : Poll} (fewer : poll.offers ≤ m.poll.offers)
    : Simulates s m (s, { m with poll }, .internal) := by
  have fewer : offers { m with poll } ≤ m.offers := fewer
  exact simulates_internal fewer rfl

theorem simulates_crash : Simulates s m (s, m.crashed, .crashed m.processor.pending) := by
  intro offers updating
  refine .crash _ (add_le_add_left (Multiset.zero_le _) offers) ?_
  change _ = _ + (0 + updating)
  rw [zero_add]
  rfl

/-- The items of a fetched page are rows of the table that meet the WHERE clause. -/
theorem fetchDueCronJobs_current {page pageSize totalItems : Nat} {order : List Nat}
    {result : PaginationResult CronJob}
    (h : s.fetchDueCronJobs page pageSize totalItems order = some result)
    : ∀ job ∈ result.items, s.jobs.get? job.id = some job ∧ s.isFetched job = true := by
  simp only [CronStore.fetchDueCronJobs] at h
  split at h
  case isFalse => cases h
  case isTrue ordering =>
    cases h
    intro job mem
    exact KeyedTable.mem_of_select ordering (List.mem_of_mem_filter mem)

/-- The first of the jobs that are still to be locked is an offer. -/
theorem offers_cons {job : CronJob} {items : List CronJob} {page : Nat} {more : Bool}
    (locking : m.poll = .locking (job :: items) page more)
    : m.offers = job ::ₘ (items : Multiset CronJob) := by
  rw [offers, locking, Poll.offers, Multiset.cons_coe]

/-- A step from which on a job waits for its run times. -/
theorem updating_zero {result : JobResult} (marking : m.processor = .marking result)
    : m.updating = 0 := by
  simp only [updating, marking, Processor.pending]
  rfl

theorem updating_cons {result : JobResult} (waiting : m.processor = .updating result)
    (others : Multiset Nat)
    : m.updating + others = result.jobID ::ₘ others := by
  simp only [updating, waiting, Processor.pending]
  rfl

/-- Every action of a manager moves its share of the board. -/
theorem step_simulates {arith : IntArith} {action : Action}
    (h : m.step arith s action = some next)
    : Simulates s m next := by
  cases step_moves h with
  | start => exact simulates_internal (Multiset.zero_le _) rfl
  | cancel => exact simulates_internal le_rfl rfl
  | passedOver locking =>
      apply simulates_poll
      change _ ≤ m.offers
      rw [offers_cons locking]
      exact Multiset.le_cons_self _ _
  | acquireFailed acquiring =>
      apply simulates_poll
      rw [acquiring]
      exact le_rfl
  | @pageEnded _ more =>
      cases more with
      | true => exact simulates_poll (Multiset.zero_le _)
      | false => exact simulates_poll (Multiset.zero_le _)
  | began | ended | counted | countFailed | selectFailed | woke | returned =>
      exact simulates_poll (Multiset.zero_le _)
  | fetched selecting fetched =>
      intro offers updating
      have noOffers : m.offers = 0 := by simp only [Manager.offers, selecting, Poll.offers]
      rw [noOffers, zero_add]
      exact .fetch _ (fetchDueCronJobs_current fetched)
  | locked locking ok =>
      intro offers updating
      rw [offers_cons locking, Multiset.cons_add]
      exact .lock _ m.name rfl ok
  | lockLost locking =>
      intro offers updating
      rw [offers_cons locking, Multiset.cons_add]
      exact .lockLost _ m.name rfl
  | acquired acquiring =>
      refine simulates_internal (le_of_eq ?_) rfl
      simp only [offers, acquiring, Poll.offers]
  | received receiving =>
      refine simulates_internal le_rfl ?_
      simp only [updating, receiving, Processor.pending]
  | unmarked marking =>
      intro offers updating
      rw [updating_zero marking, zero_add]
      exact .unmarked _ _
  | marked marking =>
      intro offers updating
      rw [updating_zero marking, zero_add]
      exact .mark _ _
  | updateRefused waiting =>
      intro offers updating
      have released : Manager.updating { m with processor := .receiving } + updating = updating :=
        zero_add updating
      rw [released]
      exact .updateRefused _ (updating_cons waiting updating)
  | @updated _ result waiting =>
      intro offers updating
      have released : Manager.updating { m with processor := .receiving } + updating = updating :=
        zero_add updating
      rw [released]
      exact .update _ result.ranAt result.nextRun (updating_cons waiting updating)
  | panicked => exact simulates_crash
  | crash => exact simulates_crash
  | _ => exact simulates_internal le_rfl rfl

end Manager

-----------------------------------------------------------------------------------------
-- The whole system
-----------------------------------------------------------------------------------------

/-- A new manager holds nothing. -/
theorem new_manager_board {s : System} {name : String} {handlers : List String}
    {loc : GoTime.Location}
    : System.board { s with managers := s.managers ++ [{ name, handlers, loc }] }
      = s.board := by
  have noUpdate : Manager.updating { name, handlers, loc } = 0 := rfl
  simp only [System.board, total_append, total_cons, total_nil, Manager.offers, Poll.offers,
    noUpdate, add_zero]

theorem System.schedule_board {arith : IntArith} {s s' : System} {event : Event}
    {loc : GoTime.Location} {readAt : Int} {jobName expression : String} {args : Args}
    {delivery : Delivery}
    (h : s.schedule arith loc readAt jobName expression args delivery = some (s', event))
    : Board.Step s.board event s'.board := by
  simp only [System.schedule] at h
  split at h
  case isFalse => cases h
  case isTrue =>
    cases delivery with
    | refused =>
        cases h
        exact .forget _ le_rfl
    | answered =>
        cases h
        exact .schedule s.board jobName _ expression args
    | lost =>
        cases h
        exact .schedule s.board jobName _ expression args

/-- Every step of the system is a step of its board, by the frame of the acting manager. -/
theorem System.step_board {arith : IntArith} {s s' : System} {event : Event}
    (h : Acts (System.step arith) s event s')
    : Board.Step s.board event s'.board := by
  obtain ⟨action, h⟩ := h
  cases action with
  | pass duration =>
      cases h
      exact .pass _ duration
  | schedule => exact System.schedule_board h
  | activate jobID delivery =>
      cases delivery with
      | refused =>
          cases h
          exact .forget _ le_rfl
      | answered =>
          cases h
          exact .activate _ jobID
      | lost =>
          cases h
          exact .activate _ jobID
  | deActivate jobID delivery =>
      cases delivery with
      | refused =>
          cases h
          exact .forget _ le_rfl
      | answered =>
          cases h
          exact .deActivate _ jobID
      | lost =>
          cases h
          exact .deActivateLost _ jobID
  | newManager name handlers loc =>
      cases h
      rw [new_manager_board]
      exact .forget _ le_rfl
  | manager i action =>
      obtain ⟨m, store, m', found, taken, rfl⟩ := System.manager_step h
      obtain ⟨otherOffers, offers, offersAfter⟩ := total_set Manager.offers found
      obtain ⟨otherUpdates, updates, updatesAfter⟩ := total_set Manager.updating found
      simp only [System.board, offers, offersAfter, updates, updatesAfter]
      exact Manager.step_simulates taken otherOffers otherUpdates

/-- The runs of the system under a condition on its board are runs of the board. -/
theorem System.guarded_board {arith : IntArith} {start s : System} {log : List Event}
    {Allowed : Board → Event → Prop}
    (run : Runs (Guarded (Acts (System.step arith)) (fun s => Allowed s.board)) start log s)
    : Runs (Guarded Board.Step Allowed) start.board log s.board :=
  run.map_guarded fun _ _ _ h => System.step_board h

end GoFire.CronManager
