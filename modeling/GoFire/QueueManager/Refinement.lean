import GoFire.QueueManager.Board
import GoFire.QueueManager.ManagerSteps
import GoFire.Store.QueueRows
import Mathlib.Tactic.Abel
import Mathlib.Tactic.GCongr

/-! Every step of a system of managers is a step of its board with the same event. A manager
moves only its own share of the board, whatever the others hold.
-/

namespace GoFire.QueueManager

open GoFire.State GoFire.Store TransitionSystem

/-- The step moves the manager's share of any board. -/
def Simulates (s : QueueStore) (m : Manager) (next : QueueStore × Manager × Event) : Prop :=
  ∀ offers flights, Board.Step ⟨s, m.offers + offers, m.flights + flights⟩ next.2.2
    ⟨next.1, next.2.1.offers + offers, next.2.1.flights + flights⟩

namespace Manager

variable {s : QueueStore} {m m' : Manager} {next : QueueStore × Manager × Event}

-----------------------------------------------------------------------------------------
-- Kinds of steps
-----------------------------------------------------------------------------------------

/-- A step that at most gives up holdings. -/
theorem simulates_internal (fewerOffers : m'.offers ≤ m.offers)
    (fewerFlights : m'.flights ≤ m.flights)
    : Simulates s m (s, m', .internal) :=
  fun _ _ => .forget _ (add_le_add_left fewerOffers _) (add_le_add_left fewerFlights _)

/-- A step of the poll loop that at most gives up holdings. -/
theorem simulates_poll {poll : Poll} (fewerOffers : poll.offers ≤ m.poll.offers)
    (fewerFlights : poll.flights ≤ m.poll.flights)
    : Simulates s m (s, { m with poll }, .internal) := by
  have fewer : offers { m with poll } ≤ m.offers := fewerOffers
  apply simulates_internal fewer
  unfold flights
  gcongr

/-- A step that replaces one execution and touches no offer. -/
theorem simulates_flight {event : Event} {old new : Flight} {rest : Multiset Flight}
    (sameOffers : m'.offers = m.offers) (held : m.flights = old ::ₘ rest)
    (holds : m'.flights = new ::ₘ rest)
    (step : ∀ (b : Board) flights, b.flights = old ::ₘ flights
      → Board.Step b event { b with flights := new ::ₘ flights })
    : Simulates s m (s, m', event) := by
  intro offers flights
  have moved := step ⟨s, m.offers + offers, m.flights + flights⟩ (rest + flights)
    (by rw [held, Multiset.cons_add])
  rw [sameOffers, holds, Multiset.cons_add]
  exact moved

theorem simulates_crash : Simulates s m (s, m.crashed, .internal) :=
  simulates_internal (Multiset.zero_le _) (Multiset.zero_le _)

/-- Moving one job goroutine on replaces its part of the manager's executions. -/
theorem flights_set_worker {i : Nat} {e : Execution} (h : m.workers[i]? = some e)
    : ∃ rest, m.flights = e.flights + rest
      ∧ ∀ e', flights { m with workers := m.workers.set i e' } = e'.flights + rest := by
  obtain ⟨rest, all, others⟩ := total_set Execution.flights h
  refine ⟨m.poll.flights + rest + total Execution.manualFlights m.manual
    + total (fun result => {.returned result}) m.jobResults + m.processor.flights, ?_, ?_⟩
  · rw [flights, all]
    abel
  · intro e'
    rw [flights, others]
    abel

theorem flights_set_manual {i : Nat} {e : Execution} (h : m.manual[i]? = some e)
    : ∃ rest, m.flights = e.manualFlights + rest
      ∧ ∀ e', flights { m with manual := m.manual.set i e' } = e'.manualFlights + rest := by
  obtain ⟨rest, all, others⟩ := total_set Execution.manualFlights h
  refine ⟨m.poll.flights + total Execution.flights m.workers + rest
    + total (fun result => {.returned result}) m.jobResults + m.processor.flights, ?_, ?_⟩
  · rw [flights, all]
    abel
  · intro e'
    rw [flights, others]
    abel

/-- Results at the end of the channel are part of the manager's executions. -/
theorem flights_append_result (m : Manager) (result : JobResult)
    : flights { m with jobResults := m.jobResults ++ [result] }
      = .returned result ::ₘ m.flights := by
  rw [flights, total_append, total_cons, total_nil, flights, ← Multiset.singleton_add]
  abel

/-- The first of the jobs that are still to be locked is an offer. -/
theorem offers_cons {job : EnqueuedJob} {items : List EnqueuedJob}
    (locking : m.poll = .locking (job :: items))
    : m.offers = job ::ₘ (items : Multiset EnqueuedJob) := by
  rw [offers, locking, Poll.offers, Multiset.cons_coe]

/-- While jobs are to be locked the poll loop is no part of an execution. -/
theorem flights_locking {items items' : List EnqueuedJob} (locking : m.poll = .locking items)
    : flights { m with poll := .locking items' } = m.flights := by
  simp only [flights, locking, Poll.flights]

/-- The result in the hand of the result processor. -/
theorem flights_recording {result : JobResult} (recording : m.processor = .recording result)
    : m.flights = .returned result ::ₘ flights { m with processor := .receiving } := by
  simp only [flights, recording, Processor.flights, add_zero]
  rw [add_comm, Multiset.singleton_add]

-----------------------------------------------------------------------------------------
-- The poll loop
-----------------------------------------------------------------------------------------

theorem start_simulates {workerCount batchSize : Nat}
    : Simulates s m (s, { m with poll := .unlocking, permits := workerCount, batchSize,
                                 processor := .receiving }, .internal) := by
  apply simulates_internal (Multiset.zero_le _)
  unfold flights
  gcongr
  · exact Multiset.zero_le _
  · exact Multiset.zero_le _

theorem unlocked_simulates
    : Simulates s m (s.unlockStaleJobs (5 * GoTime.minute), { m with poll := .polling },
        .unlocked) := by
  have fewer : flights { m with poll := .polling } ≤ m.flights := by
    unfold flights
    gcongr
    exact Multiset.zero_le _
  exact fun _ _ => .unlock _ (5 * GoTime.minute) (add_le_add_left (Multiset.zero_le _) _)
    (add_le_add_left fewer _)

theorem fetched_simulates {now : Int} {totalItems pageSize : Nat} {order : List Nat}
    {result : PaginationResult EnqueuedJob} (selecting : m.poll = .selecting now totalItems)
    (fetched : s.fetchDueJobs 1 pageSize pollStatuses (some now) totalItems order = some result)
    : Simulates s m (s, { m with poll := .locking result.items }, .fetched result.items) := by
  intro offers flights
  have noOffers : m.offers = 0 := by simp only [Manager.offers, selecting, Poll.offers]
  have sameFlights : Manager.flights { m with poll := .locking result.items } = m.flights := by
    simp only [Manager.flights, selecting, Poll.flights]
  rw [noOffers, zero_add]
  simp only [sameFlights, Manager.offers, Poll.offers]
  exact .fetch _ (fun job mem => (QueueStore.mem_fetchDueJobs fetched mem).1)

theorem locked_simulates {job : EnqueuedJob} {items : List EnqueuedJob}
    (locking : m.poll = .locking (job :: items)) (ok : (s.lockJob job.id m.name).2 = true)
    : Simulates s m ((s.lockJob job.id m.name).1, { m with poll := .acquiring job items },
        .locked job) := by
  intro offers flights
  have oneMore : Manager.flights { m with poll := .acquiring job items }
      = .waiting job ::ₘ m.flights := by
    simp only [Manager.flights, locking, Poll.flights, zero_add]
    rw [← Multiset.singleton_add]
    abel
  rw [offers_cons locking, Multiset.cons_add]
  simp only [oneMore, Manager.offers, Poll.offers, Multiset.cons_add]
  exact .lock _ m.name rfl ok

theorem passedOver_simulates {job : EnqueuedJob} {items : List EnqueuedJob}
    (locking : m.poll = .locking (job :: items))
    : Simulates s m (s, { m with poll := .locking items }, .internal) := by
  apply simulates_poll
  · change (items : Multiset EnqueuedJob) ≤ m.offers
    rw [offers_cons locking]
    exact Multiset.le_cons_self _ _
  · exact Multiset.zero_le _

theorem lockLost_simulates {job : EnqueuedJob} {items : List EnqueuedJob}
    (locking : m.poll = .locking (job :: items))
    : Simulates s m ((s.lockJob job.id m.name).1, { m with poll := .locking items },
        .lockLost job.id) := by
  intro offers flights
  rw [offers_cons locking, Multiset.cons_add, flights_locking locking]
  exact .lockLost _ m.name rfl

theorem acquired_simulates {job : EnqueuedJob} {items : List EnqueuedJob}
    (acquiring : m.poll = .acquiring job items)
    : Simulates s m (s, { m with poll := .locking items, permits := m.permits - 1,
                                 workers := m.workers ++ [⟨job, .entered⟩] }, .internal) := by
  apply simulates_internal
  · simp only [offers, acquiring, Poll.offers, le_refl]
  · simp only [flights, acquiring, Poll.flights, total_append, total_cons, total_nil,
      Execution.flights]
    apply le_of_eq
    abel

-----------------------------------------------------------------------------------------
-- Job goroutines and manual executions
-----------------------------------------------------------------------------------------

/-- A report about a job in progress, from before its handler starts or from its end. -/
theorem report_step {flight : Flight} {job : EnqueuedJob} (err : Option String)
    (unreported : ∀ earlier, flight ≠ .returned earlier) (sameJob : flight.jobID = job.id)
    (sameAttempts : flight.attempts = job.attempts + 1)
    (b : Board) (flights : Multiset Flight) (inProgress : b.flights = flight ::ₘ flights)
    : Board.Step b (.reported (jobResult job err))
        { b with flights := .returned (jobResult job err) ::ₘ flights } :=
  .report b inProgress unreported sameJob.symm sameAttempts.symm

section Worker

variable {i : Nat} {job : EnqueuedJob} {args : Args} {err : Option String} {result : JobResult}

theorem entered_simulates (found : m.workers[i]? = some ⟨job, .entered⟩)
    : Simulates s m (s, { m with workers := m.workers.set i ⟨job, .executing args⟩ },
        .started job) := by
  obtain ⟨rest, held, holds⟩ := flights_set_worker found
  rw [Execution.flights, Multiset.singleton_add] at held
  refine simulates_flight rfl held ?_ (fun b flights waiting => .start b waiting)
  rw [holds, Execution.flights, Multiset.singleton_add]

theorem refused_simulates (found : m.workers[i]? = some ⟨job, .entered⟩)
    : Simulates s m
        (s, { m with workers := m.workers.set i ⟨job, .sending (jobResult job err)⟩ },
          .reported (jobResult job err)) := by
  obtain ⟨rest, held, holds⟩ := flights_set_worker found
  rw [Execution.flights, Multiset.singleton_add] at held
  refine simulates_flight rfl held ?_ (report_step err nofun rfl rfl)
  rw [holds, Execution.flights, Multiset.singleton_add]

theorem executed_simulates (found : m.workers[i]? = some ⟨job, .executing args⟩)
    : Simulates s m
        (s, { m with workers := m.workers.set i ⟨job, .sending (jobResult job err)⟩ },
          .reported (jobResult job err)) := by
  obtain ⟨rest, held, holds⟩ := flights_set_worker found
  rw [Execution.flights, Multiset.singleton_add] at held
  refine simulates_flight rfl held ?_ (report_step err nofun rfl rfl)
  rw [holds, Execution.flights, Multiset.singleton_add]

theorem panicked_simulates (found : m.workers[i]? = some ⟨job, .executing args⟩)
    : Simulates s m (s, { m with workers := m.workers.set i ⟨job, .finished⟩ },
        .internal) := by
  obtain ⟨rest, held, holds⟩ := flights_set_worker found
  refine simulates_internal le_rfl ?_
  rw [held, holds, Execution.flights, Execution.flights, zero_add, Multiset.singleton_add]
  exact Multiset.le_cons_self _ _

theorem sent_simulates (found : m.workers[i]? = some ⟨job, .sending result⟩)
    : Simulates s m (s, { m with workers := m.workers.set i ⟨job, .finished⟩,
                                 jobResults := m.jobResults ++ [result] }, .internal) := by
  obtain ⟨rest, held, holds⟩ := flights_set_worker found
  have moved := flights_append_result { m with workers := m.workers.set i ⟨job, .finished⟩ }
    result
  refine simulates_internal le_rfl ?_
  rw [held, moved, holds, Execution.flights, Execution.flights, zero_add,
    Multiset.singleton_add]

theorem finished_simulates (found : m.workers[i]? = some ⟨job, .finished⟩)
    : Simulates s m (s, { m with workers := m.workers.eraseIdx i, permits := m.permits + 1 },
        .internal) := by
  refine simulates_internal le_rfl ?_
  unfold flights
  rw [total_eraseIdx Execution.flights found, Execution.flights, zero_add]

theorem foundByID_simulates
    : Simulates s m (s, { m with manual := m.manual ++ [⟨job, .entered⟩] }, .internal) := by
  refine simulates_internal le_rfl ?_
  simp only [flights, total_append, total_cons, total_nil, Execution.manualFlights, add_zero,
    le_refl]

theorem enteredManual_simulates (found : m.manual[i]? = some ⟨job, .entered⟩)
    : Simulates s m (s, { m with manual := m.manual.set i ⟨job, .executing args⟩ },
        .manual job) := by
  obtain ⟨rest, held, holds⟩ := flights_set_manual found
  rw [Execution.manualFlights, zero_add] at held
  intro offers flights
  rw [holds, Execution.manualFlights, Execution.flights, ← held, Multiset.singleton_add,
    Multiset.cons_add]
  exact .manual _ job

theorem refusedManual_simulates (found : m.manual[i]? = some ⟨job, .entered⟩)
    : Simulates s m (s, { m with manual := m.manual.set i ⟨job, .finished⟩ }, .internal) := by
  obtain ⟨rest, held, holds⟩ := flights_set_manual found
  refine simulates_internal le_rfl ?_
  rw [held, holds, Execution.manualFlights, Execution.manualFlights, Execution.flights]

theorem executedManual_simulates (found : m.manual[i]? = some ⟨job, .executing args⟩)
    : Simulates s m
        (s, { m with manual := m.manual.set i ⟨job, .sending (jobResult job err)⟩ },
          .reported (jobResult job err)) := by
  obtain ⟨rest, held, holds⟩ := flights_set_manual found
  rw [Execution.manualFlights, Execution.flights, Multiset.singleton_add] at held
  refine simulates_flight rfl held ?_ (report_step err nofun rfl rfl)
  rw [holds, Execution.manualFlights, Execution.flights, Multiset.singleton_add]

theorem panickedManual_simulates (found : m.manual[i]? = some ⟨job, .executing args⟩)
    : Simulates s m (s, { m with manual := m.manual.set i ⟨job, .finished⟩ }, .internal) := by
  obtain ⟨rest, held, holds⟩ := flights_set_manual found
  refine simulates_internal le_rfl ?_
  rw [held, holds, Execution.manualFlights, Execution.manualFlights, Execution.flights,
    Execution.flights, zero_add, Multiset.singleton_add]
  exact Multiset.le_cons_self _ _

theorem sentManual_simulates (found : m.manual[i]? = some ⟨job, .sending result⟩)
    : Simulates s m (s, { m with manual := m.manual.set i ⟨job, .finished⟩,
                                 jobResults := m.jobResults ++ [result] }, .internal) := by
  obtain ⟨rest, held, holds⟩ := flights_set_manual found
  have moved := flights_append_result { m with manual := m.manual.set i ⟨job, .finished⟩ }
    result
  refine simulates_internal le_rfl ?_
  rw [held, moved, holds, Execution.manualFlights, Execution.manualFlights,
    Execution.flights, Execution.flights, zero_add, Multiset.singleton_add]

end Worker

-----------------------------------------------------------------------------------------
-- The result processor
-----------------------------------------------------------------------------------------

theorem received_simulates {result : JobResult} {rest : List JobResult}
    (receiving : m.processor = .receiving) (buffered : m.jobResults = result :: rest)
    : Simulates s m (s, { m with processor := .recording result, jobResults := rest },
        .internal) := by
  refine simulates_internal le_rfl ?_
  apply le_of_eq
  simp only [flights, receiving, buffered, Processor.flights, total_cons, add_zero]
  abel

theorem unrecorded_simulates {result : JobResult} (recording : m.processor = .recording result)
    : Simulates s m (s, { m with processor := .receiving }, .internal) := by
  refine simulates_internal le_rfl ?_
  rw [flights_recording recording]
  exact Multiset.le_cons_self _ _

theorem recorded_simulates {result : JobResult} (recording : m.processor = .recording result)
    : Simulates s m (recordOutcome s result, { m with processor := .receiving },
        .recorded result) := by
  intro offers flights
  rw [flights_recording recording, Multiset.cons_add]
  exact .record _ rfl

theorem stopped_simulates (receiving : m.processor = .receiving)
    : Simulates s m (s, { m with processor := .stopped }, .internal) := by
  refine simulates_internal le_rfl ?_
  simp only [flights, receiving, Processor.flights, le_refl]

/-- Every action of a manager moves its share of the board. -/
theorem step_simulates {action : Action} (h : m.step s action = some next)
    : Simulates s m next := by
  cases step_moves h with
  | start => exact start_simulates
  | unlocked => exact unlocked_simulates
  | unlockRefused | crash => exact simulates_crash
  | unlockLost =>
      exact fun _ _ => .unlock _ (5 * GoTime.minute) (add_le_add_left (Multiset.zero_le _) _)
        (add_le_add_left (Multiset.zero_le _) _)
  | began | ended | counted | countFailed | selectFailed | acquireFailed | batchEnded | woke
  | returned => exact simulates_poll (Multiset.zero_le _) (Multiset.zero_le _)
  | fetched selecting fetched => exact fetched_simulates selecting fetched
  | locked locking ok => exact locked_simulates locking ok
  | passedOver locking => exact passedOver_simulates locking
  | lockLost locking => exact lockLost_simulates locking
  | acquired acquiring => exact acquired_simulates acquiring
  | entered found => exact entered_simulates found
  | refused found => exact refused_simulates found
  | executed found => exact executed_simulates found
  | panicked found => exact panicked_simulates found
  | sent found => exact sent_simulates found
  | finished found => exact finished_simulates found
  | foundByID => exact foundByID_simulates
  | enteredManual found => exact enteredManual_simulates found
  | refusedManual found => exact refusedManual_simulates found
  | executedManual found => exact executedManual_simulates found
  | panickedManual found => exact panickedManual_simulates found
  | sentManual found => exact sentManual_simulates found
  | received receiving buffered => exact received_simulates receiving buffered
  | unrecorded recording => exact unrecorded_simulates recording
  | recorded recording => exact recorded_simulates recording
  | stopped receiving => exact stopped_simulates receiving
  | swept => exact fun _ _ => .sweep _
  | cancel | notFound | ticked | retryLocked | sweepFailed | retryReleased =>
      exact simulates_internal le_rfl le_rfl

end Manager

-----------------------------------------------------------------------------------------
-- The whole system
-----------------------------------------------------------------------------------------

/-- A new manager holds nothing. -/
theorem new_manager_board {s : System} {name : String} {handlers : List String}
    : System.board { s with managers := s.managers ++ [{ name, handlers }] } = s.board := by
  simp only [System.board, total_append, total_cons, total_nil, Manager.offers, Manager.flights,
    Poll.offers, Poll.flights, Processor.flights, add_zero]

/-- Every step of the system is a step of its board, by the frame of the acting manager. -/
theorem System.step_board {s s' : System} {event : Event} (h : Acts System.step s event s')
    : Board.Step s.board event s'.board := by
  obtain ⟨action, h⟩ := h
  cases action with
  | pass duration =>
      cases h
      exact .pass _ duration
  | insert jobName enqueueAt args =>
      cases h
      exact .insert s.board [⟨jobName, args, enqueueAt⟩]
  | bulkInsert batch =>
      cases h
      exact .insert _ batch
  | removeByID jobID =>
      cases h
      exact .remove _ jobID
  | newManager name handlers =>
      cases h
      rw [new_manager_board]
      exact .forget _ le_rfl le_rfl
  | manager i action =>
      obtain ⟨m, store, m', found, taken, rfl⟩ := System.manager_step h
      obtain ⟨otherOffers, offers, offersAfter⟩ := total_set Manager.offers found
      obtain ⟨otherFlights, flights, flightsAfter⟩ := total_set Manager.flights found
      simp only [System.board, offers, offersAfter, flights, flightsAfter]
      exact Manager.step_simulates taken otherOffers otherFlights

/-- The runs of the system are runs of the board, with the same log. -/
theorem System.runs_board {start s : System} {log : List Event}
    (run : Runs (Acts System.step) start log s)
    : Runs Board.Step start.board log s.board :=
  run.map fun _ _ _ h => System.step_board h

theorem System.guarded_board {start s : System} {log : List Event}
    {Allowed : Board → Event → Prop}
    (run : Runs (Guarded (Acts System.step) (fun s => Allowed s.board)) start log s)
    : Runs (Guarded Board.Step Allowed) start.board log s.board :=
  run.map_guarded fun _ _ _ h => System.step_board h

end GoFire.QueueManager
