import GoFire.Foundations.TransitionSystem
import GoFire.Managers.ExecutionResults
import GoFire.QueueManager.ManagerSteps
import GoFire.Store.QueueRows

/-! A job goroutine of an enqueue manager, followed through the steps of all goroutines until it
ends. It sends the one result it owes unless its handler panics.
-/

namespace GoFire.QueueManager

open GoFire.State GoFire.Store GoFire.Managers TransitionSystem

/-- The place of the job goroutine that takes a step. -/
def Action.worker : Action → Option Nat
  | .enter i => some i
  | .execute i _ => some i
  | .send i => some i
  | .finish i => some i
  | _ => none

/-- The process is ended by something else than a handler. -/
def Action.endsProcess : Action → Bool
  | .crash => true
  | .unlockStaleJobs .answered => false
  | .unlockStaleJobs _ => true
  | _ => false

variable (behaviour : Args → HandlerOutcome)

/-- The handler of the goroutine at a place ends as its behaviour says. -/
def Manager.behaves (m : Manager) (i : Nat) : Action → Bool
  | .execute j outcome =>
      match m.workers[i]? with
      | some ⟨_, .executing args⟩ => j ≠ i || outcome = behaviour args
      | _ => true
  | _ => true

/-- What the goroutine at a place sends in a step. -/
def Manager.sends (m : Manager) (i : Nat) : Action → List JobResult
  | .send j =>
      match m.workers[i]? with
      | some ⟨_, .sending result⟩ => if j = i then [result] else []
      | _ => []
  | _ => []

/-- Where the goroutine at a place is after a step. -/
def Action.moves (i : Nat) : Action → Option Nat
  | .finish j => if j = i then none else some (placeAfterErase j i)
  | _ => some i

/-- The steps of a manager as long as nothing but a handler ends the process. -/
def view : View QueueStore Manager Action where
  step s m action := (m.step s action).map fun next => next.2.1
  admits m i action := m.behaves behaviour i action && !action.endsProcess
  sends := Manager.sends
  moves := Action.moves

namespace Manager

variable {s s' : QueueStore} {m m' : Manager} {action : Action} {event : Event}

theorem Moves.alive (h : m.Moves s action (s', m', event)) (survives : action.endsProcess = false)
    (alive : m.poll ≠ .crashed)
    : m'.poll ≠ .crashed ∧ m'.handlers = m.handlers := by
  cases h with
  | unlockRefused | unlockLost | crash => exact absurd survives Bool.noConfusion
  | start | unlocked | began | ended | counted | countFailed | fetched | selectFailed | locked
  | passedOver | lockLost | acquired | acquireFailed | batchEnded | woke | returned =>
      exact ⟨Poll.noConfusion, rfl⟩
  | _ => exact ⟨alive, rfl⟩

/-- A step keeps the goroutines that it is not a step of. -/
theorem Moves.worker_kept {i : Nat} {e : Execution} (h : m.Moves s action (s', m', event))
    (survives : action.endsProcess = false) (found : m.workers[i]? = some e)
    (other : action.worker ≠ some i)
    : ∃ place, action.moves i = some place ∧ m'.workers[place]? = some e
      ∧ m.sends i action = [] := by
  have kept {j : Nat} {e' : Execution} (different : ¬ j = i)
      : (m.workers.set j e')[i]? = some e := by
    rw [List.getElem?_set_ne different, found]
  cases h with
  | unlockRefused | unlockLost | crash => exact absurd survives Bool.noConfusion
  | acquired =>
      refine ⟨i, rfl, ?_, rfl⟩
      rw [List.getElem?_append_left (List.getElem?_eq_some_iff.mp found).1, found]
  | entered | refused | executed | panicked =>
      exact ⟨i, rfl, kept fun same => other (congrArg some same), rfl⟩
  | @sent j =>
      have different : ¬ j = i := fun same => other (congrArg some same)
      refine ⟨i, rfl, kept different, ?_⟩
      simp only [Manager.sends]
      split
      · rw [if_neg different]
      · rfl
  | @finished j =>
      have different : ¬ j = i := fun same => other (congrArg some same)
      exact ⟨placeAfterErase j i, if_neg different,
        (getElem?_placeAfterErase different).trans found, rfl⟩
  | _ => exact ⟨i, rfl, found, rfl⟩

end Manager

-----------------------------------------------------------------------------------------
-- What the goroutine owes in each stage
-----------------------------------------------------------------------------------------

variable (handlers : List String) (job : EnqueuedJob)

/-- The execution of the job succeeds. -/
def JobSucceeds : Prop := Succeeds handlers job.name job.payload behaviour

def JobPanics : Prop := Panics handlers job.name job.payload behaviour

/-- What holds of the results sent when the goroutine is in a stage. -/
def Owes (sent : List JobResult) : Stage → Prop
  | .entered => sent = []
  | .executing args => sent = [] ∧ Calls handlers job.name job.payload args
  | .sending result =>
      sent = [] ∧ Reports job.id (JobSucceeds behaviour handlers job) result
        ∧ ¬ JobPanics behaviour handlers job
  | .finished =>
      Ended job.id (JobSucceeds behaviour handlers job) (JobPanics behaviour handlers job) sent

/-- The process runs, and the goroutine is in a stage or has ended. -/
structure Sound (f : Followed Manager) : Prop where
  registered : f.manager.handlers = handlers
  alive : f.manager.poll ≠ .crashed
  running : ∀ i ∈ f.place, ∃ stage, f.manager.workers[i]? = some ⟨job, stage⟩
    ∧ Owes behaviour handlers job f.sent stage
  ended : f.place = none
    → Ended job.id (JobSucceeds behaviour handlers job) (JobPanics behaviour handlers job) f.sent

variable {behaviour handlers job}

theorem reports_jobResult {err : Option String} {succeeds : Prop} (same : succeeds ↔ err = none)
    : Reports job.id succeeds (jobResult job err) := by
  cases err with
  | none => exact ⟨rfl, iff_of_true rfl (same.mpr rfl), by simp [jobResult, errorToJobStatus, same]⟩
  | some text => exact ⟨rfl, by simp [jobResult, errorToJobStatus, same],
      iff_of_true rfl fun h => by simpa using same.mp h⟩

/-- handleJob looks up the handler and decodes the payload, or has its error to send. -/
theorem owes_enter {s s' : QueueStore} {m m' : Manager} {event : Event} {i : Nat} {stage : Stage}
    (h : m.enter s i = some (s', m', event)) (found : m.workers[i]? = some ⟨job, stage⟩)
    (known : m.handlers = handlers) {sent : List JobResult}
    (owed : Owes behaviour handlers job sent stage)
    : ∃ stage', m'.workers[i]? = some ⟨job, stage'⟩ ∧ Owes behaviour handlers job sent stage' := by
  have moved (stage' : Stage) : (m.workers.set i ⟨job, stage'⟩)[i]? = some ⟨job, stage'⟩ :=
    List.getElem?_set_self (List.getElem?_eq_some_iff.mp found).1
  have refused (text : String) (uncalled : ∀ args, ¬ Calls handlers job.name job.payload args)
      (empty : sent = [])
      : Owes behaviour handlers job sent (.sending (jobResult job (some text))) := by
    obtain ⟨fails, returns⟩ := not_called behaviour uncalled
    exact ⟨empty, reports_jobResult (iff_of_false fails (by simp)), returns⟩
  simp only [Manager.enter, found] at h
  cases stage with
  | entered =>
      simp only at h
      split at h
      case isFalse missing =>
        cases h
        refine ⟨_, moved _, refused _ (fun args called => missing ?_) owed⟩
        rw [known]
        simpa using called.1
      case isTrue present =>
        rw [known] at present
        split at h
        case h_1 args decoded =>
          cases h
          exact ⟨_, moved _, owed, by simpa using present, decoded⟩
        case h_2 undecoded =>
          cases h
          refine ⟨_, moved _, refused _ (fun args called => ?_) owed⟩
          exact absurd (undecoded.symm.trans called.2) (by simp)
  | _ => cases h

/-- The handler of the goroutine returns, and its result is to be sent, or panics. -/
theorem owes_execute {s s' : QueueStore} {m m' : Manager} {event : Event} {i : Nat}
    {stage : Stage} {outcome : HandlerOutcome} (h : m.execute s i outcome = some (s', m', event))
    (found : m.workers[i]? = some ⟨job, stage⟩)
    (behaved : m.behaves behaviour i (.execute i outcome) = true) {sent : List JobResult}
    (owed : Owes behaviour handlers job sent stage)
    : ∃ stage', m'.workers[i]? = some ⟨job, stage'⟩ ∧ Owes behaviour handlers job sent stage' := by
  have moved (stage' : Stage) : (m.workers.set i ⟨job, stage'⟩)[i]? = some ⟨job, stage'⟩ :=
    List.getElem?_set_self (List.getElem?_eq_some_iff.mp found).1
  simp only [Manager.execute, found] at h
  simp only [Manager.behaves, found] at behaved
  cases stage with
  | executing args =>
      obtain ⟨empty, called⟩ := owed
      obtain rfl : outcome = behaviour args := by simpa using behaved
      cases ends : behaviour args with
      | returned err =>
          rw [ends] at h
          cases h
          have succeeds : JobSucceeds behaviour handlers job ↔ err = none := by
            rw [JobSucceeds, called.succeeds_iff, ends, HandlerOutcome.returned.injEq]
          have returns : ¬ JobPanics behaviour handlers job := by
            rw [JobPanics, called.panics_iff, ends]
            exact HandlerOutcome.noConfusion
          exact ⟨_, moved _, empty, reports_jobResult succeeds, returns⟩
      | panicked =>
          rw [ends] at h
          cases h
          exact ⟨_, moved _, Or.inr ⟨empty, called.panics_iff.mpr ends⟩⟩
  | _ => cases h

theorem owes_send {s s' : QueueStore} {m m' : Manager} {event : Event} {i : Nat} {stage : Stage}
    (h : m.send s i = some (s', m', event)) (found : m.workers[i]? = some ⟨job, stage⟩)
    {sent : List JobResult} (owed : Owes behaviour handlers job sent stage)
    : ∃ stage', m'.workers[i]? = some ⟨job, stage'⟩
        ∧ Owes behaviour handlers job (sent ++ m.sends i (.send i)) stage' := by
  simp only [Manager.send, found] at h
  cases stage with
  | sending result =>
      obtain ⟨empty, reports, returns⟩ := owed
      simp only at h
      split at h
      case isFalse => cases h
      case isTrue =>
        cases h
        refine ⟨.finished, List.getElem?_set_self (List.getElem?_eq_some_iff.mp found).1, ?_⟩
        simp only [Manager.sends, found, if_true, empty, List.nil_append]
        exact Or.inl ⟨result, rfl, reports, returns⟩
  | _ => cases h

theorem owes_finish {s s' : QueueStore} {m m' : Manager} {event : Event} {i : Nat} {stage : Stage}
    (h : m.finish s i = some (s', m', event)) (found : m.workers[i]? = some ⟨job, stage⟩)
    {sent : List JobResult} (owed : Owes behaviour handlers job sent stage)
    : Ended job.id (JobSucceeds behaviour handlers job) (JobPanics behaviour handlers job) sent := by
  simp only [Manager.finish, found] at h
  cases stage with
  | finished => exact owed
  | _ => cases h

theorem worker_some {action : Action} {i : Nat} (h : action.worker = some i)
    : action = .enter i ∨ (∃ outcome, action = .execute i outcome) ∨ action = .send i
      ∨ action = .finish i := by
  cases action with
  | enter | send | finish | execute =>
      obtain rfl := Option.some.inj h
      simp
  | _ => cases h

/-- Every followed step keeps what the goroutine owes, by whose step it is. -/
theorem Sound.step {f f' : Followed Manager} {e : Action} (sound : Sound behaviour handlers job f)
    (h : Acts (view behaviour).follow f e f')
    : Sound behaviour handlers job f' := by
  obtain ⟨⟨s, action⟩, h⟩ := h
  obtain ⟨i, placed, rfl, taken, admitted, place, sent⟩ := View.follow_some h
  obtain ⟨⟨s', m', event⟩, taken, same⟩ := Option.map_eq_some_iff.mp taken
  obtain rfl : m' = f'.manager := same
  obtain ⟨behaved, survives⟩ : f.manager.behaves behaviour i e = true ∧ e.endsProcess = false := by
    simpa [view] using admitted
  obtain ⟨stage, found, owed⟩ := sound.running i placed
  have moved := Manager.step_moves taken
  obtain ⟨alive, registered⟩ := moved.alive survives sound.alive
  -- the step leaves the goroutine in some stage
  have continues (place' : Nat) (places : e.moves i = some place')
      (runs : ∃ stage', f'.manager.workers[place']? = some ⟨job, stage'⟩
        ∧ Owes behaviour handlers job f'.sent stage')
      : Sound behaviour handlers job f' := by
    refine ⟨registered.trans sound.registered, alive, ?_, ?_⟩
    · intro j running
      obtain rfl : place' = j := Option.some.inj ((place.trans places).symm.trans running)
      exact runs
    · intro ended
      exact absurd ((place.trans places).symm.trans ended) (by simp)
  have silent (nothing : f.manager.sends i e = []) : f'.sent = f.sent :=
    sent.trans ((congrArg (f.sent ++ ·) nothing).trans (List.append_nil f.sent))
  by_cases own : e.worker = some i
  · rcases worker_some own with rfl | ⟨outcome, rfl⟩ | rfl | rfl
    · exact continues i rfl (silent rfl ▸ owes_enter taken found sound.registered owed)
    · exact continues i rfl (silent rfl ▸ owes_execute taken found behaved owed)
    · exact continues i rfl (sent ▸ owes_send taken found owed)
    · have gone : f'.place = none := place.trans (if_pos rfl)
      refine ⟨registered.trans sound.registered, alive, ?_, fun _ => ?_⟩
      · intro j running
        exact absurd (gone.symm.trans running) (by simp)
      · exact silent rfl ▸ owes_finish taken found owed
  · obtain ⟨place', places, kept, nothing⟩ := moved.worker_kept survives found own
    exact continues place' places ⟨stage, kept, silent nothing ▸ owed⟩

theorem Sound.run {f f' : Followed Manager} {log : List Action}
    (sound : Sound behaviour handlers job f) (run : Runs (Acts (view behaviour).follow) f log f')
    : Sound behaviour handlers job f' :=
  run.invariant (fun _ f => Sound behaviour handlers job f) sound fun _ _ _ _ inv h => inv.step h

-----------------------------------------------------------------------------------------
-- The goroutine comes to its end
-----------------------------------------------------------------------------------------

section Progress

variable {s s' : QueueStore} {m m' : Manager} {i : Nat} {event : Event}

theorem view_step {action : Action} (taken : m.step s action = some (s', m', event))
    : (view behaviour).step s m action = some m' := by
  simp only [view, taken, Option.map_some]

theorem leads_finish (s : QueueStore) (found : m.workers[i]? = some ⟨job, .finished⟩)
    (sent : List JobResult)
    : Leads (view behaviour).follow Followed.Done ⟨m, some i, sent⟩ := by
  have taken : m.step s (.finish i) = some (s, { m with
      workers := m.workers.eraseIdx i, permits := m.permits + 1 }, .internal) := by
    simp only [Manager.step, Manager.finish, found]
  exact View.leads_of (view_step taken) rfl (Leads.here (if_pos rfl))

theorem leads_send (s : QueueStore) {result : JobResult}
    (found : m.workers[i]? = some ⟨job, .sending result⟩)
    (room : m.jobResults.length < resultCapacity) (sent : List JobResult)
    : Leads (view behaviour).follow Followed.Done ⟨m, some i, sent⟩ := by
  have taken : m.step s (.send i) = some (s, { m with
      workers := m.workers.set i ⟨job, .finished⟩, jobResults := m.jobResults ++ [result] },
      .internal) := by
    simp only [Manager.step, Manager.send, found, room, if_true]
  have moved := List.getElem?_set_self (a := (⟨job, .finished⟩ : Execution))
    (List.getElem?_eq_some_iff.mp found).1
  exact View.leads_of (view_step taken) rfl (leads_finish s moved _)

theorem leads_execute (s : QueueStore) {args : Args}
    (found : m.workers[i]? = some ⟨job, .executing args⟩)
    (room : m.jobResults.length < resultCapacity) (sent : List JobResult)
    : Leads (view behaviour).follow Followed.Done ⟨m, some i, sent⟩ := by
  have behaved : (view behaviour).admits m i (.execute i (behaviour args)) = true := by
    simp [view, Manager.behaves, found, Action.endsProcess]
  have moved (stage : Stage) := List.getElem?_set_self (a := (⟨job, stage⟩ : Execution))
    (List.getElem?_eq_some_iff.mp found).1
  cases ends : behaviour args with
  | returned err =>
      have taken : m.step s (.execute i (behaviour args)) = some (s, { m with
          workers := m.workers.set i ⟨job, .sending (jobResult job err)⟩ },
          .reported (jobResult job err)) := by
        simp only [Manager.step, Manager.execute, found, ends]
      exact View.leads_of (view_step taken) behaved (leads_send s (moved _) (by exact room) _)
  | panicked =>
      have taken : m.step s (.execute i (behaviour args)) = some (s, { m with
          workers := m.workers.set i ⟨job, .finished⟩ }, .internal) := by
        simp only [Manager.step, Manager.execute, found, ends]
      exact View.leads_of (view_step taken) behaved (leads_finish s (moved _) _)

/-- When the channel has room, the steps of the goroutine alone bring it to its end. -/
theorem leads_enter (s : QueueStore) (found : m.workers[i]? = some ⟨job, .entered⟩)
    (room : m.jobResults.length < resultCapacity) (sent : List JobResult)
    : Leads (view behaviour).follow Followed.Done ⟨m, some i, sent⟩ := by
  have moved (stage : Stage) := List.getElem?_set_self (a := (⟨job, stage⟩ : Execution))
    (List.getElem?_eq_some_iff.mp found).1
  have refused (text : String) (taken : m.step s (.enter i) = some (s, { m with
        workers := m.workers.set i ⟨job, .sending (jobResult job (some text))⟩ },
        .reported (jobResult job (some text))))
      : Leads (view behaviour).follow Followed.Done ⟨m, some i, sent⟩ :=
    View.leads_of (view_step taken) rfl (leads_send s (moved _) (by exact room) _)
  by_cases present : m.handlers.contains job.name
  · cases decoded : unmarshalArgs job.payload with
    | some args =>
        have taken : m.step s (.enter i) = some (s, { m with
            workers := m.workers.set i ⟨job, .executing args⟩ }, .started job) := by
          simp only [Manager.step, Manager.enter, found, present, decoded, if_true]
        exact View.leads_of (view_step taken) rfl (leads_execute s (moved _) (by exact room) _)
    | none =>
        apply refused "invalid payload"
        simp only [Manager.step, Manager.enter, found, present, decoded, if_true]
  · apply refused "handler not found"
    simp only [Manager.step, Manager.enter, found, present, if_false, Bool.false_eq_true]

end Progress

-----------------------------------------------------------------------------------------
-- The whole execution
-----------------------------------------------------------------------------------------

/-- The goroutine has sent one result, which says whether the execution succeeded and takes the
row out of processing when it is recorded, and the process is running.
-/
structure Settled (behaviour : Args → HandlerOutcome) (handlers : List String)
    (job : EnqueuedJob) (f : Followed Manager)
    : Prop where
  running : f.manager.poll ≠ .crashed
  one : ∃ result, f.sent = [result]
    ∧ Reports job.id (JobSucceeds behaviour handlers job) result
    ∧ ∀ s, ∀ row ∈ (recordOutcome s result).jobs.get? job.id, row.status ≠ .processing

/-- Recording a result takes the row of its job out of processing. -/
theorem not_processing_of_record {result : JobResult}
    (status : result.status = .succeeded ∨ result.status = .failed) (s : QueueStore)
    : ∀ row ∈ (recordOutcome s result).jobs.get? result.jobID, row.status ≠ .processing := by
  intro row found
  have mem := KeyedTable.mem_of_get? found
  have same := KeyedTable.key_of_get? found
  rcases status with succeeded | failed
  · rw [recordOutcome, succeeded] at mem
    obtain ⟨old, -, ⟨-, rfl⟩ | ⟨other, rfl⟩⟩ := QueueStore.mem_markSuccess mem
    · exact JobStatus.noConfusion
    · exact absurd same other
  · rw [recordOutcome, failed] at mem
    obtain ⟨old, -, ⟨-, rfl⟩ | ⟨other, rfl⟩⟩ := QueueStore.mem_markFailure result.maxAttempts mem
    · rcases QueueStore.failureStatus_cases result.attempts with dead | retried
      · simp [dead]
      · simp [retried]
    · exact absurd same other

/-- An execution that has ended is settled exactly when its handler did not panic. -/
theorem settled_iff {behaviour : Args → HandlerOutcome} {m : Manager} {i : Nat}
    {job : EnqueuedJob} {log : List Action} {f : Followed Manager}
    (found : m.workers[i]? = some ⟨job, .entered⟩) (alive : m.poll ≠ .crashed)
    (run : Runs (Acts (view behaviour).follow) ⟨m, some i, []⟩ log f) (ended : f.Done)
    : Settled behaviour m.handlers job f ↔ ¬ JobPanics behaviour m.handlers job := by
  have start : Sound behaviour m.handlers job ⟨m, some i, []⟩ := by
    refine ⟨rfl, alive, fun j placed => ?_, fun absent => absurd absent (by simp)⟩
    obtain rfl := Option.some.inj placed
    exact ⟨.entered, found, rfl⟩
  have sound := start.run run
  rcases sound.ended ended with ⟨result, one, reports, returns⟩ | ⟨nothing, panics⟩
  · refine iff_of_true ⟨sound.alive, result, one, reports, ?_⟩ returns
    rw [← reports.job]
    apply not_processing_of_record
    by_cases succeeds : JobSucceeds behaviour m.handlers job
    · exact Or.inl (reports.succeeded.mpr succeeds)
    · exact Or.inr (reports.failed.mpr succeeds)
  · refine iff_of_false ?_ (not_not.mpr panics)
    intro h
    obtain ⟨-, result, one, -⟩ := h
    rw [nothing] at one
    cases one

end GoFire.QueueManager
