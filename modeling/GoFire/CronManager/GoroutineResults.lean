import GoFire.CronManager.ManagerSteps
import GoFire.Managers.ExecutionResults
import GoFire.Store.CronRows

/-! A job goroutine of a cron manager, followed through the steps of all goroutines until it ends.
It sends the one result it owes, unless a handler panics and ends the process.
-/

namespace GoFire.CronManager

open GoFire.State GoFire.Store GoFire.CronParser GoFire.Managers TransitionSystem

/-- The place of the job goroutine that takes a step. -/
def Action.worker : Action → Option Nat
  | .enter i => some i
  | .execute i _ => some i
  | .send i => some i
  | .finish i => some i
  | _ => none

/-- The process is ended by something else than a handler. -/
def Action.endsProcess : Action → Bool
  | .crash => true
  | _ => false

/-- A handler of some job panics. -/
def Action.panics : Action → Bool
  | .execute _ .panicked => true
  | _ => false

variable (arith : IntArith) (behaviour : Args → HandlerOutcome)

/-- The handler of the goroutine at a place ends as its behaviour says. -/
def Manager.behaves (m : Manager) (i : Nat) : Action → Bool
  | .execute j outcome =>
      match m.workers[i]? with
      | some ⟨_, .executing args _ _⟩ => j ≠ i || outcome = behaviour args
      | _ => true
  | _ => true

/-- What the goroutine at a place sends in a step. -/
def Manager.sends (m : Manager) (i : Nat) : Action → List JobResult
  | .send j =>
      match m.workers[i]? with
      | some ⟨_, .sending result⟩ => if j = i then [result] else []
      | _ => []
  | _ => []

/-- Where the goroutine at a place is after a step; a panic ends all goroutines. -/
def Action.moves (i : Nat) : Action → Option Nat
  | .finish j => if j = i then none else some (placeAfterErase j i)
  | .execute _ .panicked => none
  | _ => some i

/-- The steps of a manager as long as nothing but a handler ends the process. -/
def view : View CronStore Manager Action where
  step s m action := (m.step arith s action).map fun next => next.2.1
  admits m i action := m.behaves behaviour i action && !action.endsProcess
  sends := Manager.sends
  moves := Action.moves

namespace Manager

variable {arith} {s s' : CronStore} {m m' : Manager} {action : Action} {event : Event}

theorem Moves.alive (h : Moves arith s m action (s', m', event))
    (survives : action.endsProcess = false) (returns : action.panics = false)
    (alive : m.poll ≠ .crashed)
    : m'.poll ≠ .crashed ∧ m'.handlers = m.handlers := by
  cases h with
  | panicked => exact absurd returns Bool.noConfusion
  | crash => exact absurd survives Bool.noConfusion
  | @pageEnded page more locking =>
      cases more with
      | true => exact ⟨Poll.noConfusion, rfl⟩
      | false => exact ⟨Poll.noConfusion, rfl⟩
  | start | began | ended | counted | countFailed | fetched | selectFailed | locked | passedOver
  | lockLost | acquired | acquireFailed | woke | returned => exact ⟨Poll.noConfusion, rfl⟩
  | _ => exact ⟨alive, rfl⟩

theorem Moves.crashed_of_panic (h : Moves arith s m action (s', m', event))
    (panics : action.panics = true)
    : m'.poll = .crashed ∧ ∀ i, action.moves i = none := by
  cases h with
  | panicked => exact ⟨rfl, fun _ => rfl⟩
  | _ => exact absurd panics Bool.noConfusion

/-- A step without a panic keeps the goroutines that it is not a step of. -/
theorem Moves.worker_kept {i : Nat} {e : Execution} (h : Moves arith s m action (s', m', event))
    (survives : action.endsProcess = false) (returns : action.panics = false)
    (found : m.workers[i]? = some e) (other : action.worker ≠ some i)
    : ∃ place, action.moves i = some place ∧ m'.workers[place]? = some e
      ∧ m.sends i action = [] := by
  have kept {j : Nat} {e' : Execution} (different : ¬ j = i)
      : (m.workers.set j e')[i]? = some e := by
    rw [List.getElem?_set_ne different, found]
  cases h with
  | panicked => exact absurd returns Bool.noConfusion
  | crash => exact absurd survives Bool.noConfusion
  | acquired =>
      refine ⟨i, rfl, ?_, rfl⟩
      rw [List.getElem?_append_left (List.getElem?_eq_some_iff.mp found).1, found]
  | entered | refused | executed =>
      exact ⟨i, rfl, kept fun same => other (congrArg some same), rfl⟩
  | @sent j =>
      have different : ¬ j = i := fun same => other (congrArg some same)
      refine ⟨i, rfl, kept different, ?_⟩
      simp only [Manager.sends]
      split
      · rw [if_neg different]
      · rfl
  | @finished j =>
      have different : ¬ j = i := fun same => other (congrArg some same)
      exact ⟨placeAfterErase j i, if_neg different,
        (getElem?_placeAfterErase different).trans found, rfl⟩
  | _ => exact ⟨i, rfl, found, rfl⟩

end Manager

-----------------------------------------------------------------------------------------
-- What the goroutine owes in each stage
-----------------------------------------------------------------------------------------

variable (handlers : List String) (job : CronJob)

/-- The execution of the job succeeds. -/
def JobSucceeds : Prop := Succeeds handlers job.name job.payload behaviour

/-- What holds of the results sent when the goroutine is in a stage. -/
def Owes (sent : List JobResult) : Stage → Prop
  | .entered => sent = []
  | .executing args _ _ => sent = [] ∧ Calls handlers job.name job.payload args
  | .sending result => sent = [] ∧ Reports job.id (JobSucceeds behaviour handlers job) result
  | .finished =>
      ∃ result, sent = [result] ∧ Reports job.id (JobSucceeds behaviour handlers job) result

/-- While no handler has panicked, the process runs and the goroutine is in a stage or has sent
its result; otherwise the process has ended.
-/
structure Sound (log : List Action) (f : Followed Manager) : Prop where
  registered : f.place ≠ none → f.manager.handlers = handlers
  alive : (∀ action ∈ log, action.panics = false) → f.manager.poll ≠ .crashed
  running : ∀ i ∈ f.place, (∀ action ∈ log, action.panics = false)
    ∧ ∃ stage, f.manager.workers[i]? = some ⟨job, stage⟩ ∧ Owes behaviour handlers job f.sent stage
  ended : f.place = none → (∀ action ∈ log, action.panics = false)
    → Owes behaviour handlers job f.sent .finished
  crashed : ¬ (∀ action ∈ log, action.panics = false) → f.manager.poll = .crashed

variable {arith behaviour handlers job}

theorem reports_jobResult {err : Option String} {succeeds : Prop} {ranAt nextRun : Int}
    (same : succeeds ↔ err = none)
    : Reports job.id succeeds (jobResult job err ranAt nextRun) := by
  cases err with
  | none => exact ⟨rfl, iff_of_true rfl (same.mpr rfl), by simp [jobResult, errorToJobStatus, same]⟩
  | some text => exact ⟨rfl, by simp [jobResult, errorToJobStatus, same],
      iff_of_true rfl fun h => by simpa using same.mp h⟩

/-- executeJob looks up the handler and decodes the payload, or has its error to send. -/
theorem owes_enter {s s' : CronStore} {m m' : Manager} {event : Event} {i : Nat} {stage : Stage}
    (h : m.enter arith s i = some (s', m', event)) (found : m.workers[i]? = some ⟨job, stage⟩)
    (known : m.handlers = handlers) {sent : List JobResult}
    (owed : Owes behaviour handlers job sent stage)
    : ∃ stage', m'.workers[i]? = some ⟨job, stage'⟩ ∧ Owes behaviour handlers job sent stage' := by
  have moved (stage' : Stage) : (m.workers.set i ⟨job, stage'⟩)[i]? = some ⟨job, stage'⟩ :=
    List.getElem?_set_self (List.getElem?_eq_some_iff.mp found).1
  have refused (text : String) (ranAt nextRun : Int)
      (uncalled : ∀ args, ¬ Calls handlers job.name job.payload args) (empty : sent = [])
      : Owes behaviour handlers job sent
          (.sending (jobResult job (some text) ranAt nextRun)) := by
    obtain ⟨fails, -⟩ := not_called behaviour uncalled
    exact ⟨empty, reports_jobResult (iff_of_false fails (by simp))⟩
  simp only [Manager.enter, found] at h
  cases stage with
  | entered =>
      simp only at h
      split at h
      case isFalse missing =>
        cases h
        refine ⟨_, moved _, refused _ _ _ (fun args called => missing ?_) owed⟩
        rw [known]
        simpa using called.1
      case isTrue present =>
        rw [known] at present
        split at h
        case h_1 args decoded =>
          cases h
          exact ⟨_, moved _, owed, by simpa using present, decoded⟩
        case h_2 undecoded =>
          cases h
          refine ⟨_, moved _, refused _ _ _ (fun args called => ?_) owed⟩
          exact absurd (undecoded.symm.trans called.2) (by simp)
  | _ => cases h

/-- The handler of the goroutine returns, and its result is to be sent. -/
theorem owes_execute {s s' : CronStore} {m m' : Manager} {event : Event} {i : Nat}
    {stage : Stage} {err : Option String}
    (h : m.execute s i (.returned err) = some (s', m', event))
    (found : m.workers[i]? = some ⟨job, stage⟩)
    (behaved : m.behaves behaviour i (.execute i (.returned err)) = true) {sent : List JobResult}
    (owed : Owes behaviour handlers job sent stage)
    : ∃ stage', m'.workers[i]? = some ⟨job, stage'⟩ ∧ Owes behaviour handlers job sent stage' := by
  simp only [Manager.execute, found] at h
  simp only [Manager.behaves, found] at behaved
  cases stage with
  | executing args =>
      obtain ⟨empty, called⟩ := owed
      have ends : .returned err = behaviour args := by simpa using behaved
      cases h
      have succeeds : JobSucceeds behaviour handlers job ↔ err = none := by
        rw [JobSucceeds, called.succeeds_iff, ← ends, HandlerOutcome.returned.injEq]
      exact ⟨_, List.getElem?_set_self (List.getElem?_eq_some_iff.mp found).1, empty,
        reports_jobResult succeeds⟩
  | _ => cases h

theorem owes_send {s s' : CronStore} {m m' : Manager} {event : Event} {i : Nat} {stage : Stage}
    (h : m.send s i = some (s', m', event)) (found : m.workers[i]? = some ⟨job, stage⟩)
    {sent : List JobResult} (owed : Owes behaviour handlers job sent stage)
    : ∃ stage', m'.workers[i]? = some ⟨job, stage'⟩
        ∧ Owes behaviour handlers job (sent ++ m.sends i (.send i)) stage' := by
  simp only [Manager.send, found] at h
  cases stage with
  | sending result =>
      obtain ⟨empty, reports⟩ := owed
      simp only at h
      split at h
      case isFalse => cases h
      case isTrue =>
        cases h
        refine ⟨.finished, List.getElem?_set_self (List.getElem?_eq_some_iff.mp found).1, ?_⟩
        simp only [Manager.sends, found, if_true, empty, List.nil_append]
        exact ⟨result, rfl, reports⟩
  | _ => cases h

theorem owes_finish {s s' : CronStore} {m m' : Manager} {event : Event} {i : Nat} {stage : Stage}
    (h : m.finish s i = some (s', m', event)) (found : m.workers[i]? = some ⟨job, stage⟩)
    {sent : List JobResult} (owed : Owes behaviour handlers job sent stage)
    : Owes behaviour handlers job sent .finished := by
  simp only [Manager.finish, found] at h
  cases stage with
  | finished => exact owed
  | _ => cases h

theorem worker_some {action : Action} {i : Nat} (h : action.worker = some i)
    (returns : action.panics = false)
    : action = .enter i ∨ (∃ err, action = .execute i (.returned err)) ∨ action = .send i
      ∨ action = .finish i := by
  cases action with
  | execute j outcome =>
      obtain rfl := Option.some.inj h
      cases outcome with
      | returned err => simp
      | panicked => cases returns
  | enter | send | finish =>
      obtain rfl := Option.some.inj h
      simp
  | _ => cases h

/-- Every followed step keeps what the goroutine owes, by whose step it is. -/
theorem Sound.step {log : List Action} {f f' : Followed Manager} {e : Action}
    (sound : Sound behaviour handlers job log f) (h : Acts (view arith behaviour).follow f e f')
    : Sound behaviour handlers job (log ++ [e]) f' := by
  obtain ⟨⟨s, action⟩, h⟩ := h
  obtain ⟨i, placed, rfl, taken, admitted, place, sent⟩ := View.follow_some h
  obtain ⟨⟨s', m', event⟩, taken, same⟩ := Option.map_eq_some_iff.mp taken
  obtain rfl : m' = f'.manager := same
  obtain ⟨behaved, survives⟩ : f.manager.behaves behaviour i e = true ∧ e.endsProcess = false := by
    simpa [view] using admitted
  obtain ⟨calm, stage, found, owed⟩ := sound.running i placed
  have known := sound.registered (by simp [Option.mem_def.mp placed])
  have moved := Manager.step_moves taken
  have calm_iff : (∀ action ∈ log ++ [e], action.panics = false) ↔ e.panics = false := by
    simpa [or_imp, forall_and] using fun _ => calm
  cases panics : e.panics with
  | true =>
      obtain ⟨dead, nowhere⟩ := moved.crashed_of_panic panics
      have gone : f'.place = none := place.trans (nowhere i)
      refine ⟨fun present => absurd gone present, fun returns => ?_, fun j running => ?_,
        fun _ returns => ?_, fun _ => dead⟩
      · exact absurd (panics.symm.trans (calm_iff.mp returns)) (by simp)
      · exact absurd (gone.symm.trans running) (by simp)
      · exact absurd (panics.symm.trans (calm_iff.mp returns)) (by simp)
  | false =>
      obtain ⟨alive, registered⟩ := moved.alive survives panics (sound.alive calm)
      have calm' := calm_iff.mpr panics
      -- the step leaves the goroutine in some stage
      have continues (place' : Nat) (places : e.moves i = some place')
          (runs : ∃ stage', f'.manager.workers[place']? = some ⟨job, stage'⟩
            ∧ Owes behaviour handlers job f'.sent stage')
          : Sound behaviour handlers job (log ++ [e]) f' := by
        refine ⟨fun _ => registered.trans known, fun _ => alive, fun j running => ?_,
          fun ended => ?_, fun wild => absurd calm' wild⟩
        · obtain rfl : place' = j := Option.some.inj ((place.trans places).symm.trans running)
          exact ⟨calm', runs⟩
        · exact absurd ((place.trans places).symm.trans ended) (by simp)
      have silent (nothing : f.manager.sends i e = []) : f'.sent = f.sent :=
        sent.trans ((congrArg (f.sent ++ ·) nothing).trans (List.append_nil f.sent))
      by_cases own : e.worker = some i
      · rcases worker_some own panics with rfl | ⟨err, rfl⟩ | rfl | rfl
        · exact continues i rfl (silent rfl ▸ owes_enter taken found known owed)
        · exact continues i rfl (silent rfl ▸ owes_execute taken found behaved owed)
        · exact continues i rfl (sent ▸ owes_send taken found owed)
        · have gone : f'.place = none := place.trans (if_pos rfl)
          refine ⟨fun present => absurd gone present, fun _ => alive, fun j running => ?_,
            fun _ _ => silent rfl ▸ owes_finish taken found owed, fun wild => absurd calm' wild⟩
          exact absurd (gone.symm.trans running) (by simp)
      · obtain ⟨place', places, kept, nothing⟩ := moved.worker_kept survives panics found own
        exact continues place' places ⟨stage, kept, silent nothing ▸ owed⟩

theorem Sound.run {m : Manager} {i : Nat} {f : Followed Manager} {log : List Action}
    (found : m.workers[i]? = some ⟨job, .entered⟩) (alive : m.poll ≠ .crashed)
    (run : Runs (Acts (view arith behaviour).follow) ⟨m, some i, []⟩ log f)
    : Sound behaviour m.handlers job log f := by
  refine run.invariant (fun log f => Sound behaviour m.handlers job log f) ?_
    fun _ _ _ _ inv h => inv.step h
  refine ⟨fun _ => rfl, fun _ => alive, fun j placed => ?_, fun absent => absurd absent (by simp),
    fun wild => absurd (by simp) wild⟩
  obtain rfl := Option.some.inj placed
  exact ⟨by simp, .entered, found, rfl⟩

-----------------------------------------------------------------------------------------
-- The goroutine comes to its end
-----------------------------------------------------------------------------------------

section Progress

variable {s s' : CronStore} {m m' : Manager} {i : Nat} {event : Event}

theorem view_step {action : Action} (taken : m.step arith s action = some (s', m', event))
    : (view arith behaviour).step s m action = some m' := by
  simp only [view, taken, Option.map_some]

theorem leads_finish (s : CronStore) (found : m.workers[i]? = some ⟨job, .finished⟩)
    (sent : List JobResult)
    : Leads (view arith behaviour).follow Followed.Done ⟨m, some i, sent⟩ := by
  have taken : m.step arith s (.finish i) = some (s, { m with
      workers := m.workers.eraseIdx i, permits := m.permits + 1 }, .internal) := by
    simp only [Manager.step, Manager.finish, found]
  exact View.leads_of (view_step taken) rfl (Leads.here (if_pos rfl))

theorem leads_send (s : CronStore) {result : JobResult}
    (found : m.workers[i]? = some ⟨job, .sending result⟩)
    (room : m.jobResults.length < resultCapacity) (sent : List JobResult)
    : Leads (view arith behaviour).follow Followed.Done ⟨m, some i, sent⟩ := by
  have taken : m.step arith s (.send i) = some (s, { m with
      workers := m.workers.set i ⟨job, .finished⟩, jobResults := m.jobResults ++ [result] },
      .internal) := by
    simp only [Manager.step, Manager.send, found, room, if_true]
  have moved := List.getElem?_set_self (a := (⟨job, .finished⟩ : Execution))
    (List.getElem?_eq_some_iff.mp found).1
  exact View.leads_of (view_step taken) rfl (leads_finish s moved _)

theorem leads_execute (s : CronStore) {args : Args} {ranAt nextRun : Int}
    (found : m.workers[i]? = some ⟨job, .executing args ranAt nextRun⟩)
    (room : m.jobResults.length < resultCapacity) (sent : List JobResult)
    : Leads (view arith behaviour).follow Followed.Done ⟨m, some i, sent⟩ := by
  have behaved
      : (view arith behaviour).admits m i (.execute i (behaviour args)) = true := by
    simp [view, Manager.behaves, found, Action.endsProcess]
  cases ends : behaviour args with
  | returned err =>
      have taken : m.step arith s (.execute i (behaviour args)) = some (s, { m with
          workers := m.workers.set i ⟨job, .sending (jobResult job err ranAt nextRun)⟩ },
          .internal) := by
        simp only [Manager.step, Manager.execute, found, ends]
      have moved := List.getElem?_set_self
        (a := (⟨job, .sending (jobResult job err ranAt nextRun)⟩ : Execution))
        (List.getElem?_eq_some_iff.mp found).1
      rw [ends] at behaved taken
      exact View.leads_of (view_step taken) behaved (leads_send s moved (by exact room) _)
  | panicked =>
      have taken : m.step arith s (.execute i (behaviour args))
          = some (s, m.crashed, .crashed m.processor.pending) := by
        simp only [Manager.step, Manager.execute, found, ends]
      rw [ends] at behaved taken
      exact View.leads_of (view_step taken) behaved (Leads.here rfl)

/-- When the channel has room, the steps of the goroutine alone bring it to its end. -/
theorem leads_enter (s : CronStore) (found : m.workers[i]? = some ⟨job, .entered⟩)
    (room : m.jobResults.length < resultCapacity) (sent : List JobResult)
    : Leads (view arith behaviour).follow Followed.Done ⟨m, some i, sent⟩ := by
  have moved (stage : Stage) := List.getElem?_set_self (a := (⟨job, stage⟩ : Execution))
    (List.getElem?_eq_some_iff.mp found).1
  have refused (text : String) (taken : m.step arith s (.enter i) = some (s, { m with
        workers := m.workers.set i
          ⟨job, .sending (jobResult job (some text) s.now (m.nextRun arith s job))⟩ }, .internal))
      : Leads (view arith behaviour).follow Followed.Done ⟨m, some i, sent⟩ :=
    View.leads_of (view_step taken) rfl (leads_send s (moved _) (by exact room) _)
  by_cases present : m.handlers.contains job.name
  · cases decoded : unmarshalArgs job.payload with
    | some args =>
        have taken : m.step arith s (.enter i) = some (s, { m with
            workers := m.workers.set i
              ⟨job, .executing args s.now (m.nextRun arith s job)⟩ }, .internal) := by
          simp only [Manager.step, Manager.enter, found, present, decoded, if_true,
            Manager.nextRun]
        exact View.leads_of (view_step taken) rfl (leads_execute s (moved _) (by exact room) _)
    | none =>
        apply refused "invalid payload"
        simp only [Manager.step, Manager.enter, found, present, decoded, if_true, Manager.nextRun]
  · apply refused "handler not found"
    simp only [Manager.step, Manager.enter, found, present, if_false, Bool.false_eq_true,
      Manager.nextRun]

end Progress

-----------------------------------------------------------------------------------------
-- The whole execution
-----------------------------------------------------------------------------------------

/-- The goroutine has sent one result, which says whether the execution succeeded and takes the
row out of processing when it is recorded, and the process is running.
-/
structure Settled (behaviour : Args → HandlerOutcome) (handlers : List String) (job : CronJob)
    (f : Followed Manager)
    : Prop where
  running : f.manager.poll ≠ .crashed
  one : ∃ result, f.sent = [result]
    ∧ Reports job.id (JobSucceeds behaviour handlers job) result
    ∧ ∀ s, ∀ row ∈ (markOutcome s result).jobs.get? job.id, row.status ≠ .processing

/-- Marking the outcome of a result takes the row of its job out of processing. -/
theorem not_processing_of_mark {result : JobResult}
    (status : result.status = .succeeded ∨ result.status = .failed) (s : CronStore)
    : ∀ row ∈ (markOutcome s result).jobs.get? result.jobID, row.status ≠ .processing := by
  intro row found
  have mem := KeyedTable.mem_of_get? found
  have same := KeyedTable.key_of_get? found
  rcases status with succeeded | failed
  · rw [markOutcome, succeeded] at mem
    obtain ⟨old, -, ⟨-, rfl⟩ | ⟨other, rfl⟩⟩ := KeyedTable.mem_update_key (by intro; rfl) mem
    · exact JobStatus.noConfusion
    · exact absurd same other
  · rw [markOutcome, failed] at mem
    obtain ⟨old, -, ⟨-, rfl⟩ | ⟨other, rfl⟩⟩ := KeyedTable.mem_update_key (by intro; rfl) mem
    · exact JobStatus.noConfusion
    · exact absurd same other

/-- An execution that has ended is settled exactly when no handler has panicked on the way. -/
theorem settled_iff {arith : IntArith} {behaviour : Args → HandlerOutcome} {m : Manager} {i : Nat}
    {job : CronJob} {log : List Action} {f : Followed Manager}
    (found : m.workers[i]? = some ⟨job, .entered⟩) (alive : m.poll ≠ .crashed)
    (run : Runs (Acts (view arith behaviour).follow) ⟨m, some i, []⟩ log f) (ended : f.Done)
    : Settled behaviour m.handlers job f ↔ ∀ action ∈ log, action.panics = false := by
  have sound := Sound.run found alive run
  constructor
  · intro h
    obtain ⟨running, -⟩ := h
    by_contra wild
    exact running (sound.crashed wild)
  · intro calm
    obtain ⟨result, one, reports⟩ := sound.ended ended calm
    refine ⟨sound.alive calm, result, one, reports, ?_⟩
    rw [← reports.job]
    apply not_processing_of_mark
    by_cases succeeds : JobSucceeds behaviour m.handlers job
    · exact Or.inl (reports.succeeded.mpr succeeds)
    · exact Or.inr (reports.failed.mpr succeeds)

end GoFire.CronManager
