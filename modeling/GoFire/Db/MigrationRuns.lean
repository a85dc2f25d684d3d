import GoFire.Db.Migrations
import GoFire.Lock.MutualExclusion

/-! Calls of Init over all runs: how far the catalog gets, that the calls execute one after the other,
and the index that none of them creates.
-/

namespace GoFire.Db

open GoFire.Lock TransitionSystem

variable {currentSchema : String} {catalog : Catalog} {log : List Event} {s s' : System}
  {event : Event} {init : Nat} {call : Call} {stage : Stage}

-----------------------------------------------------------------------------------------
-- The catalog
-----------------------------------------------------------------------------------------

/-- How many executions a call has behind it, as far as its stage says. -/
def Stage.executed (total : Nat) : Stage → Nat
  | .migrating done => done
  | .releasing none => total
  | .returned none => total
  | _ => 0

/-- The catalog is what one call reaches alone, and no call is ahead of it. -/
def Progress (currentSchema : String) (start : Catalog) (s : System) : Prop :=
  ∃ count, SettlingStep.After (executions currentSchema) start count s.catalog
    ∧ ∀ call ∈ s.calls, call.stage.executed (executions currentSchema).length ≤ count

namespace Progress

variable {locks : Lock.System}

theorem append (inv : Progress currentSchema catalog s) {process : Nat}
    (fresh : stage.executed (executions currentSchema).length = 0)
    : Progress currentSchema catalog { s with calls := s.calls ++ [⟨process, stage⟩] } := by
  obtain ⟨count, after, behind⟩ := inv
  refine ⟨count, after, fun call mem => ?_⟩
  rcases List.mem_append.mp mem with old | new
  · exact behind call old
  · rw [List.mem_singleton.mp new, fresh]
    exact Nat.zero_le count

/-- A call that gets no further keeps the progress. -/
theorem put (inv : Progress currentSchema catalog s) (found : s.calls[init]? = some call)
    (noFurther : stage.executed (executions currentSchema).length
      ≤ call.stage.executed (executions currentSchema).length)
    : Progress currentSchema catalog { s.put init call stage with locks } := by
  obtain ⟨count, after, behind⟩ := inv
  refine ⟨count, after, fun other mem => ?_⟩
  rcases List.mem_or_eq_of_mem_set mem with old | rfl
  · exact behind other old
  · exact noFurther.trans (behind call (List.mem_of_getElem? found))

/-- An execution takes the catalog on, or finds all it does done. -/
theorem take (inv : Progress currentSchema catalog s) (found : s.calls[init]? = some call)
    {done : Nat} {step : SettlingStep Catalog SqlState} {next : Catalog}
    (migrating : call.stage = .migrating done)
    (turn : (executions currentSchema)[done]? = some step) (ok : step.exec s.catalog = .ok next)
    (oneFurther : stage.executed (executions currentSchema).length ≤ done + 1)
    : Progress currentSchema catalog { s.put init call stage with catalog := next } := by
  obtain ⟨count, after, behind⟩ := inv
  have notAhead : done ≤ count := by
    have := behind call (List.mem_of_getElem? found)
    rwa [migrating] at this
  obtain ⟨count', further, past, after'⟩ := after.take_step turn notAhead ok
  refine ⟨count', after', fun other mem => ?_⟩
  rcases List.mem_or_eq_of_mem_set mem with old | rfl
  · exact (behind other old).trans further
  · exact oneFurther.trans past

theorem step (inv : Progress currentSchema catalog s) (h : s.Moves currentSchema event s')
    : Progress currentSchema catalog s' := by
  cases h with
  | called | notOpened => exact inv.append rfl
  | acquired found | acquireFailed found => exact inv.put found (Nat.zero_le _)
  | pinged found | pingFailed _ found | execFailed _ found | closedAfter _ found =>
      exact inv.put found (Nat.zero_le _)
  | executed found stage next ok => exact inv.take found stage next ok (Nat.le_refl _)
  | execLost _ found stage next ok => exact inv.take found stage next ok (Nat.zero_le _)
  | closed _ found stage =>
      refine inv.put found ?_
      rw [stage]
      exact Nat.le_refl _
  | @released _ _ _ _ failure _ found stage =>
      refine inv.put found ?_
      rw [stage]
      cases failure with
      | none => exact Nat.le_refl _
      | some failure => exact Nat.le_refl _
  | disconnected => exact inv

theorem of_run (run : Runs (Acts (System.step currentSchema)) (.initial catalog) log s)
    : Progress currentSchema catalog s := by
  refine run.invariant (fun _ s => Progress currentSchema catalog s) ?_ ?_
  · exact ⟨0, .none_taken, fun call mem => absurd mem List.not_mem_nil⟩
  · intro log s event s' inv h
    exact inv.step (System.moves_of_acts h)

end Progress

/-- In every run of calls of Init the catalog is what one call alone reaches with its first executions,
and with all of them once a call has returned without an error, whatever the other calls do.
-/
theorem catalog_of_run
    (run : Runs (Acts (System.step currentSchema)) (.initial catalog) log s)
    : ∃ count, SettlingStep.After (executions currentSchema) catalog count s.catalog
        ∧ ∀ call ∈ s.calls, call.stage = .returned none
          → count = (executions currentSchema).length := by
  obtain ⟨count, after, behind⟩ := Progress.of_run run
  refine ⟨count, after, fun call mem returned => ?_⟩
  have whole := behind call mem
  rw [returned] at whole
  exact Nat.le_antisymm after.within whole

/-- A database that nobody used yet. -/
def newDatabase : Catalog := ⟨["public"], fun _ => none⟩

/-- The first call loses its connection, the second one executes everything again. -/
def resumed : List Action :=
  [ .call 1 none, .acquire 0 0 .answered "", .ping 0 none, .exec 0 .answered "",
    .exec 0 .lost "bad connection", .call 2 none, .close 0 none, .release 0 0 .answered "",
    .acquire 1 0 .answered "", .ping 1 none, .exec 1 .answered "", .exec 1 .answered "",
    .exec 1 .answered "", .exec 1 .answered "", .exec 1 .answered "", .close 1 none,
    .release 1 0 .answered "" ]

theorem resumed_returns
    : ∃ s log, perform (System.step "public") (.initial newDatabase) resumed = some (s, log)
        ∧ ∃ call ∈ s.calls, call.stage = .returned none := by
  have stages : (perform (System.step "public") (.initial newDatabase) resumed).map
      (fun result => result.1.calls.map Call.stage)
        = some [.returned (some (.refused "bad connection")), .returned none] := by
    decide +kernel
  obtain ⟨⟨s, log⟩, performed, stages⟩ := Option.map_eq_some_iff.mp stages
  refine ⟨s, log, performed, List.mem_map.mp ?_⟩
  rw [stages]
  exact .tail _ (.head _)

/-- The second call finds the schema and the first table and completes the catalog. -/
theorem catalog_of_run_resumed
    : ∃ s log, perform (System.step "public") (.initial newDatabase) resumed = some (s, log)
        ∧ SettlingStep.After (executions "public") newDatabase 5 s.catalog := by
  obtain ⟨s, log, performed, call, mem, returned⟩ := resumed_returns
  obtain ⟨count, after, whole⟩ := catalog_of_run (runs_of_perform performed)
  have all : count = 5 := whole call mem returned
  exact ⟨s, log, performed, all ▸ after⟩

-----------------------------------------------------------------------------------------
-- One call at a time
-----------------------------------------------------------------------------------------

def Stage.isReturned : Stage → Bool
  | .returned _ => true
  | _ => false

/-- Between its Acquire and its Release. -/
def Stage.holds : Stage → Bool
  | .opened => false
  | .returned _ => false
  | _ => true

/-- A process calls Init when its earlier calls have returned, and no session ends that a call holds
the lock with.
-/
def OneAtATime (s : System) : Event → Prop
  | .called _ process => ∀ call ∈ s.calls, call.process = process → call.stage.isReturned = true
  | .locked (.disconnected session) => ∀ x ∈ s.locks.inside, x.session ≠ session
  | _ => True

instance (s : System) : ∀ event, Decidable (OneAtATime s event)
  | .called _ _ => inferInstanceAs (Decidable (∀ call ∈ s.calls, _))
  | .locked (.disconnected _) => inferInstanceAs (Decidable (∀ x ∈ s.locks.inside, _))
  | .locked (.acquired _) | .locked (.acquireFailed _ _) | .locked (.acquireLost _ _)
  | .locked (.released _) | .locked (.releaseFailed _ _) | .locked (.releaseLost _ _)
  | .notOpened _ _ | .pinged _ _ | .executed _ _ _ | .closed _ _ => isTrue trivial

/-- Nobody is inside the lock, or one call is. -/
inductive Inside (s : System) : Prop where
  | nobody (empty : s.locks.inside = [])
      (outside : ∀ (init : Nat) (call : Call), s.calls[init]? = some call
        → call.stage.holds = false)
  | one {init connection : Nat} {call : Call} (found : s.calls[init]? = some call)
      (holds : call.stage.holds = true)
      (entry : s.locks.inside = [call.request init connection])
      (others : ∀ (other : Nat) (call' : Call), s.calls[other]? = some call'
        → call'.stage.holds = true → other = init)

structure Sole (s : System) : Prop where
  exclusive : Exclusive s.locks
  apart : ∀ {init init' : Nat} {call call' : Call}, s.calls[init]? = some call
    → s.calls[init']? = some call' → call.process = call'.process
    → call.stage.isReturned = false → call'.stage.isReturned = false → init = init'
  inside : Inside s

theorem Stage.not_returned_of_holds (h : stage.holds = true) : stage.isReturned = false := by
  cases stage with
  | opened | acquired | migrating | closing | releasing => rfl
  | returned => cases h

namespace Inside

variable {locks : Lock.System}

/-- A call that stays inside, or outside, keeps who is inside. -/
theorem put (inv : Inside s) (found : s.calls[init]? = some call)
    (same : stage.holds = call.stage.holds) (kept : locks.inside = s.locks.inside)
    {next : Catalog}
    : Inside { s.put init call stage with locks, catalog := next } := by
  obtain ⟨within, -⟩ := List.getElem?_eq_some_iff.mp found
  cases inv with
  | nobody empty outside =>
      refine .nobody (kept.trans empty) fun other call' found' => ?_
      rcases getElem?_set_cases found' with ⟨-, old⟩ | ⟨rfl, rfl⟩
      · exact outside _ _ old
      · exact same.trans (outside _ _ found)
  | @one holder connection holding foundHolder holds entry others =>
      have single : ∀ other call', (s.put init call stage).calls[other]? = some call'
          → call'.stage.holds = true → other = holder := by
        intro other call' found' holds'
        rcases getElem?_set_cases found' with ⟨-, old⟩ | ⟨rfl, rfl⟩
        · exact others _ _ old holds'
        · exact others _ _ found (same.symm.trans holds')
      by_cases self : holder = init
      · obtain rfl := self
        obtain rfl := Option.some.inj (foundHolder.symm.trans found)
        exact .one (List.getElem?_set_self within) (same.trans holds) (kept.trans entry) single
      · have stays : (s.put init call stage).calls[holder]? = some holding :=
          (List.getElem?_set_ne (Ne.symm self)).trans foundHolder
        exact .one stays holds (kept.trans entry) single

/-- The only call inside leaves. -/
theorem leave (inv : Inside s) (found : s.calls[init]? = some call)
    (holds : call.stage.holds = true) (connection : Nat)
    (left : locks.inside = s.locks.leave (call.request init connection))
    (outside : stage.holds = false)
    : Inside { s.put init call stage with locks } := by
  cases inv with
  | nobody _ none => exact absurd (none _ _ found) (by simp [holds])
  | one foundHolder _ entry others =>
      obtain rfl := others _ _ found holds
      obtain rfl := Option.some.inj (foundHolder.symm.trans found)
      refine .nobody ?_ fun other call' found' => ?_
      · rw [left, Lock.System.leave, entry, List.eraseP_cons_of_pos (by simp [Request.sameHold,
          Call.request])]
      · rcases getElem?_set_cases found' with ⟨different, old⟩ | ⟨rfl, rfl⟩
        · by_contra holds'
          exact different (others _ _ old (by simpa using holds'))
        · exact outside

theorem append (inv : Inside s) {process : Nat} (outside : stage.holds = false)
    : Inside { s with calls := s.calls ++ [⟨process, stage⟩] } := by
  cases inv with
  | nobody empty none =>
      refine .nobody empty fun other call' found' => ?_
      rcases getElem?_concat_cases found' with old | ⟨-, rfl⟩
      · exact none _ _ old
      · exact outside
  | one found holds entry others =>
      refine .one ?_ holds entry fun other call' found' holds' => ?_
      · exact (List.getElem?_append_left (List.getElem?_eq_some_iff.mp found).1).trans found
      · rcases getElem?_concat_cases found' with old | ⟨-, rfl⟩
        · exact others _ _ old holds'
        · exact absurd holds' (by simp [outside])

end Inside

namespace Sole

variable {locks : Lock.System}

/-- The calls of one process are still apart when one of them goes on or returns. -/
theorem apart_put (inv : Sole s) (found : s.calls[init]? = some call)
    (running : call.stage.isReturned = false) {i j : Nat} {callI callJ : Call}
    (foundI : (s.put init call stage).calls[i]? = some callI)
    (foundJ : (s.put init call stage).calls[j]? = some callJ)
    (same : callI.process = callJ.process) (runningI : callI.stage.isReturned = false)
    (runningJ : callJ.stage.isReturned = false)
    : i = j := by
  rcases getElem?_set_cases foundI with ⟨-, oldI⟩ | ⟨rfl, rfl⟩
  · rcases getElem?_set_cases foundJ with ⟨-, oldJ⟩ | ⟨rfl, rfl⟩
    · exact inv.apart oldI oldJ same runningI runningJ
    · exact inv.apart oldI found same runningI running
  · rcases getElem?_set_cases foundJ with ⟨-, oldJ⟩ | ⟨rfl, rfl⟩
    · exact inv.apart found oldJ same running runningJ
    · rfl

/-- A step of a call that stays inside, without the lock. -/
theorem put (inv : Sole s) (found : s.calls[init]? = some call)
    (before : call.stage.holds = true) (after : stage.holds = true) {next : Catalog}
    : Sole { s.put init call stage with catalog := next } :=
  ⟨inv.exclusive, inv.apart_put found (Stage.not_returned_of_holds before),
    inv.inside.put found (after.trans before.symm) rfl⟩

theorem append (inv : Sole s) {process : Nat} (outside : stage.holds = false)
    (alone : stage.isReturned = false → ∀ call ∈ s.calls, call.process = process
      → call.stage.isReturned = true)
    : Sole { s with calls := s.calls ++ [⟨process, stage⟩] } := by
  refine ⟨inv.exclusive, ?_, inv.inside.append outside⟩
  have notBeside {i : Nat} {other : Call} (found : s.calls[i]? = some other)
      (same : other.process = process) (running : other.stage.isReturned = false)
      (new : stage.isReturned = false) : False := by
    have returned := alone new other (List.mem_of_getElem? found) same
    rw [running] at returned
    cases returned
  intro i j callI callJ foundI foundJ same runningI runningJ
  rcases getElem?_concat_cases foundI with oldI | ⟨rfl, rfl⟩
  · rcases getElem?_concat_cases foundJ with oldJ | ⟨rfl, rfl⟩
    · exact inv.apart oldI oldJ same runningI runningJ
    · exact (notBeside oldI same runningI runningJ).elim
  · rcases getElem?_concat_cases foundJ with oldJ | ⟨rfl, rfl⟩
    · exact (notBeside oldJ same.symm runningJ runningI).elim
    · rfl

/-- Whoever is inside by a session of the process of a call is the call itself. -/
theorem ownSession (inv : Sole s) (found : s.calls[init]? = some call)
    (running : call.stage.isReturned = false) (connection : Nat)
    : s.locks.OwnSession (call.request init connection) := by
  intro x mem _ sameSession
  cases inv.inside with
  | nobody empty => simp [empty] at mem
  | @one holder _ holding foundHolder holds entry =>
      rw [entry, List.mem_singleton] at mem
      subst mem
      have sameProcess : holding.process = call.process := congrArg Session.process sameSession
      obtain rfl := inv.apart foundHolder found sameProcess (Stage.not_returned_of_holds holds)
        running
      obtain rfl := Option.some.inj (foundHolder.symm.trans found)
      rfl

/-- Acquire lets a call in when nobody else is inside. -/
theorem enter (inv : Sole s) (found : s.calls[init]? = some call) (opened : call.stage = .opened)
    {connection : Nat} (moved : s.locks.Moves (.acquired (call.request init connection)) locks)
    : Sole { s.put init call .acquired with locks } := by
  obtain ⟨within, -⟩ := List.getElem?_eq_some_iff.mp found
  have running : call.stage.isReturned = false := by rw [opened]; rfl
  have exclusive := inv.exclusive.step moved (inv.ownSession found running connection)
  refine ⟨exclusive, inv.apart_put found running, ?_⟩
  cases moved with
  | acquired granted =>
      cases inv.inside with
      | nobody empty outside =>
          have entry : call.request init connection :: s.locks.inside
              = [({ call with stage := .acquired } : Call).request init connection] := by
            rw [empty]
            rfl
          refine .one (List.getElem?_set_self within) rfl entry fun other call' found' holds' => ?_
          rcases getElem?_set_cases found' with ⟨-, old⟩ | ⟨rfl, -⟩
          · exact absurd (outside _ _ old) (by simp [holds'])
          · rfl
      | @one holder connection' holding foundHolder holds entry =>
          have sameCaller : (holding.request holder connection').caller
              = (call.request init connection).caller := by
            refine exclusive.single _ ?_ _ List.mem_cons_self rfl
            exact List.mem_cons_of_mem _ (by simp [entry])
          obtain rfl : holder = init := congrArg Caller.goroutine sameCaller
          obtain rfl := Option.some.inj (foundHolder.symm.trans found)
          simp [opened, Stage.holds] at holds

theorem step (inv : Sole s) (h : s.Moves currentSchema event s') (allowed : OneAtATime s event)
    : Sole s' := by
  cases h with
  | called => exact inv.append rfl fun _ => allowed
  | notOpened => exact inv.append rfl nofun
  | acquired found stage moved => exact inv.enter found stage moved
  | @acquireFailed init connection call locks err event found stage failed moved =>
      have running : call.stage.isReturned = false := by rw [stage]; rfl
      have outside : (Stage.returned (some (.acquiring err))).holds = call.stage.holds := by
        rw [stage]
        rfl
      have kept : locks.inside = s.locks.inside := by
        rcases failed with rfl | rfl
        · cases moved with
          | acquireFailed => rfl
        · cases moved with
          | acquireLost => rfl
      refine ⟨inv.exclusive.step moved ?_, inv.apart_put found running,
        inv.inside.put found outside kept⟩
      rcases failed with rfl | rfl
      · trivial
      · trivial
  | pinged found stage | pingFailed _ found stage | executed found stage
  | execFailed _ found stage | execLost _ found stage | closed _ found stage
  | closedAfter _ found stage => exact inv.put found (by rw [stage]; rfl) rfl
  | @released init connection call locks failure event found stage releases moved =>
      have holds : call.stage.holds = true := by rw [stage]; rfl
      have running := Stage.not_returned_of_holds holds
      have own := inv.ownSession found running connection
      refine ⟨?_, inv.apart_put found running, ?_⟩
      · refine inv.exclusive.step moved ?_
        cases moved with
        | released | releaseLost => exact releases ▸ own
        | releaseFailed => trivial
        | acquired | acquireFailed | acquireLost | disconnected => cases releases
      · refine inv.inside.leave found holds connection ?_ rfl
        cases moved with
        | released | releaseLost | releaseFailed =>
            obtain rfl := releases
            rfl
        | acquired | acquireFailed | acquireLost | disconnected => cases releases
  | disconnected moved =>
      refine ⟨inv.exclusive.step moved allowed, inv.apart, ?_⟩
      cases moved with
      | disconnected =>
          cases inv.inside with
          | nobody empty outside => exact .nobody empty outside
          | one found holds entry others => exact .one found holds entry others

theorem of_run
    (run : Runs (Guarded (Acts (System.step currentSchema)) OneAtATime) (.initial catalog) log s)
    : Sole s := by
  refine run.invariant (fun _ s => Sole s) ?_ ?_
  · exact ⟨.initial, by simp [System.initial], .nobody rfl (by simp [System.initial])⟩
  · intro log s event s' inv h
    exact inv.step (System.moves_of_acts h.1) h.2

/-- Two calls that hold the lock are the same. -/
theorem same_call (inv : Sole s) {init' : Nat} {call' : Call} (found : s.calls[init]? = some call)
    (holds : call.stage.holds = true) (found' : s.calls[init']? = some call')
    (holds' : call'.stage.holds = true)
    : init = init' := by
  cases inv.inside with
  | nobody _ outside => exact absurd (outside _ _ found) (by simp [holds])
  | one _ _ _ others => exact (others _ _ found holds).trans (others _ _ found' holds').symm

end Sole

-----------------------------------------------------------------------------------------
-- Executions of different calls
-----------------------------------------------------------------------------------------

def System.Holding (s : System) (init : Nat) : Prop :=
  ∃ call, s.calls[init]? = some call ∧ call.stage.holds = true

/-- An execution of the call. -/
def Executes (init : Nat) (event : Event) : Prop :=
  ∃ done failure, event = .executed init done failure

/-- The call of Release that the call of Init makes. -/
def CallsRelease (init : Nat) (event : Event) : Prop :=
  ∃ r lockEvent, event = .locked lockEvent ∧ Releases r lockEvent ∧ r.caller.goroutine = init

namespace System.Holding

variable {locks : Lock.System} {next : Catalog} {init' : Nat}

theorem put (h : s.Holding init) (found : s.calls[init']? = some call)
    (kept : init = init' → call.stage.holds = true → stage.holds = true)
    : Holding { s.put init' call stage with locks, catalog := next } init := by
  obtain ⟨own, foundOwn, holds⟩ := h
  by_cases same : init = init'
  · subst same
    obtain rfl := Option.some.inj (foundOwn.symm.trans found)
    obtain ⟨within, -⟩ := List.getElem?_eq_some_iff.mp found
    exact ⟨_, List.getElem?_set_self within, kept rfl holds⟩
  · exact ⟨own, (List.getElem?_set_ne (Ne.symm same)).trans foundOwn, holds⟩

/-- A call holds the lock until it calls Release. -/
theorem step (h : s.Holding init) (moves : s.Moves currentSchema event s')
    (inside : ¬ CallsRelease init event)
    : s'.Holding init := by
  cases moves with
  | called | notOpened =>
      obtain ⟨own, found, holds⟩ := h
      obtain ⟨within, -⟩ := List.getElem?_eq_some_iff.mp found
      exact ⟨own, (List.getElem?_append_left within).trans found, holds⟩
  | acquireFailed found stage =>
      refine h.put found fun _ holds => ?_
      rw [stage] at holds
      cases holds
  | acquired found | pinged found | pingFailed _ found | executed found | execFailed _ found
  | execLost _ found | closed _ found | closedAfter _ found =>
      exact h.put found fun _ _ => rfl
  | released found _ releases =>
      refine h.put found fun same _ => ?_
      exact absurd ⟨_, _, rfl, releases, same.symm⟩ inside
  | disconnected => exact h

/-- Whoever executes holds the lock. -/
theorem of_executes (moves : s.Moves currentSchema event s') (executes : Executes init event)
    : s.Holding init ∧ s'.Holding init := by
  obtain ⟨done, failure, rfl⟩ := executes
  cases moves with
  | executed found stage | execFailed _ found stage | execLost _ found stage =>
      obtain ⟨within, -⟩ := List.getElem?_eq_some_iff.mp found
      exact ⟨⟨_, found, by rw [stage]; rfl⟩, ⟨_, List.getElem?_set_self within, rfl⟩⟩

theorem of_open (run : Runs (Acts (System.step currentSchema)) (.initial catalog) log s)
    : Open (Executes init) (CallsRelease init) log → s.Holding init := by
  refine run.invariant
    (fun log s => Open (Executes init) (CallsRelease init) log → s.Holding init) ?_ ?_
  · exact fun h => absurd h (not_open_nil _ _)
  · intro log s event s' inv h still
    have moves := System.moves_of_acts h
    rcases open_append.mp still with executes | ⟨before, inside⟩
    · exact (of_executes moves executes).2
    · exact (inv before).step moves inside

end System.Holding

/-- When each process calls Init once at a time, executions of two calls are never interleaved: between
one of the first and a later one of the second the first calls Release.
-/
theorem executions_apart
    (run : Runs (Guarded (Acts (System.step currentSchema)) OneAtATime) (.initial catalog) log s)
    {before between after : List Event} {init' done done' : Nat} {failure failure' : Option Failure}
    (whole : log = before ++ .executed init done failure :: between
      ++ .executed init' done' failure' :: after)
    (other : init ≠ init')
    : ∃ event ∈ between, CallsRelease init event := by
  subst whole
  refine run.closed_between (Executes init) (CallsRelease init) ⟨done, failure, rfl⟩ ?_
  intro log t t' reached taken still
  have plain : Runs (Acts (System.step currentSchema)) (.initial catalog) log t :=
    reached.map fun _ _ _ h => h.1
  obtain ⟨call, found, holds⟩ := System.Holding.of_open plain still
  obtain ⟨⟨call', found', holds'⟩, -⟩ :=
    System.Holding.of_executes (System.moves_of_acts taken.1) ⟨done', failure', rfl⟩
  exact other ((Sole.of_run reached).same_call found holds found' holds')

/-- The first call fails and releases the lock before the second one executes. -/
theorem executions_apart_handover
    : ∃ s log, perform (System.step "public") (.initial newDatabase)
          [ .call 1 none, .call 2 none, .acquire 0 0 .answered "", .ping 0 none,
            .exec 0 .refused "timeout", .close 0 none, .release 0 0 .answered "",
            .acquire 1 0 .answered "", .ping 1 none, .exec 1 .refused "timeout" ] = some (s, log)
        ∧ ∃ event ∈ log, CallsRelease 0 event := by
  have performed :=
    show perform (restrict (System.step "public") OneAtATime) (.initial newDatabase)
        [ .call 1 none, .call 2 none, .acquire 0 0 .answered "", .ping 0 none,
          .exec 0 .refused "timeout", .close 0 none, .release 0 0 .answered "",
          .acquire 1 0 .answered "", .ping 1 none, .exec 1 .refused "timeout" ]
      = some (_, _)
    from rfl
  obtain ⟨event, mem, releases⟩ :=
    @executions_apart _ _ _ _ 0 (runs_of_perform_restrict performed)
      [ .called 0 1, .called 1 2, .locked (.acquired ⟨⟨1, 0⟩, 0, ⟨1, 0⟩⟩), .pinged 0 none ]
      [ .closed 0 none, .locked (.released ⟨⟨1, 0⟩, 0, ⟨1, 0⟩⟩),
        .locked (.acquired ⟨⟨2, 1⟩, 0, ⟨2, 0⟩⟩), .pinged 1 none ]
      [] 1 0 0 (some (.refused "timeout")) (some (.refused "timeout")) rfl (by decide)
  refine ⟨_, _, perform_of_restrict performed, event, ?_, releases⟩
  exact List.mem_of_mem_drop (i := 5) (List.mem_of_mem_take (i := 4) mem)

-----------------------------------------------------------------------------------------
-- The index that has the name of its table
-----------------------------------------------------------------------------------------

/-- No index is on the table gofire_schema_state. -/
def Unindexed (currentSchema : String) (c : Catalog) : Prop :=
  ∀ index columns, c.find ⟨currentSchema, index⟩ ≠ some (.index stateTable.name columns)

/-- The table of an index. -/
def Statement.indexes : Statement → Option String
  | .createIndex _ table _ => some table.name
  | _ => none

namespace Unindexed

variable {c d : Catalog}

theorem addIfFree (inv : Unindexed currentSchema c) {name : RelationName} {relation : Relation}
    (other : ∀ columns, relation ≠ .index stateTable.name columns)
    : Unindexed currentSchema (c.addIfFree name relation) := by
  intro index columns found
  unfold Catalog.addIfFree at found
  split at found
  case h_1 => exact inv index columns found
  case h_2 =>
    simp only at found
    split at found
    case isTrue => exact other columns (Option.some.inj found)
    case isFalse => exact inv index columns found

theorem exec (inv : Unindexed currentSchema c) {statement : Statement}
    (other : statement.indexes ≠ some stateTable.name)
    (h : c.exec currentSchema statement = .ok d)
    : Unindexed currentSchema d := by
  cases statement with
  | createSchema schema =>
      obtain rfl := Except.ok.inj h
      split
      case isTrue => exact inv
      case isFalse => exact inv
  | createTable table columns =>
      simp only [Catalog.exec] at h
      split at h
      case isFalse => cases h
      case isTrue =>
        obtain rfl := Except.ok.inj h
        exact inv.addIfFree nofun
  | createIndex index table columns =>
      simp only [Catalog.exec] at h
      split at h
      case h_1 | h_2 => cases h
      case h_3 =>
        split at h
        case isFalse => cases h
        case isTrue =>
          obtain rfl := Except.ok.inj h
          refine inv.addIfFree fun columns same => other ?_
          rw [Statement.indexes, ← (Relation.index.inj same).1]
          rfl

/-- A script that indexes other tables, by induction on its statements. -/
theorem execution {statements : List Statement} (inv : Unindexed currentSchema c)
    (others : ∀ statement ∈ statements, statement.indexes ≠ some stateTable.name)
    (h : (Db.execution currentSchema statements).exec c = .ok d)
    : Unindexed currentSchema d := by
  induction statements generalizing c with
  | nil =>
      obtain rfl := Except.ok.inj h
      exact inv
  | cons statement rest ih =>
      obtain ⟨m, first, later⟩ := SettlingStep.bind_eq_ok.mp h
      exact ih (inv.exec (others statement List.mem_cons_self) first)
        (fun other mem => others other (List.mem_cons_of_mem _ mem)) later

end Unindexed

/-- The script of the table executes its CREATE TABLE only: the name of the index is taken then. -/
theorem gofireSchemaState_exec {c d : Catalog}
    (h : (execution currentSchema gofireSchemaState).exec c = .ok d)
    : ∃ columns, d = c.addIfFree (stateTable.resolve currentSchema) (.table columns) := by
  obtain ⟨m, first, later⟩ := SettlingStep.bind_eq_ok.mp h
  obtain ⟨m', second, rest⟩ := SettlingStep.bind_eq_ok.mp later
  obtain rfl := Except.ok.inj rest
  simp only [Statement.settling, Catalog.exec] at first second
  split at first
  case isFalse => cases first
  case isTrue =>
    obtain rfl := Except.ok.inj first
    split at second
    case h_1 | h_2 => cases second
    case h_3 =>
      split at second
      case isFalse => cases second
      case isTrue =>
        obtain rfl := Except.ok.inj second
        exact ⟨_, Catalog.addIfFree_of_find Catalog.find_addIfFree_self⟩

theorem Unindexed.step {c d : Catalog} {step : SettlingStep Catalog SqlState}
    (inv : Unindexed currentSchema c) (mem : step ∈ executions currentSchema)
    (h : step.exec c = .ok d)
    : Unindexed currentSchema d := by
  obtain ⟨statements, listed, rfl⟩ := List.mem_map.mp mem
  simp only [readSQLScripts, migrationFiles, List.map_cons, List.map_nil, List.mem_cons,
    List.not_mem_nil, or_false] at listed
  rcases listed with rfl | rfl | rfl | rfl | rfl
  · exact inv.execution (by decide) h
  · exact inv.execution (by decide) h
  · exact inv.execution (by decide) h
  · obtain ⟨columns, rfl⟩ := gofireSchemaState_exec h
    exact inv.addIfFree nofun
  · exact inv.execution (by decide) h

end GoFire.Db
