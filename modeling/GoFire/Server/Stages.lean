import GoFire.Server.Lifecycle

/-! What the log says about the stages of the calls: a stage comes to have a property at one event of
its own call, so that in every run the property and the event go together.
-/

namespace GoFire.Server

open TransitionSystem

variable {F : Type}

/-- The server whose call makes the event. -/
def Event.server : Event → Option Nat
  | .registered server _ => some server
  | .failed server _ => some server
  | .derived server => some server
  | .assigned server => some server
  | .added server => some server
  | .launched server => some server
  | .used (.manager server _) _ => some server
  | .used (.sync server) _ => some server
  | .returned server _ => some server
  | .done server _ => some server
  | .fatal server _ => some server
  | .syncStopped server _ => some server
  | _ => none

/-- The exit whose call makes the event. -/
def Event.exit : Event → Option Nat
  | .signalled exit => some exit
  | .cancelCalled exit _ => some exit
  | .waited exit => some exit
  | .closed exit _ => some exit
  | .released exit _ _ => some exit
  | .exited exit => some exit
  | _ => none

/-- The call with the number is at a stage with the property. -/
def System.Has (s : System F) (server : Nat) (Q : CallStage F → Bool) : Prop :=
  ∃ call, s.calls[server]? = some call ∧ Q call.stage = true

/-- The exit with the number is at a stage with the property. -/
def System.Exits (s : System F) (exit : Nat) (Q : ExitStage → Bool) : Prop :=
  ∃ stage, s.exits[exit]? = some stage ∧ Q stage = true

variable {s s' : System F} {event mark : Event} {log : List Event}

theorem Call.Moves.server {shared : Shared F} {server : Nat} {call : Call F}
    {next : Shared F × CallStage F × Event} (moves : call.Moves shared server next)
    : next.2.2.server = some server ∧ next.2.2.exit = none := by
  cases moves with
  | _ => exact ⟨rfl, rfl⟩

theorem ExitStage.Moves.exit {shared : Shared F} {exit : Nat} {stage : ExitStage}
    {next : Shared F × ExitStage × Event} (moves : stage.Moves shared exit next)
    : next.2.2.exit = some exit ∧ next.2.2.server = none := by
  cases moves with
  | _ => exact ⟨rfl, rfl⟩

theorem System.has_step {server : Nat} {Q : CallStage F → Bool} (own : mark.server = some server)
    (initially : ∀ rest, Q (.registering rest) = false)
    (moves : ∀ {shared : Shared F} {call : Call F} {next : Shared F × CallStage F × Event},
      call.Moves shared server next
        → (Q next.2.1 = true ↔ Q call.stage = true ∨ next.2.2 = mark))
    (h : s.Moves event s')
    : s'.Has server Q ↔ s.Has server Q ∨ event = mark := by
  have foreign (none : event.server = none) : event ≠ mark := by
    intro same
    rw [same, own] at none
    cases none
  cases h with
  | handlerAdded | background | parentCancelled | exitCalled =>
      exact (or_iff_left (foreign rfl)).symm
  | exit _ moved => exact (or_iff_left (foreign moved.exit.2)).symm
  | called parent =>
      rw [or_iff_left (foreign rfl)]
      exact exists_getElem?_concat (by simp [initially])
  | @call other call shared stage event found moved =>
      rw [Has, exists_getElem?_set found]
      by_cases same : other = server
      · subst same
        rw [if_pos rfl, Has, exists_of_getElem? found]
        exact moves moved
      · have elsewhere : event ≠ mark := by
          intro same'
          have owner := moved.server.1
          rw [same', own] at owner
          exact same (Option.some.inj owner).symm
        rw [if_neg same, or_iff_left elsewhere]
        rfl

theorem System.exits_step {exit : Nat} {Q : ExitStage → Bool} (own : mark.exit = some exit)
    (initially : Q .listening = false)
    (moves : ∀ {shared : Shared F} {stage : ExitStage} {next : Shared F × ExitStage × Event},
      stage.Moves shared exit next → (Q next.2.1 = true ↔ Q stage = true ∨ next.2.2 = mark))
    (h : s.Moves event s')
    : s'.Exits exit Q ↔ s.Exits exit Q ∨ event = mark := by
  have foreign (none : event.exit = none) : event ≠ mark := by
    intro same
    rw [same, own] at none
    cases none
  cases h with
  | handlerAdded | background | parentCancelled | called =>
      exact (or_iff_left (foreign rfl)).symm
  | call _ moved => exact (or_iff_left (foreign moved.server.2)).symm
  | exitCalled =>
      rw [or_iff_left (foreign rfl)]
      exact exists_getElem?_concat (by simp [initially])
  | @exit other stage stage' shared event found moved =>
      rw [Exits, exists_getElem?_set found]
      by_cases same : other = exit
      · subst same
        rw [if_pos rfl, Exits, exists_of_getElem? found]
        exact moves moved
      · have elsewhere : event ≠ mark := by
          intro same'
          have owner := moved.exit.1
          rw [same', own] at owner
          exact same (Option.some.inj owner).symm
        rw [if_neg same, or_iff_left elsewhere]
        rfl

-----------------------------------------------------------------------------------------
-- The stages that matter
-----------------------------------------------------------------------------------------

def CallStage.isAdded : CallStage F → Bool
  | .added => true
  | .launched _ _ => true
  | _ => false

/-- Start of the manager was called and has returned. -/
def CallStage.hasReturned (role : Role) : CallStage F → Bool
  | .launched workers _ => workers role ≠ .running
  | _ => false

def ExitStage.hasWaited : ExitStage → Bool
  | .listening => false
  | .stopping => false
  | .waiting => false
  | _ => true

def ExitStage.hasClosed : ExitStage → Bool
  | .releasing _ => true
  | .complete => true
  | _ => false

section Runs

variable {useQueueWriter : Bool} (run : Runs (Acts System.step) (.initial useQueueWriter) log s)

include run

/-- A stage of a call and its event go together. -/
theorem has_iff_mem {server : Nat} {Q : CallStage F → Bool} (own : mark.server = some server)
    (initially : ∀ rest, Q (.registering rest) = false)
    (moves : ∀ {shared : Shared F} {call : Call F} {next : Shared F × CallStage F × Event},
      call.Moves shared server next
        → (Q next.2.1 = true ↔ Q call.stage = true ∨ next.2.2 = mark))
    : s.Has server Q ↔ mark ∈ log := by
  rw [run.marked (P := fun s => s.Has server Q) (M := (· = mark))]
  · simp
  · simp [System.Has, System.initial]
  · exact fun s e s' h => System.has_step own initially moves (System.moves_of_acts h)

theorem exits_iff_mem {exit : Nat} {Q : ExitStage → Bool} (own : mark.exit = some exit)
    (initially : Q .listening = false)
    (moves : ∀ {shared : Shared F} {stage : ExitStage} {next : Shared F × ExitStage × Event},
      stage.Moves shared exit next → (Q next.2.1 = true ↔ Q stage = true ∨ next.2.2 = mark))
    : s.Exits exit Q ↔ mark ∈ log := by
  rw [run.marked (P := fun s => s.Exits exit Q) (M := (· = mark))]
  · simp
  · simp [System.Exits, System.initial]
  · exact fun s e s' h => System.exits_step own initially moves (System.moves_of_acts h)

theorem added_iff_mem (server : Nat)
    : s.Has server CallStage.isAdded ↔ .added server ∈ log := by
  refine has_iff_mem run rfl (fun _ => rfl) fun moves => ?_
  cases moves with
  | derived stage | failed stage | registered stage | assigned stage | added stage
  | launched stage | used stage | returned stage | done stage | fatal stage | sync stage
  | stopSync stage => simp [stage, CallStage.isAdded]

theorem returned_iff_mem (server : Nat) (role : Role)
    : s.Has server (CallStage.hasReturned role) ↔ .returned server role ∈ log := by
  refine has_iff_mem run rfl (fun _ => rfl) fun moves => ?_
  cases moves with
  | @returned workers syncing other stage running finished =>
      by_cases same : role = other
      · subst same
        simp [stage, CallStage.hasReturned]
      · simp [stage, CallStage.hasReturned, same, Ne.symm same]
  | @done workers syncing other stage returned =>
      by_cases same : role = other
      · subst same
        simp [stage, CallStage.hasReturned, returned]
      · simp [stage, CallStage.hasReturned, same]
  | derived stage | failed stage | registered stage | assigned stage | added stage
  | launched stage | used stage | fatal stage | sync stage | stopSync stage =>
      simp [stage, CallStage.hasReturned]

theorem waited_iff_mem (exit : Nat)
    : s.Exits exit ExitStage.hasWaited ↔ .waited exit ∈ log := by
  refine exits_iff_mem run rfl rfl fun moves => ?_
  cases moves with
  | _ => simp [ExitStage.hasWaited]

theorem closed_iff_mem (exit : Nat)
    : s.Exits exit ExitStage.hasClosed ↔ .closed exit .enqueued ∈ log := by
  refine exits_iff_mem run rfl rfl fun moves => ?_
  cases moves with
  | _ => simp [ExitStage.hasClosed]

end Runs

end GoFire.Server
