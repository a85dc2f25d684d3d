import GoFire.Foundations.TransitionSystem
import GoFire.Store.Records

/-! What an execution owes its job: one result that says whether its handler succeeded, whatever
the handler does.
-/

namespace GoFire.Managers

open GoFire.State GoFire.Store TransitionSystem

deriving instance DecidableEq for HandlerOutcome

section Handlers

variable (handlers : List String) (name : String) (payload : Json)
  (behaviour : Args → HandlerOutcome)

/-- The handler of a job is called with these arguments. -/
def Calls (args : Args) : Prop := name ∈ handlers ∧ unmarshalArgs payload = some args

/-- The handler was found, the payload decoded and the handler returned nil. -/
def Succeeds : Prop := ∃ args, Calls handlers name payload args ∧ behaviour args = .returned none

def Panics : Prop := ∃ args, Calls handlers name payload args ∧ behaviour args = .panicked

variable {handlers name payload behaviour} {args : Args}

theorem Calls.unique {args' : Args} (h : Calls handlers name payload args)
    (h' : Calls handlers name payload args')
    : args = args' :=
  Option.some.inj (h.2.symm.trans h'.2)

theorem Calls.succeeds_iff (h : Calls handlers name payload args)
    : Succeeds handlers name payload behaviour ↔ behaviour args = .returned none := by
  constructor
  · intro h
    obtain ⟨args', called, returned⟩ := h
    exact h.unique called ▸ returned
  · exact fun returned => ⟨args, h, returned⟩

theorem Calls.panics_iff (h : Calls handlers name payload args)
    : Panics handlers name payload behaviour ↔ behaviour args = .panicked := by
  constructor
  · intro h
    obtain ⟨args', called, panicked⟩ := h
    exact h.unique called ▸ panicked
  · exact fun panicked => ⟨args, h, panicked⟩

/-- A handler that is not called neither succeeds nor panics. -/
theorem not_called (behaviour : Args → HandlerOutcome)
    (h : ∀ args, ¬ Calls handlers name payload args)
    : ¬ Succeeds handlers name payload behaviour ∧ ¬ Panics handlers name payload behaviour :=
  ⟨fun ⟨args, called, _⟩ => h args called, fun ⟨args, called, _⟩ => h args called⟩

end Handlers

/-- A result names its job and says whether the execution succeeded. -/
structure Reports (jobID : Nat) (succeeds : Prop) (result : JobResult) : Prop where
  job : result.jobID = jobID
  succeeded : result.status = .succeeded ↔ succeeds
  failed : result.status = .failed ↔ ¬ succeeds

/-- How an execution has ended: with its one result, or in a panic that left none. -/
def Ended (jobID : Nat) (succeeds panics : Prop) (sent : List JobResult) : Prop :=
  (∃ result, sent = [result] ∧ Reports jobID succeeds result ∧ ¬ panics)
    ∨ (sent = [] ∧ panics)

/-- The place of an item in a list after another item has been erased. -/
def placeAfterErase (erased i : Nat) : Nat := if erased < i then i - 1 else i

theorem getElem?_placeAfterErase {α : Type} {items : List α} {erased i : Nat}
    (other : erased ≠ i)
    : (items.eraseIdx erased)[placeAfterErase erased i]? = items[i]? := by
  unfold placeAfterErase
  split
  · rename_i before
    rw [List.getElem?_eraseIdx_of_ge (by omega), Nat.sub_add_cancel (by omega)]
  · rw [List.getElem?_eraseIdx_of_lt (by omega)]

-----------------------------------------------------------------------------------------
-- A job goroutine among the steps of all goroutines
-----------------------------------------------------------------------------------------

/-- A manager with one of its job goroutines: the place of the goroutine among the workers, as
long as it runs, and the results it has sent.
-/
structure Followed (σ : Type) where
  manager : σ
  place : Option Nat
  sent : List JobResult := []

/-- The goroutine has ended. -/
def Followed.Done {σ : Type} (f : Followed σ) : Prop := f.place = none

/-- The steps of a manager on stores `κ`, seen from the job goroutine at a place: the steps that
are followed, what the goroutine sends in a step, and where it is after it.
-/
structure View (κ σ α : Type) where
  step : κ → σ → α → Option σ
  admits : σ → Nat → α → Bool
  sends : σ → Nat → α → List JobResult
  moves : Nat → α → Option Nat

namespace View

variable {κ σ α : Type} (view : View κ σ α)

/-- A step of the manager while the goroutine runs, on any store. -/
def follow (f : Followed σ) (action : κ × α) : Option (Followed σ × α) :=
  match f.place with
  | none => none
  | some i =>
      if view.admits f.manager i action.2 then
        (view.step action.1 f.manager action.2).map fun manager =>
          (⟨manager, view.moves i action.2, f.sent ++ view.sends f.manager i action.2⟩, action.2)
      else none

variable {view}

theorem follow_some {f f' : Followed σ} {action : κ × α} {e : α}
    (h : view.follow f action = some (f', e))
    : ∃ i, f.place = some i ∧ e = action.2 ∧ view.step action.1 f.manager e = some f'.manager
        ∧ view.admits f.manager i e = true ∧ f'.place = view.moves i e
        ∧ f'.sent = f.sent ++ view.sends f.manager i e := by
  unfold follow at h
  split at h
  · cases h
  · rename_i i placed
    split at h
    case isFalse => cases h
    case isTrue admitted =>
      simp only [Option.map_eq_some_iff, Prod.mk.injEq] at h
      obtain ⟨manager, taken, rfl, rfl⟩ := h
      exact ⟨i, placed, rfl, taken, admitted, rfl, rfl⟩

/-- A followed step leads on. -/
theorem leads_of {s : κ} {m m' : σ} {i : Nat} {action : α} {sent : List JobResult}
    (taken : view.step s m action = some m') (admitted : view.admits m i action = true)
    (later : Leads view.follow Followed.Done
      ⟨m', view.moves i action, sent ++ view.sends m i action⟩)
    : Leads view.follow Followed.Done ⟨m, some i, sent⟩ := by
  have followed : view.follow ⟨m, some i, sent⟩ (s, action)
      = some (⟨m', view.moves i action, sent ++ view.sends m i action⟩, action) := by
    simp [follow, taken, admitted]
  exact later.after followed

end View

end GoFire.Managers
