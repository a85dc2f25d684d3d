import GoFire.Foundations.TransitionSystem
import GoFire.Store.Records
import Mathlib.Algebra.Order.Group.Multiset

/-! Outcomes of handler executions on their way to the store. What every manager's goroutines do
to them, and when all of them have been passed to the store at the moment Start returns.
-/

namespace GoFire.Managers

open GoFire.Store TransitionSystem

/-- How an execution ends: with a result for the store, or by a panic that leaves none. -/
inductive HandlerEnd where
  | result (result : JobResult)
  | panic (jobID : Nat)

/-- What a step of a manager does to the outcomes. An outcome is passed to MarkSuccess or
MarkFailure with a live or a cancelled context.
-/
inductive Signal where
  | internal
  | finished (ending : HandlerEnd)
  | passed (result : JobResult) (live : Bool)
  | died (endings : Multiset HandlerEnd)
  | returned

namespace Signal

/-- The executions that end in a step. -/
def finishes : Signal → Multiset HandlerEnd
  | .finished ending => {ending}
  | _ => 0

/-- The outcomes that a step passes to the store with a live context. -/
def passes : Signal → Multiset HandlerEnd
  | .passed result true => {.result result}
  | _ => 0

/-- The outcomes that the manager does not hold any more after a step. -/
def leaves : Signal → Multiset HandlerEnd
  | .finished (.panic jobID) => {.panic jobID}
  | .passed result _ => {.result result}
  | .died endings => endings
  | _ => 0

/-- The manager neither dies nor returns. -/
def routine : Signal → Bool
  | .died _ => false
  | .returned => false
  | _ => true

end Signal

variable {σ : Type} (held : σ → Multiset HandlerEnd)

/-- No handler panics, no outcome is passed to the store with a cancelled context, and Start
returns when the manager holds no outcome.
-/
def KeepsOutcomes (m : σ) : Signal → Prop
  | .finished (.panic _) => False
  | .passed _ live => live = true
  | .returned => (held m).card = 0
  | _ => True

instance (m : σ) : ∀ signal, Decidable (KeepsOutcomes held m signal)
  | .finished (.panic _) => isFalse id
  | .finished (.result _) => isTrue trivial
  | .passed _ live => inferInstanceAs (Decidable (live = true))
  | .returned => inferInstanceAs (Decidable ((held m).card = 0))
  | .internal => isTrue trivial
  | .died _ => isTrue trivial

/-- A system of goroutines that passes outcomes on. In its sound states every step balances the
outcomes it holds; when it dies it never returns.
-/
structure ResultPipeline (Step : σ → Signal → σ → Prop) (Sound Dead : σ → Prop) : Prop where
  sound_step : ∀ {m signal m'}, Sound m → Step m signal m' → Sound m'
  balance : ∀ {m signal m'}, Sound m → Step m signal m'
    → held m' + signal.leaves = held m + signal.finishes
  dead_of_died : ∀ {m endings m'}, Step m (.died endings) m' → Dead m'
  dead_step : ∀ {m signal m'}, Dead m → Step m signal m' → Dead m'
  alive_of_returned : ∀ {m m'}, Step m .returned m' → ¬ Dead m

variable {held} {Step : σ → Signal → σ → Prop} {Sound Dead : σ → Prop} {start m : σ}
  {log : List Signal}

/-- While the system is alive, the outcomes that left it under the condition were passed to the
store with a live context.
-/
theorem ResultPipeline.left_passed (pipeline : ResultPipeline held Step Sound Dead)
    (run : Runs (Guarded Step (KeepsOutcomes held)) start log m)
    : Dead m ∨ total Signal.leaves log = total Signal.passes log := by
  refine run.invariant (fun log m => Dead m ∨ total Signal.leaves log = total Signal.passes log)
    (Or.inr rfl) ?_
  intro log m signal m' inv h
  obtain ⟨taken, keeps⟩ := h
  rcases inv with dead | same
  · exact Or.inl (pipeline.dead_step dead taken)
  · have extend (step : signal.leaves = signal.passes)
        : total Signal.leaves (log ++ [signal]) = total Signal.passes (log ++ [signal]) := by
      rw [total_append, total_append, same, total_cons, total_cons, step]
      rfl
    cases signal with
    | died endings => exact Or.inl (pipeline.dead_of_died taken)
    | passed result live =>
        obtain rfl : live = true := keeps
        exact Or.inr (extend rfl)
    | finished ending =>
        cases ending with
        | result => exact Or.inr (extend rfl)
        | panic => exact absurd keeps id
    | internal => exact Or.inr (extend rfl)
    | returned => exact Or.inr (extend rfl)

/-- When Start returns under the condition, exactly the outcomes of the executions that ended
have been passed to the store with a live context, each once.
-/
theorem ResultPipeline.passed_at_return (pipeline : ResultPipeline held Step Sound Dead)
    (sound : Sound start) (empty : held start = 0)
    (run : Runs (Guarded Step (KeepsOutcomes held)) start (log ++ [.returned]) m)
    : total Signal.passes log = total Signal.finishes log := by
  obtain ⟨t, t', reached, ⟨taken, drained⟩, -⟩ := run.split
  have conserved := (reached.under Sound sound
      (fun _ _ _ inv h => pipeline.sound_step inv h.1)).conserved held Signal.finishes
    Signal.leaves (fun _ _ _ h => pipeline.balance h.2 h.1.1)
  rw [Multiset.card_eq_zero.mp drained, empty, zero_add, zero_add] at conserved
  rw [← conserved]
  rcases pipeline.left_passed reached with dead | same
  · exact absurd dead (pipeline.alive_of_returned taken)
  · exact same.symm

end GoFire.Managers
