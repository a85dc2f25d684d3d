import Mathlib.Data.List.TakeDrop
import Mathlib.Order.Defs.PartialOrder

/-! Steps that settle: taking one only adds to the state, and once it is taken there is nothing left of
it to do. Workers that take the same list of steps, each in its order and at its own pace, reach what one
of them reaches alone.
-/

/-- A step that may fail. In every state above one it led to, it succeeds and changes nothing. -/
structure SettlingStep (σ ε : Type*) [Preorder σ] where
  exec : σ → Except ε σ
  adds : ∀ {s t}, exec s = .ok t → s ≤ t
  settles : ∀ {s t u}, exec s = .ok t → t ≤ u → exec u = .ok u

namespace SettlingStep

theorem bind_eq_ok {σ ε : Type*} {result : Except ε σ} {next : σ → Except ε σ} {t : σ}
    : result.bind next = .ok t ↔ ∃ m, result = .ok m ∧ next m = .ok t := by
  cases result <;> simp [Except.bind]

variable {σ ε : Type*} [Preorder σ]

def skip : SettlingStep σ ε where
  exec := .ok
  adds h := by
    obtain rfl := Except.ok.inj h
    exact le_refl _
  settles _ _ := rfl

def andThen (first second : SettlingStep σ ε) : SettlingStep σ ε where
  exec s := (first.exec s).bind second.exec
  adds h := by
    obtain ⟨m, toMiddle, fromMiddle⟩ := bind_eq_ok.mp h
    exact le_trans (first.adds toMiddle) (second.adds fromMiddle)
  settles h later := by
    obtain ⟨m, toMiddle, fromMiddle⟩ := bind_eq_ok.mp h
    refine bind_eq_ok.mpr ⟨_, first.settles toMiddle ?_, second.settles fromMiddle later⟩
    exact le_trans (second.adds fromMiddle) later

/-- All steps in their order, up to the first failure. -/
def sequence : List (SettlingStep σ ε) → SettlingStep σ ε
  | [] => skip
  | step :: rest => step.andThen (sequence rest)

/-- After the sequence each of its steps is settled, by induction on the steps. -/
theorem settled_of_mem {steps : List (SettlingStep σ ε)} {step : SettlingStep σ ε}
    (mem : step ∈ steps) {s t : σ} (done : (sequence steps).exec s = .ok t)
    : step.exec t = .ok t := by
  induction steps generalizing s with
  | nil => cases mem
  | cons first rest ih =>
      obtain ⟨m, toMiddle, fromMiddle⟩ := bind_eq_ok.mp done
      rcases List.mem_cons.mp mem with rfl | later
      · exact step.settles toMiddle ((sequence rest).adds fromMiddle)
      · exact ih later fromMiddle

theorem sequence_append {steps : List (SettlingStep σ ε)} {step : SettlingStep σ ε} {s t u : σ}
    (done : (sequence steps).exec s = .ok t) (next : step.exec t = .ok u)
    : (sequence (steps ++ [step])).exec s = .ok u := by
  induction steps generalizing s with
  | nil =>
      obtain rfl := Except.ok.inj done
      exact bind_eq_ok.mpr ⟨u, next, rfl⟩
  | cons first rest ih =>
      obtain ⟨m, toMiddle, fromMiddle⟩ := bind_eq_ok.mp done
      exact bind_eq_ok.mpr ⟨m, toMiddle, ih fromMiddle⟩

-----------------------------------------------------------------------------------------
-- Workers at their own pace
-----------------------------------------------------------------------------------------

/-- The state that one worker reaches alone with its first `count` steps. -/
structure After (steps : List (SettlingStep σ ε)) (start : σ) (count : Nat) (s : σ) : Prop where
  within : count ≤ steps.length
  reached : (sequence (steps.take count)).exec start = .ok s

namespace After

variable {steps : List (SettlingStep σ ε)} {start s t : σ} {count turn : Nat}
  {step : SettlingStep σ ε}

theorem none_taken : After steps start 0 start := ⟨Nat.zero_le _, rfl⟩

/-- A step that others took already changes nothing. -/
theorem repeated (after : After steps start count s) (found : steps[turn]? = some step)
    (before : turn < count) (done : step.exec s = .ok t)
    : t = s := by
  have mem : step ∈ steps.take count :=
    List.mem_of_getElem? ((List.getElem?_take_of_lt before).trans found)
  exact Except.ok.inj (done.symm.trans (settled_of_mem mem after.reached))

/-- The next step takes the state on. -/
theorem next (after : After steps start count s) (found : steps[count]? = some step)
    (done : step.exec s = .ok t)
    : After steps start (count + 1) t := by
  refine ⟨(List.getElem?_eq_some_iff.mp found).1, ?_⟩
  rw [List.take_add_one, found]
  exact sequence_append after.reached done

/-- A worker that is not ahead of the others takes its step. -/
theorem take_step (after : After steps start count s) (found : steps[turn]? = some step)
    (notAhead : turn ≤ count) (done : step.exec s = .ok t)
    : ∃ count', count ≤ count' ∧ turn < count' ∧ After steps start count' t := by
  rcases Nat.lt_or_eq_of_le notAhead with before | rfl
  · obtain rfl := after.repeated found before done
    exact ⟨count, Nat.le_refl count, before, after⟩
  · exact ⟨turn + 1, Nat.le_succ turn, Nat.lt_succ_self turn, after.next found done⟩

end After

end SettlingStep
