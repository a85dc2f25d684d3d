import Mathlib.Algebra.BigOperators.Group.List.Basic
import Mathlib.Data.List.Induction

/-! Labelled transition systems: runs with the log of their events, steps under a condition,
invariants over the log, simulations, and the total of what the parts of a system hold.
-/

namespace TransitionSystem

variable {σ τ α ε : Type*}

/-- The states a system reaches from `start`, each with the log of the events on the way. -/
inductive Runs (Step : σ → ε → σ → Prop) (start : σ) : List ε → σ → Prop where
  | stop : Runs Step start [] start
  | step {log : List ε} {s s' : σ} {e : ε} (before : Runs Step start log s)
      (last : Step s e s') : Runs Step start (log ++ [e]) s'

/-- The steps whose event is allowed in the state it happens in. -/
def Guarded (Step : σ → ε → σ → Prop) (Allowed : σ → ε → Prop) (s : σ) (e : ε) (s' : σ)
    : Prop :=
  Step s e s' ∧ Allowed s e

section Rules

variable {Step : σ → ε → σ → Prop} {start s : σ} {log : List ε}

/-- The invariant rule: what holds at the start and is kept by every step, the log so far
included, holds after every run.
-/
theorem Runs.invariant (run : Runs Step start log s) (Inv : List ε → σ → Prop)
    (initially : Inv [] start)
    (keeps : ∀ log s e s', Inv log s → Step s e s' → Inv (log ++ [e]) s')
    : Inv log s := by
  induction run with
  | stop => exact initially
  | step before last ih => exact keeps _ _ _ _ ih last

/-- A run stays in the states of an invariant. -/
theorem Runs.under (run : Runs Step start log s) (Inv : σ → Prop) (initially : Inv start)
    (keeps : ∀ s e s', Inv s → Step s e s' → Inv s')
    : Runs (Guarded Step (fun s _ => Inv s)) start log s := by
  suffices both : Runs (Guarded Step (fun s _ => Inv s)) start log s ∧ Inv s from both.1
  induction run with
  | stop => exact ⟨.stop, initially⟩
  | step before last ih => exact ⟨ih.1.step ⟨last, ih.2⟩, keeps _ _ _ ih.2 last⟩

/-- Runs go on from where a run ended. -/
theorem Runs.append {log' : List ε} {s' : σ} (first : Runs Step start log s)
    (second : Runs Step s log' s')
    : Runs Step start (log ++ log') s' := by
  induction second with
  | stop =>
      rw [List.append_nil]
      exact first
  | step before last ih =>
      rw [← List.append_assoc]
      exact ih.step last

/-- A run passes through a state before and a state after each of its events. -/
theorem Runs.split {before after : List ε} {e : ε}
    (run : Runs Step start (before ++ e :: after) s)
    : ∃ t t', Runs Step start before t ∧ Step t e t' ∧ Runs Step t' after s := by
  generalize whole : before ++ e :: after = log at run
  induction run generalizing after with
  | stop => simp at whole
  | @step log t s last front taken ih =>
      rcases List.eq_nil_or_concat after with rfl | ⟨earlier, latest, rfl⟩
      · obtain ⟨rfl, sameEvent⟩ := List.append_inj' whole rfl
        obtain rfl : e = last := by simpa using sameEvent
        exact ⟨t, s, front, taken, .stop⟩
      · have regrouped : before ++ e :: earlier ++ [latest] = log ++ [last] := by
          rw [← whole]
          simp
        obtain ⟨sameLog, sameEvent⟩ := List.append_inj' regrouped rfl
        obtain rfl : latest = last := by simpa using sameEvent
        obtain ⟨u, u', toU, atE, fromU⟩ := ih sameLog
        refine ⟨u, u', toU, atE, ?_⟩
        rw [List.concat_eq_append]
        exact fromU.step taken

/-- A property of states that comes about at certain events, and lasts, holds exactly when one of
them is in the log.
-/
theorem Runs.marked {P : σ → Prop} {M : ε → Prop} (run : Runs Step start log s)
    (initially : ¬ P start)
    (steps : ∀ s e s', Step s e s' → (P s' ↔ P s ∨ M e))
    : P s ↔ ∃ e ∈ log, M e := by
  induction run with
  | stop => exact iff_of_false initially (by simp)
  | step before last ih =>
      rw [steps _ _ _ last, ih]
      simp only [List.mem_append, List.mem_singleton, or_and_right, exists_or, exists_eq_left]

/-- The runs of a system are carried along a map of the states that keeps every step. -/
theorem Runs.map {Step' : τ → ε → τ → Prop} {f : σ → τ}
    (simulates : ∀ s e s', Step s e s' → Step' (f s) e (f s'))
    (run : Runs Step start log s)
    : Runs Step' (f start) log (f s) := by
  induction run with
  | stop => exact .stop
  | step before last ih => exact ih.step (simulates _ _ _ last)

/-- So are the runs under a condition on the images. -/
theorem Runs.map_guarded {Step' : τ → ε → τ → Prop} {f : σ → τ} {Allowed : τ → ε → Prop}
    (simulates : ∀ s e s', Step s e s' → Step' (f s) e (f s'))
    (run : Runs (Guarded Step (fun s => Allowed (f s))) start log s)
    : Runs (Guarded Step' Allowed) (f start) log (f s) :=
  run.map fun s e s' h => ⟨simulates s e s' h.1, h.2⟩

end Rules

-----------------------------------------------------------------------------------------
-- Executable steps
-----------------------------------------------------------------------------------------

/-- The steps of a function that refuses an action by returning nothing. -/
def Acts (step : σ → α → Option (σ × ε)) (s : σ) (e : ε) (s' : σ) : Prop :=
  ∃ action, step s action = some (s', e)

/-- Performs the actions one after the other. -/
def perform (step : σ → α → Option (σ × ε)) : σ → List α → Option (σ × List ε)
  | s, [] => some (s, [])
  | s, action :: rest => do
      let (s', e) ← step s action
      let (s'', log) ← perform step s' rest
      return (s'', e :: log)

theorem perform_cons {step : σ → α → Option (σ × ε)} {s t s' : σ} {action : α} {e : ε}
    {rest : List α} {log : List ε} (first : step s action = some (t, e))
    (later : perform step t rest = some (s', log))
    : perform step s (action :: rest) = some (s', e :: log) := by
  simp only [perform, first, later, Option.bind_eq_bind, Option.bind_some, Option.pure_def]

/-- A performed list of actions is a run, by induction on the actions. -/
theorem runs_of_perform {step : σ → α → Option (σ × ε)} {s s' : σ} {actions : List α}
    {log : List ε} (h : perform step s actions = some (s', log))
    : Runs (Acts step) s log s' := by
  induction actions generalizing s log with
  | nil =>
      obtain ⟨rfl, rfl⟩ : s = s' ∧ log = [] := by simpa [perform, eq_comm] using h
      exact .stop
  | cons action rest ih =>
      simp only [perform, Option.bind_eq_bind, Option.bind_eq_some_iff, Prod.exists,
        Option.pure_def, Option.some.injEq, Prod.mk.injEq] at h
      obtain ⟨t, e, first, last, later, tail, rfl, rfl⟩ := h
      have head : Runs (Acts step) s [e] t := Runs.stop.step ⟨action, first⟩
      exact head.append (ih tail)

/-- Some actions lead from a state to one of the goal. -/
def Leads (step : σ → α → Option (σ × ε)) (goal : σ → Prop) (s : σ) : Prop :=
  ∃ actions s' log, perform step s actions = some (s', log) ∧ goal s'

theorem Leads.here {step : σ → α → Option (σ × ε)} {goal : σ → Prop} {s : σ} (reached : goal s)
    : Leads step goal s :=
  ⟨[], s, [], rfl, reached⟩

theorem Leads.after {step : σ → α → Option (σ × ε)} {goal : σ → Prop} {s s' : σ} {action : α}
    {e : ε} (later : Leads step goal s') (first : step s action = some (s', e))
    : Leads step goal s := by
  obtain ⟨actions, s'', log, performed, reached⟩ := later
  exact ⟨action :: actions, s'', e :: log, perform_cons first performed, reached⟩

/-- Every step that the actions perform has a property. -/
def Every (step : σ → α → Option (σ × ε)) (P : σ → ε → σ → Prop) : σ → List α → Prop
  | _, [] => True
  | s, action :: rest => ∀ s' e, step s action = some (s', e) → P s e s' ∧ Every step P s' rest

/-- Properties that agree on every step agree on every run, by induction on the actions. -/
theorem Every.congr {step : σ → α → Option (σ × ε)} {P Q : σ → ε → σ → Prop}
    (same : ∀ s e s', Acts step s e s' → (P s e s' ↔ Q s e s')) (s : σ) (actions : List α)
    : Every step P s actions ↔ Every step Q s actions := by
  induction actions generalizing s with
  | nil => exact Iff.rfl
  | cons action rest ih =>
      apply forall_congr'
      intro s'
      apply forall_congr'
      intro e
      apply imp_congr_right
      intro taken
      exact and_congr (same s e s' ⟨action, taken⟩) (ih s')

/-- When one step keeps an invariant exactly if it is allowed, so does every run, by induction
on the actions.
-/
theorem Every.keeps_iff {step : σ → α → Option (σ × ε)} {Inv : σ → Prop} {Allowed : σ → ε → Prop}
    (keeps : ∀ s e s', Inv s → Acts step s e s' → (Inv s' ↔ Allowed s e)) {s : σ}
    (initially : Inv s) (actions : List α)
    : Every step (fun _ _ s' => Inv s') s actions
      ↔ Every step (fun s e _ => Allowed s e) s actions := by
  induction actions generalizing s with
  | nil => exact Iff.rfl
  | cons action rest ih =>
      apply forall_congr'
      intro s'
      apply forall_congr'
      intro e
      apply imp_congr_right
      intro taken
      have step := keeps s e s' initially ⟨action, taken⟩
      constructor
      · intro h
        obtain ⟨kept, later⟩ := h
        exact ⟨step.mp kept, (ih kept).mp later⟩
      · intro h
        obtain ⟨allowed, later⟩ := h
        have kept := step.mpr allowed
        exact ⟨kept, (ih kept).mpr later⟩

/-- The step function with the steps refused whose event is not allowed. -/
def restrict (step : σ → α → Option (σ × ε)) (Allowed : σ → ε → Prop)
    [∀ s e, Decidable (Allowed s e)] (s : σ) (action : α)
    : Option (σ × ε) :=
  (step s action).filter (fun next => Allowed s next.2)

/-- What a restricted step function performs, the step function performs, by induction on the
actions.
-/
theorem perform_of_restrict {step : σ → α → Option (σ × ε)} {Allowed : σ → ε → Prop}
    [∀ s e, Decidable (Allowed s e)] {s : σ} {actions : List α} {result : σ × List ε}
    (h : perform (restrict step Allowed) s actions = some result)
    : perform step s actions = some result := by
  induction actions generalizing s result with
  | nil => exact h
  | cons action rest ih =>
      simp only [perform, Option.bind_eq_bind, Option.bind_eq_some_iff] at h ⊢
      obtain ⟨next, taken, later, tail, same⟩ := h
      exact ⟨next, (Option.filter_eq_some_iff.mp taken).1, later, ih tail, same⟩

/-- What a restricted step function performs is a run under the condition. -/
theorem runs_of_perform_restrict {step : σ → α → Option (σ × ε)} {Allowed : σ → ε → Prop}
    [∀ s e, Decidable (Allowed s e)] {s s' : σ} {actions : List α} {log : List ε}
    (h : perform (restrict step Allowed) s actions = some (s', log))
    : Runs (Guarded (Acts step) Allowed) s log s' := by
  refine (runs_of_perform h).map (f := id) ?_
  intro t e t' h
  obtain ⟨action, taken⟩ := h
  rw [restrict, Option.filter_eq_some_iff, decide_eq_true_eq] at taken
  exact ⟨⟨action, taken.1⟩, taken.2⟩

-----------------------------------------------------------------------------------------
-- Events that are open until another event closes them
-----------------------------------------------------------------------------------------

/-- Some event of the log opens, and none after it closes. -/
def Open (opens closes : ε → Prop) (log : List ε) : Prop :=
  ∃ before e after, log = before ++ e :: after ∧ opens e ∧ ∀ later ∈ after, ¬ closes later

theorem not_open_nil (opens closes : ε → Prop) : ¬ Open opens closes [] := by
  intro h
  obtain ⟨before, e, after, h, -⟩ := h
  simp at h

theorem open_append {opens closes : ε → Prop} {e : ε}
    : Open opens closes (log ++ [e]) ↔ opens e ∨ (Open opens closes log ∧ ¬ closes e) := by
  constructor
  · intro h
    obtain ⟨before, first, after, h, isOpening, unclosed⟩ := h
    rcases List.eq_nil_or_concat after with rfl | ⟨earlier, latest, rfl⟩
    · obtain ⟨-, same⟩ := List.append_inj' h rfl
      obtain rfl : e = first := by simpa using same
      exact Or.inl isOpening
    · have regrouped : log ++ [e] = before ++ first :: earlier ++ [latest] := by
        rw [h]
        simp
      obtain ⟨rfl, same⟩ := List.append_inj' regrouped rfl
      obtain rfl : e = latest := by simpa using same
      refine Or.inr ⟨⟨before, first, earlier, rfl, isOpening, ?_⟩, unclosed e (by simp)⟩
      exact fun later mem => unclosed later (by simp [mem])
  · intro h
    rcases h with isOpening | ⟨⟨before, first, after, rfl, isOpening, unclosed⟩, notClosing⟩
    · exact ⟨log, e, [], rfl, isOpening, by simp⟩
    · refine ⟨before, first, after ++ [e], by simp, isOpening, ?_⟩
      intro later mem
      rcases List.mem_append.mp mem with old | new
      · exact unclosed later old
      · rw [List.mem_singleton.mp new]
        exact notClosing

/-- Between two events that open lies one that closes. -/
def Separated (opens closes : ε → Prop) (log : List ε) : Prop :=
  ∀ before first between second after, log = before ++ first :: between ++ second :: after
    → opens first → opens second → ∃ e ∈ between, closes e

theorem separated_nil (opens closes : ε → Prop) : Separated opens closes [] := by
  intro before first between second after h
  simp at h

theorem separated_append {opens closes : ε → Prop} {e : ε}
    : Separated opens closes (log ++ [e])
      ↔ Separated opens closes log ∧ (opens e → ¬ Open opens closes log) := by
  constructor
  · intro separated
    refine ⟨fun before first between second after h => ?_, fun opening h => ?_⟩
    · apply separated before first between second (after ++ [e])
      rw [h]
      simp
    · obtain ⟨before, first, after, rfl, isOpening, unclosed⟩ := h
      obtain ⟨later, mem, closing⟩ :=
        separated before first after e [] rfl isOpening opening
      exact unclosed later mem closing
  · intro h before first between second after whole isOpening opening
    obtain ⟨separated, closed⟩ := h
    rcases List.eq_nil_or_concat after with rfl | ⟨earlier, latest, rfl⟩
    · obtain ⟨rfl, same⟩ := List.append_inj' whole rfl
      obtain rfl : e = second := by simpa using same
      by_contra unclosed
      exact closed opening ⟨before, first, between, rfl, isOpening,
        fun later mem closing => unclosed ⟨later, mem, closing⟩⟩
    · have regrouped : log ++ [e]
          = before ++ first :: between ++ second :: earlier ++ [latest] := by
        rw [whole]
        simp
      obtain ⟨rfl, -⟩ := List.append_inj' regrouped rfl
      exact separated before first between second earlier rfl isOpening opening

/-- Whether an event is open can be read off the log from left to right. -/
theorem open_iff_foldl (opens closes : ε → Prop) [DecidablePred opens] [DecidablePred closes]
    (log : List ε)
    : Open opens closes log
      ↔ log.foldl (fun isOpen e => decide (opens e) || (isOpen && !decide (closes e))) false
        = true := by
  induction log using List.reverseRecOn with
  | nil => simpa using not_open_nil opens closes
  | append_singleton log e ih =>
      rw [open_append, ih, List.foldl_append, List.foldl_cons, List.foldl_nil]
      simp

instance (opens closes : ε → Prop) [DecidablePred opens] [DecidablePred closes] (log : List ε)
    : Decidable (Open opens closes log) :=
  decidable_of_iff _ (open_iff_foldl opens closes log).symm

/-- When nothing that is open lets a step happen, every event that opens is closed before that
step.
-/
theorem Runs.closed_between {Step : σ → ε → σ → Prop} {start s : σ}
    {before between after : List ε} {first last : ε}
    (run : Runs Step start (before ++ first :: between ++ last :: after) s)
    (opens closes : ε → Prop) (opening : opens first)
    (settled : ∀ log t t', Runs Step start log t → Step t last t' → ¬ Open opens closes log)
    : ∃ e ∈ between, closes e := by
  obtain ⟨t, t', reached, taken, -⟩ := run.split
  by_contra unclosed
  refine settled _ t t' reached taken ⟨before, first, between, rfl, opening, ?_⟩
  exact fun e mem closing => unclosed ⟨e, mem, closing⟩

-----------------------------------------------------------------------------------------
-- The parts of a system
-----------------------------------------------------------------------------------------

section Parts

variable {parts : List α} {part new : α} {P : α → Prop} {i j : Nat}

/-- A new part without the property. -/
theorem exists_getElem?_concat (fails : ¬ P new)
    : (∃ part, (parts ++ [new])[i]? = some part ∧ P part)
      ↔ ∃ part, parts[i]? = some part ∧ P part := by
  refine exists_congr fun part => and_congr_left fun holds => ?_
  have other : part ≠ new := fun same => fails (same ▸ holds)
  rw [List.getElem?_append]
  split
  case isTrue => rfl
  case isFalse outside =>
    have absent : parts[i]? = none := List.getElem?_eq_none (Nat.le_of_not_lt outside)
    rw [absent, List.getElem?_singleton]
    split
    · simpa using Ne.symm other
    · rfl

/-- One part that changes. -/
theorem exists_getElem?_set (found : parts[j]? = some part)
    : (∃ part, (parts.set j new)[i]? = some part ∧ P part)
      ↔ if j = i then P new else ∃ part, parts[i]? = some part ∧ P part := by
  obtain ⟨inside, -⟩ := List.getElem?_eq_some_iff.mp found
  by_cases same : j = i
  · subst same
    rw [if_pos rfl, List.getElem?_set_self inside]
    simp
  · rw [if_neg same, List.getElem?_set_ne same]

theorem getElem?_concat_cases (found : (parts ++ [new])[i]? = some part)
    : parts[i]? = some part ∨ (i = parts.length ∧ part = new) := by
  rw [List.getElem?_append] at found
  split at found
  case isTrue => exact Or.inl found
  case isFalse outside =>
    rw [List.getElem?_singleton] at found
    split at found
    · exact Or.inr ⟨by omega, (Option.some.inj found).symm⟩
    · cases found

theorem getElem?_set_cases (found : (parts.set j new)[i]? = some part)
    : (i ≠ j ∧ parts[i]? = some part) ∨ (i = j ∧ part = new) := by
  rw [List.getElem?_set] at found
  split at found
  case isTrue same =>
    split at found
    · exact Or.inr ⟨same.symm, (Option.some.inj found).symm⟩
    · cases found
  case isFalse other => exact Or.inl ⟨Ne.symm other, found⟩

theorem exists_of_getElem? (found : parts[i]? = some part)
    : (∃ part, parts[i]? = some part ∧ P part) ↔ P part := by
  rw [found]
  simp

end Parts

-----------------------------------------------------------------------------------------
-- Totals over the parts of a system
-----------------------------------------------------------------------------------------

section Totals

variable {M : Type*} [AddCommMonoid M] (share : σ → M)

/-- What the parts of a system hold together. -/
def total (parts : List σ) : M := (parts.map share).sum

/-- The frame rule: replacing one part leaves what the others hold as it is. -/
theorem total_set {parts : List σ} {i : Nat} {part : σ} (h : parts[i]? = some part)
    : ∃ rest, total share parts = share part + rest
      ∧ ∀ part', total share (parts.set i part') = share part' + rest := by
  induction parts generalizing i with
  | nil => simp at h
  | cons head tail ih =>
      cases i with
      | zero =>
          obtain rfl : head = part := by simpa using h
          exact ⟨total share tail, rfl, fun part' => rfl⟩
      | succ i =>
          obtain ⟨rest, all, others⟩ := ih (by simpa using h)
          simp only [total] at all others ⊢
          refine ⟨share head + rest, ?_, fun part' => ?_⟩
          · rw [List.map_cons, List.sum_cons, all, add_left_comm]
          · rw [List.set_cons_succ, List.map_cons, List.sum_cons, others, add_left_comm]

/-- Removing one part takes away its share. -/
theorem total_eraseIdx {parts : List σ} {i : Nat} {part : σ} (h : parts[i]? = some part)
    : total share parts = share part + total share (parts.eraseIdx i) := by
  induction parts generalizing i with
  | nil => simp at h
  | cons head tail ih =>
      cases i with
      | zero =>
          obtain rfl : head = part := by simpa using h
          rfl
      | succ i =>
          have tailTotal := ih (by simpa using h)
          simp only [total] at tailTotal ⊢
          rw [List.eraseIdx_cons_succ, List.map_cons, List.map_cons, List.sum_cons,
            List.sum_cons, tailTotal, add_left_comm]

theorem total_append (parts more : List σ)
    : total share (parts ++ more) = total share parts + total share more := by
  simp only [total, List.map_append, List.sum_append]

/-- The conservation rule: when every step balances what the system holds against what enters
and what leaves it, so does every run.
-/
theorem Runs.conserved {Step : τ → ε → τ → Prop} {start s : τ} {log : List ε}
    (run : Runs Step start log s) (held : τ → M) (enters leaves : ε → M)
    (balance : ∀ s e s', Step s e s' → held s' + leaves e = held s + enters e)
    : held s + total leaves log = held start + total enters log := by
  induction run with
  | stop => rfl
  | @step log s s' e before last ih =>
      rw [total_append, total_append, ← add_assoc, ← add_assoc, ← ih]
      simp only [total, List.map_cons, List.map_nil, List.sum_cons, List.sum_nil, add_zero]
      rw [add_right_comm, balance s e s' last, add_right_comm]

@[simp] theorem total_nil : total share [] = 0 := rfl

@[simp] theorem total_cons (part : σ) (parts : List σ)
    : total share (part :: parts) = share part + total share parts := by
  simp only [total, List.map_cons, List.sum_cons]

end Totals

end TransitionSystem
