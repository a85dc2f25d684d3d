import Mathlib.Order.Bounds.Basic

/-! Loops that search forward for a first accepted point in a bounded number of passes.
A pass accepts the current point or jumps ahead. When no jump passes the least accepted point
and a rank that drops at every jump bounds the passes, the search returns that point.
-/

namespace BoundedSearch

/-- What one pass of a search loop does with its current point. -/
inductive Pass (α : Type*) where
  | found
  | skip (next : α)

/-- The pass with its jump target carried along a map. -/
def Pass.map {α β : Type*} (f : α → β) : Pass α → Pass β
  | .found => .found
  | .skip next => .skip (f next)

/-- At most `fuel` passes from a point, returning the point the last pass accepts. -/
def search {α : Type*} (pass : α → Pass α) : Nat → α → Option α
  | 0, _ => none
  | fuel + 1, point =>
      match pass point with
      | .found => some point
      | .skip next => search pass fuel next

variable {α β : Type*}

/-- A search carried along a map that commutes with every pass is the search on the images,
by induction on the passes left.
-/
theorem search_map {pass : α → Pass α} {pass' : β → Pass β} {f : α → β}
    (commutes : ∀ point, pass' (f point) = (pass point).map f) (fuel : Nat) (point : α)
    : search pass' fuel (f point) = (search pass fuel point).map f := by
  induction fuel generalizing point with
  | zero => rfl
  | succ fuel ih =>
      simp only [search, commutes]
      cases pass point with
      | found => rfl
      | skip next => exact ih next

/-- The returned point is accepted. -/
theorem search_found {pass : α → Pass α} {fuel : Nat} {start found : α}
    (h : search pass fuel start = some found)
    : pass found = .found := by
  induction fuel generalizing start with
  | zero => simp [search] at h
  | succ fuel ih =>
      cases hp : pass start with
      | found =>
          simp only [search, hp, Option.some.injEq] at h
          exact h ▸ hp
      | skip next =>
          simp only [search, hp] at h
          exact ih h

/-- An invariant kept by the jumps holds of the returned point. -/
theorem search_invariant {pass : α → Pass α} (inv : α → Prop)
    (keeps : ∀ point next, inv point → pass point = .skip next → inv next)
    {fuel : Nat} {start found : α} (holds : inv start)
    (h : search pass fuel start = some found)
    : inv found := by
  induction fuel generalizing start with
  | zero => simp [search] at h
  | succ fuel ih =>
      cases hp : pass start with
      | found =>
          simp only [search, hp, Option.some.injEq] at h
          exact h ▸ holds
      | skip next =>
          simp only [search, hp] at h
          exact ih (keeps start next holds hp) h

/-- An invariant whose rank drops at every jump bounds the search: with more passes than the
starting rank it returns a point. Induction is on the passes left.
-/
theorem search_isSome {pass : α → Pass α} (inv : α → Prop) (rank : α → Nat)
    (drops : ∀ point next, inv point → pass point = .skip next
      → inv next ∧ rank next < rank point)
    {fuel : Nat} {start : α} (holds : inv start) (enough : rank start < fuel)
    : (search pass fuel start).isSome := by
  induction fuel generalizing start with
  | zero => omega
  | succ fuel ih =>
      cases hp : pass start with
      | found => simp [search, hp]
      | skip next =>
          obtain ⟨kept, lower⟩ := drops start next holds hp
          simp only [search, hp]
          exact ih kept (by omega)

theorem search_skip {pass : α → Pass α} {point next : α} (skip : pass point = .skip next)
    (fuel : Nat)
    : search pass (fuel + 1) point = search pass fuel next := by
  simp only [search, skip]

/-- A search that comes back to its point at once finds nothing. -/
theorem search_stuck {pass : α → Pass α} {point : α} (stuck : pass point = .skip point)
    (fuel : Nat)
    : search pass fuel point = none := by
  induction fuel with
  | zero => rfl
  | succ fuel ih => exact (search_skip stuck fuel).trans ih

-----------------------------------------------------------------------------------------
-- The points a search visits
-----------------------------------------------------------------------------------------

/-- Where a search is after some passes that accepted nothing. -/
def visited (pass : α → Pass α) (start : α) : Nat → Option α
  | 0 => some start
  | n + 1 =>
      (visited pass start n).bind fun point =>
        match pass point with
        | .found => none
        | .skip next => some next

/-- Each of the first `fuel` passes that accepts nothing moves forward, as measured by `f`. -/
def Advances [LT β] (pass : α → Pass α) (f : α → β) (fuel : Nat) (start : α) : Prop :=
  ∀ n < fuel, ∀ point next, visited pass start n = some point → pass point = .skip next →
    f point < f next

theorem visited_succ {pass : α → Pass α} {start next : α} {n : Nat}
    (h : visited pass start (n + 1) = some next)
    : ∃ point, visited pass start n = some point ∧ pass point = .skip next := by
  obtain ⟨point, reached, moved⟩ := Option.bind_eq_some_iff.mp h
  refine ⟨point, reached, ?_⟩
  cases result : pass point with
  | found => simp [result] at moved
  | skip other =>
      rw [result] at moved
      rw [Option.some.inj moved]

/-- An invariant kept by the jumps holds of every visited point. -/
theorem visited_invariant {pass : α → Pass α} (inv : α → Prop)
    (keeps : ∀ point next, inv point → pass point = .skip next → inv next) {start : α}
    (holds : inv start) {n : Nat} {point : α} (reached : visited pass start n = some point)
    : inv point := by
  induction n generalizing point with
  | zero => exact Option.some.inj reached ▸ holds
  | succ n ih =>
      obtain ⟨before, earlier, moved⟩ := visited_succ reached
      exact keeps before point (ih earlier) moved

/-- A search that advances is further on at every later pass, by induction on the passes in
between.
-/
theorem Advances.visited_lt [Preorder β] {pass : α → Pass α} {f : α → β} {fuel : Nat}
    {start : α} (advances : Advances pass f fuel start) {m n : Nat} (later : m < n)
    (within : n ≤ fuel) {first second : α} (before : visited pass start m = some first)
    (after : visited pass start n = some second)
    : f first < f second := by
  induction n generalizing second with
  | zero => omega
  | succ n ih =>
      obtain ⟨point, reached, moved⟩ := visited_succ after
      have last := advances n (by omega) point second reached moved
      rcases Nat.lt_succ_iff_lt_or_eq.mp later with earlier | rfl
      · exact (ih earlier (by omega) reached).trans last
      · obtain rfl : first = point := Option.some.inj (before.symm.trans reached)
        exact last

section Ordered

/-- Every jump moves forward. -/
def Forward [LT α] (pass : α → Pass α) : Prop :=
  ∀ point next, pass point = .skip next → point < next

/-- A forward search returns no point before its start. -/
theorem Forward.le_found [Preorder α] {pass : α → Pass α} (forward : Forward pass)
    {fuel : Nat} {start found : α} (h : search pass fuel start = some found)
    : start ≤ found :=
  search_invariant (fun point => start ≤ point)
    (fun _ _ le hp => le.trans (forward _ _ hp).le) (le_refl start) h

/-- Without an accepted point from the start on, a forward search returns nothing. -/
theorem Forward.search_eq_none [Preorder α] {pass : α → Pass α} (forward : Forward pass)
    {start : α} (empty : ∀ point, start ≤ point → pass point ≠ .found) (fuel : Nat)
    : search pass fuel start = none := by
  cases h : search pass fuel start with
  | none => rfl
  | some found => exact absurd (search_found h) (empty found (forward.le_found h))

/-- A search whose jumps stay at or before the least accepted point, and lower a rank below
the passes left, returns that point.
-/
theorem Forward.search_eq_least [PartialOrder α] {pass : α → Pass α} (forward : Forward pass)
    {start goal : α} (goalLeast : IsLeast {point | start ≤ point ∧ pass point = .found} goal)
    (inv : α → Prop) (rank : α → Nat)
    (approaches : ∀ point next, start ≤ point → point ≤ goal → inv point
      → pass point = .skip next → next ≤ goal ∧ inv next ∧ rank next < rank point)
    {fuel : Nat} (holds : inv start) (enough : rank start < fuel)
    : search pass fuel start = some goal := by
  have keeps (point next : α) (h : start ≤ point ∧ point ≤ goal ∧ inv point)
      (skip : pass point = .skip next)
      : (start ≤ next ∧ next ≤ goal ∧ inv next) ∧ rank next < rank point := by
    obtain ⟨after, before, kept⟩ := h
    obtain ⟨before', kept', lower⟩ := approaches point next after before kept skip
    exact ⟨⟨after.trans (forward _ _ skip).le, before', kept'⟩, lower⟩
  have initially := And.intro (le_refl start) (And.intro goalLeast.1.1 holds)
  have some := search_isSome _ rank keeps initially enough
  obtain ⟨found, h⟩ := Option.isSome_iff_exists.mp some
  obtain ⟨after, before, -⟩ := search_invariant _
    (fun point next inv skip => (keeps point next inv skip).1) initially h
  have last := goalLeast.2 ⟨after, search_found h⟩
  rw [h, before.antisymm last]

end Ordered

end BoundedSearch
