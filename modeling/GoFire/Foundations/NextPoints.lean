import Mathlib.Order.Bounds.Basic
import Mathlib.Order.Interval.Finset.Basic

/-! A function that returns the next point of a set visits all of its points in their order.
The order may be any in which finitely many points lie between two.
-/

namespace NextPoints

variable {α : Type*} [LinearOrder α] {next : α → α} {points : Set α}

/-- The function returns the least later point of the set. -/
def Leads (next : α → α) (points : Set α) : Prop :=
  ∀ x, IsLeast {y | x < y ∧ y ∈ points} (next x)

theorem Leads.strictMono (leads : Leads next points) (start : α)
    : StrictMono fun k => next^[k] start := by
  refine strictMono_nat_of_lt_succ fun k => ?_
  rw [Function.iterate_succ_apply']
  exact (leads _).1.1

theorem Leads.iterate_mem (leads : Leads next points) (start : α) (k : Nat)
    : start < next^[k + 1] start ∧ next^[k + 1] start ∈ points := by
  refine ⟨leads.strictMono start (Nat.succ_pos k), ?_⟩
  rw [Function.iterate_succ_apply']
  exact (leads _).1.2

/-- No later point is left out, by induction on the number of elements up to it. -/
theorem Leads.exists_iterate [LocallyFiniteOrder α] (leads : Leads next points) {start point : α}
    (later : start < point) (mem : point ∈ points)
    : ∃ k, next^[k + 1] start = point := by
  induction size : (Finset.Ioc start point).card using Nat.strong_induction_on
    generalizing start with
  | _ size ih =>
      subst size
      have first := leads start
      rcases (first.2 ⟨later, mem⟩).eq_or_lt with here | ahead
      · exact ⟨0, here⟩
      · have smaller : Finset.Ioc (next start) point ⊂ Finset.Ioc start point := by
          refine Finset.ssubset_iff_subset_ne.mpr
            ⟨Finset.Ioc_subset_Ioc_left first.1.1.le, fun same => ?_⟩
          have mem : next start ∈ Finset.Ioc start point :=
            Finset.mem_Ioc.mpr ⟨first.1.1, ahead.le⟩
          rw [← same] at mem
          exact lt_irrefl _ (Finset.mem_Ioc.mp mem).1
        obtain ⟨k, reached⟩ := ih _ (Finset.card_lt_card smaller) ahead rfl
        exact ⟨k + 1, reached⟩

/-- The points after a start are exactly those that the function visits from it. -/
theorem Leads.range_iterate [LocallyFiniteOrder α] (leads : Leads next points) (start : α)
    : Set.range (fun k => next^[k + 1] start) = {y | start < y ∧ y ∈ points} := by
  ext y
  constructor
  · intro h
    obtain ⟨k, rfl⟩ := h
    exact leads.iterate_mem start k
  · intro h
    exact leads.exists_iterate h.1 h.2

end NextPoints
