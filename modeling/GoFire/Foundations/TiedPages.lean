import GoFire.Foundations.SortedPages
import Mathlib.Data.List.Perm.Basic

/-! Lists in the weakly ascending order of a sort key, read page by page, when the order of rows
with equal keys is chosen anew for every page.
-/

namespace SortedPages

variable {α κ : Type*} [LinearOrder κ] {key : α → κ} {rows sorted : List α} {a : α}

/-- The number of rows with the same sort key. -/
def ties (key : α → κ) (rows : List α) (a : α) : Nat := rows.countP (fun b => key b = key a)

/-- An order of the rows that their sort keys allow. -/
structure Sorting (key : α → κ) (rows sorted : List α) : Prop where
  perm : sorted.Perm rows
  ascending : sorted.Pairwise (fun b c => key b ≤ key c)

/-- A page of some size, counted from 1. -/
def page (size n : Nat) (sorted : List α) : List α := (sorted.drop ((n - 1) * size)).take size

/-- No rows with the same key stand on both sides of an index, in whatever order. -/
def Unsplit (key : α → κ) (rows : List α) (index : Nat) : Prop :=
  ∀ a ∈ rows, position key rows a < index → position key rows a + ties key rows a ≤ index

-----------------------------------------------------------------------------------------
-- Where a row can stand
-----------------------------------------------------------------------------------------

theorem position_add_ties (key : α → κ) (rows : List α) (a : α)
    : position key rows a + ties key rows a = rows.countP (fun b => key b ≤ key a) := by
  induction rows with
  | nil => rfl
  | cons b rest ih =>
      simp only [position, ties, List.countP_cons, decide_eq_true_eq] at ih ⊢
      rcases lt_trichotomy (key b) (key a) with lt | eq | gt
      · rw [if_pos lt, if_neg lt.ne, if_pos lt.le]
        omega
      · rw [if_neg (eq ▸ lt_irrefl _), if_pos eq, if_pos eq.le]
        omega
      · rw [if_neg gt.not_gt, if_neg gt.ne', if_neg gt.not_ge]
        omega

/-- Rows with smaller keys, and their ties, all come before a row. -/
theorem position_le_of_lt {b : α} (smaller : key b < key a)
    : position key rows b + ties key rows b ≤ position key rows a := by
  rw [position_add_ties]
  exact List.countP_mono_left fun c _ le => by
    simpa using lt_of_le_of_lt (of_decide_eq_true le) smaller

/-- In every order a row stands among those that tie with it. -/
theorem Sorting.index_bounds (sorting : Sorting key rows sorted) {i : Nat}
    (at_i : sorted[i]? = some a)
    : position key rows a ≤ i ∧ i < position key rows a + ties key rows a := by
  obtain ⟨inside, same⟩ := List.getElem?_eq_some_iff.mp at_i
  have tail : sorted.drop i = a :: sorted.drop (i + 1) := by
    rw [List.drop_eq_getElem_cons inside, same]
  have split := List.take_append_drop i sorted
  have parts := sorting.ascending
  rw [← split, tail, List.pairwise_append, List.pairwise_cons] at parts
  obtain ⟨-, ⟨later, -⟩, earlier⟩ := parts
  have size : (sorted.take i).length = i := by rw [List.length_take]; omega
  constructor
  · rw [← position_perm sorting.perm, position, ← split, tail, List.countP_append]
    have none : (a :: sorted.drop (i + 1)).countP (fun b => decide (key b < key a)) = 0 := by
      rw [List.countP_eq_zero]
      intro b mem
      rcases List.mem_cons.mp mem with rfl | inRest
      · simp
      · simpa using later b inRest
    have few := List.countP_le_length (l := sorted.take i) (p := fun b => decide (key b < key a))
    omega
  · rw [position_add_ties, ← sorting.perm.countP_eq, ← split, tail, List.countP_append,
      List.countP_cons_of_pos (by simp)]
    have all : (sorted.take i).countP (fun b => decide (key b ≤ key a)) = i := by
      rw [List.countP_eq_length.mpr, size]
      intro b mem
      simpa using earlier b mem a List.mem_cons_self
    omega

/-- A row that stands among the ties of another one has its key. -/
theorem key_eq_of_between {b : α} {i : Nat}
    (first : position key rows b ≤ i ∧ i < position key rows b + ties key rows b)
    (second : position key rows a ≤ i ∧ i < position key rows a + ties key rows a)
    : key b = key a := by
  rcases lt_trichotomy (key b) (key a) with lt | eq | gt
  · have before : position key rows b + ties key rows b ≤ position key rows a :=
      position_le_of_lt lt
    omega
  · exact eq
  · have before : position key rows a + ties key rows a ≤ position key rows b :=
      position_le_of_lt gt
    omega

theorem ties_le_length (key : α → κ) (rows : List α) (a : α)
    : position key rows a + ties key rows a ≤ rows.length := by
  rw [position_add_ties]
  exact List.countP_le_length

/-- Different keys are never split. -/
theorem unsplit_of_distinct (distinct : (rows.map key).Nodup) (index : Nat)
    : Unsplit key rows index := by
  intro a mem before
  have alone : ties key rows a = 1 := by
    have once := List.count_eq_one_of_mem distinct (List.mem_map_of_mem (f := key) mem)
    rw [List.count, List.countP_map] at once
    rw [← once, ties]
    apply List.countP_congr
    intro b _
    simp
  omega

-----------------------------------------------------------------------------------------
-- Pages
-----------------------------------------------------------------------------------------

variable {size n : Nat}

/-- At an index that splits no ties, the rows before it are those of the smaller positions. -/
theorem Sorting.position_lt_iff (sorting : Sorting key rows sorted) {index i : Nat}
    (unsplit : Unsplit key rows index) (at_i : sorted[i]? = some a)
    : position key rows a < index ↔ i < index := by
  obtain ⟨low, high⟩ := sorting.index_bounds at_i
  constructor
  · intro before
    have whole := unsplit a (sorting.perm.mem_iff.mp (List.mem_of_getElem? at_i)) before
    omega
  · intro before
    omega

/-- Between two indices that split no ties stand, in every order, the rows of these positions. -/
theorem Sorting.slice_eq (sorting : Sorting key rows sorted) {lower : Nat}
    (unsplitLower : Unsplit key rows lower) (unsplitUpper : Unsplit key rows (lower + size))
    : (sorted.drop lower).take size
      = sorted.filter
          (fun a => lower ≤ position key rows a ∧ position key rows a < lower + size) := by
  have split : sorted.take lower ++ ((sorted.drop lower).take size ++ sorted.drop (lower + size))
      = sorted := by
    rw [← List.drop_drop, List.take_append_drop, List.take_append_drop]
  conv_rhs => rw [← split, List.filter_append, List.filter_append]
  have before : (sorted.take lower).filter
      (fun a => decide (lower ≤ position key rows a ∧ position key rows a < lower + size)) = [] := by
    rw [List.filter_eq_nil_iff]
    intro a mem
    obtain ⟨i, inside, found⟩ := index_of_mem_take mem
    have early := (sorting.position_lt_iff unsplitLower found).mpr inside
    simp only [decide_eq_true_eq]
    omega
  have after : (sorted.drop (lower + size)).filter
      (fun a => decide (lower ≤ position key rows a ∧ position key rows a < lower + size)) = [] := by
    rw [List.filter_eq_nil_iff]
    intro a mem
    obtain ⟨i, found⟩ := List.mem_iff_getElem?.mp mem
    rw [List.getElem?_drop] at found
    have late := (sorting.position_lt_iff unsplitUpper found).not.mpr (by omega)
    simp only [decide_eq_true_eq]
    omega
  have among : ((sorted.drop lower).take size).filter
      (fun a => decide (lower ≤ position key rows a ∧ position key rows a < lower + size))
      = (sorted.drop lower).take size := by
    rw [List.filter_eq_self]
    intro a mem
    obtain ⟨i, inside, found⟩ := index_of_mem_take mem
    rw [List.getElem?_drop] at found
    have reached := (sorting.position_lt_iff unsplitLower found).not.mpr (by omega)
    have early := (sorting.position_lt_iff unsplitUpper found).mpr (by omega)
    simp only [decide_eq_true_eq]
    omega
  rw [before, after, among, List.nil_append, List.append_nil]

/-- The rows of the first pages, by their positions: induction on the number of pages. -/
theorem filter_flatMap_perm (key : α → κ) (rows : List α) (size n : Nat)
    : ((List.range' 1 n).flatMap fun p => rows.filter
          (fun a => (p - 1) * size ≤ position key rows a
            ∧ position key rows a < (p - 1) * size + size)).Perm
        (rows.filter (fun a => position key rows a < n * size)) := by
  induction n with
  | zero => simp
  | succ n ih =>
      have step : (rows.filter (fun a => position key rows a < n * size)
          ++ rows.filter (fun a => n * size ≤ position key rows a
            ∧ position key rows a < n * size + size)).Perm
          (rows.filter (fun a => position key rows a < (n + 1) * size)) := by
        have parts := List.filter_append_perm (fun a => decide (position key rows a < n * size))
          (rows.filter (fun a => position key rows a < (n + 1) * size))
        rw [List.filter_filter, List.filter_filter] at parts
        have first : rows.filter (fun a => decide (position key rows a < n * size)
              && decide (position key rows a < (n + 1) * size))
            = rows.filter (fun a => position key rows a < n * size) := by
          apply List.filter_congr
          intro a _
          rw [Nat.add_mul, ← Bool.decide_and, decide_eq_decide]
          omega
        have second : rows.filter (fun a => !decide (position key rows a < n * size)
              && decide (position key rows a < (n + 1) * size))
            = rows.filter (fun a => n * size ≤ position key rows a
                ∧ position key rows a < n * size + size) := by
          apply List.filter_congr
          intro a _
          rw [Nat.add_mul, ← decide_not, ← Bool.decide_and, decide_eq_decide]
          omega
        rwa [first, second] at parts
      rw [List.range'_concat, List.flatMap_append, List.flatMap_cons, List.flatMap_nil,
        List.append_nil]
      have last : 1 + 1 * n - 1 = n := by omega
      rw [last]
      exact (ih.append_right _).trans step

/-- Some order of the rows. -/
theorem exists_sorting (key : α → κ) (rows : List α) : ∃ sorted, Sorting key rows sorted := by
  obtain ⟨sorted, perm, ascending⟩ := exists_sorted key rows
  exact ⟨sorted, perm, ascending⟩

/-- Two rows with the same key may change places. -/
theorem Sorting.swap (sorting : Sorting key rows sorted) {i j : Nat} (hi : i < sorted.length)
    (hj : j < sorted.length) (same : key sorted[i] = key sorted[j])
    : Sorting key rows ((sorted.set i sorted[j]).set j sorted[i]) := by
  refine ⟨(List.set_set_perm hi hj).trans sorting.perm, ?_⟩
  have keys : ((sorted.set i sorted[j]).set j sorted[i]).map key = sorted.map key := by
    have inside : i < (sorted.map key).length := by simpa using hi
    have alsoInside : j < (sorted.map key).length := by simpa using hj
    have first : key sorted[j] = (sorted.map key)[i] := by rw [List.getElem_map, same]
    have second : key sorted[i] = (sorted.map key)[j] := by rw [List.getElem_map, same]
    rw [List.map_set, List.map_set, first, List.set_getElem_self, second, List.set_getElem_self]
  have ascending := sorting.ascending
  rw [← List.pairwise_map (f := key) (R := (· ≤ ·))] at ascending ⊢
  rwa [keys]

/-- A page ends where the next one begins. -/
theorem page_end {p : Nat} (positive : 1 ≤ p) : (p - 1) * size + size = p * size := by
  rw [← Nat.succ_mul, Nat.succ_eq_add_one, Nat.sub_add_cancel positive]

/-- Where a page boundary splits ties, a row can end the page in one order and begin the next page
in another.
-/
theorem exists_repeated (sized : 0 < size) {p : Nat} (before : position key rows a < p * size)
    (split : p * size < position key rows a + ties key rows a)
    : ∃ first second b, Sorting key rows first ∧ Sorting key rows second
        ∧ b ∈ page size p first ∧ b ∈ page size (p + 1) second := by
  have positive : 1 ≤ p := by
    by_contra none
    obtain rfl : p = 0 := by omega
    omega
  have back : (p - 1) * size + size = p * size := page_end positive
  obtain ⟨sorted, sorting⟩ := exists_sorting key rows
  have length := sorting.perm.length_eq
  have inside := ties_le_length key rows a
  have hi : p * size - 1 < sorted.length := by omega
  have hj : p * size < sorted.length := by omega
  -- The rows on both sides of the boundary tie with `a`, so they may change places.
  have tie {i : Nat} (h : i < sorted.length) (low : position key rows a ≤ i)
      (high : i < position key rows a + ties key rows a)
      : key sorted[i] = key a :=
    key_eq_of_between (sorting.index_bounds (List.getElem?_eq_getElem h)) ⟨low, high⟩
  have same : key sorted[p * size - 1] = key sorted[p * size] :=
    (tie hi (by omega) (by omega)).trans (tie hj (by omega) (by omega)).symm
  refine ⟨sorted, _, sorted[p * size - 1], sorting, sorting.swap hi hj same, ?_, ?_⟩
  · apply List.mem_of_getElem? (i := size - 1)
    have index : (p - 1) * size + (size - 1) = p * size - 1 := by omega
    rw [page, List.getElem?_take_of_lt (by omega), List.getElem?_drop, index,
      List.getElem?_eq_getElem hi]
  · apply List.mem_of_getElem? (i := 0)
    rw [page, Nat.add_sub_cancel, List.getElem?_take_of_lt sized, List.getElem?_drop, Nat.add_zero,
      List.getElem?_set_self (by simpa using hj)]

/-- Where no page boundary splits ties, the pages of any orders hold every row exactly once. -/
theorem pages_perm_of_unsplit (enough : rows.length ≤ n * size)
    (unsplit : ∀ p, Unsplit key rows (p * size)) {sortings : Nat → List α}
    (allowed : ∀ p, Sorting key rows (sortings p))
    : ((List.range' 1 n).flatMap fun p => page size p (sortings p)).Perm rows := by
  have pages : ∀ p ∈ List.range' 1 n, (page size p (sortings p)).Perm
      (rows.filter (fun a => (p - 1) * size ≤ position key rows a
        ∧ position key rows a < (p - 1) * size + size)) := by
    intro p mem
    have positive : 1 ≤ p := (List.mem_range'_1.mp mem).1
    have next : (p - 1) * size + size = p * size := page_end positive
    rw [page, (allowed p).slice_eq (unsplit (p - 1)) (next ▸ unsplit p)]
    exact (allowed p).perm.filter _
  have all : rows.filter (fun a => position key rows a < n * size) = rows := by
    rw [List.filter_eq_self]
    intro a mem
    have inside := position_lt_length key mem
    simp only [decide_eq_true_eq]
    omega
  exact (List.Perm.flatMap_left _ pages).trans
    ((filter_flatMap_perm key rows size n).trans (List.Perm.of_eq all))

/-- The pages of any orders, one chosen for each page, hold every row exactly once if and only if
no page boundary splits rows with the same key.
-/
theorem pages_perm_iff (distinct : rows.Nodup) (sized : 0 < size)
    (enough : rows.length ≤ n * size)
    : (∀ sortings : Nat → List α, (∀ p, Sorting key rows (sortings p))
        → ((List.range' 1 n).flatMap fun p => page size p (sortings p)).Perm rows)
      ↔ ∀ p, Unsplit key rows (p * size) := by
  constructor
  · intro partition p a mem before
    by_contra split
    rw [Nat.not_le] at split
    obtain ⟨first, second, b, sorting, swapped, last, next⟩ := exists_repeated sized before split
    have inside := ties_le_length key rows a
    have within : p < n := Nat.lt_of_mul_lt_mul_right (a := size) (by omega)
    have positive : p ≠ 0 := by
      intro none
      rw [none, Nat.zero_mul] at before
      exact Nat.not_lt_zero _ before
    let sortings := fun q : Nat => if q = p then first else second
    have allowed : ∀ q, Sorting key rows (sortings q) := by
      intro q
      by_cases h : q = p
      · simpa [sortings, h] using sorting
      · simpa [sortings, h] using swapped
    have whole := (partition sortings allowed).nodup_iff.mpr distinct
    rw [List.nodup_flatMap] at whole
    have disjoint := List.pairwise_iff_getElem.mp whole.2 (p - 1) p (by simp; omega)
      (by simpa using within) (by omega)
    have at_p : 1 + (p - 1) = p := by omega
    rw [List.getElem_range', List.getElem_range', Nat.one_mul, Nat.one_mul, at_p,
      Nat.add_comm] at disjoint
    refine disjoint (a := b) ?_ ?_
    · simpa [sortings] using last
    · simpa [sortings] using next
  · intro unsplit sortings allowed
    exact pages_perm_of_unsplit enough unsplit allowed

end SortedPages
