import Mathlib.Data.List.Nodup
import Mathlib.Order.Lattice

/-! Lists in the ascending order of a sort key, read page by page: the position of an entry is
the number of entries before it, and tells the page it is on.
-/

namespace SortedPages

variable {α κ : Type*} [LinearOrder κ] {key : α → κ} {rows sorted : List α} {a : α}

/-- The number of rows whose sort key is smaller. -/
def position (key : α → κ) (rows : List α) (a : α) : Nat :=
  rows.countP (fun b => key b < key a)

theorem position_perm (perm : sorted.Perm rows) : position key sorted a = position key rows a :=
  perm.countP_eq _

theorem position_cons (b : α) (rest : List α)
    : position key (b :: rest) a = position key rest a + if key b < key a then 1 else 0 := by
  simp only [position, List.countP_cons, decide_eq_true_eq]

/-- A row does not come before itself. -/
theorem position_lt_length (key : α → κ) (mem : a ∈ rows) : position key rows a < rows.length := by
  rw [position, List.length_eq_countP_add_countP (fun b => key b < key a)]
  have behind : 0 < rows.countP (fun b => ¬ (decide (key b < key a)) = true) :=
    List.countP_pos_iff.mpr ⟨a, mem, by simp⟩
  omega

/-- In an ascending list every row is at its position, by induction on the list. -/
theorem getElem?_position (ascending : sorted.Pairwise (fun b c => key b < key c))
    (mem : a ∈ sorted)
    : sorted[position key sorted a]? = some a := by
  induction sorted with
  | nil => cases mem
  | cons b rest ih =>
      obtain ⟨first, later⟩ := List.pairwise_cons.mp ascending
      rw [position_cons]
      rcases List.mem_cons.mp mem with rfl | inRest
      · have none : position key rest a = 0 :=
          List.countP_eq_zero.mpr fun c inRest => by simpa using (first c inRest).le
        simp [none]
      · rw [if_pos (first a inRest), List.getElem?_cons_succ]
        exact ih later inRest

/-- The row at an index has that position. -/
theorem position_getElem (ascending : sorted.Pairwise (fun b c => key b < key c)) {n : Nat}
    (at_n : sorted[n]? = some a)
    : position key sorted a = n := by
  have mem := List.mem_of_getElem? at_n
  have same := getElem?_position ascending mem
  have distinct : sorted.Nodup := ascending.imp fun h same => h.ne (congrArg key same)
  have inside := position_lt_length key mem
  exact (List.getElem?_inj inside distinct).mp (same.trans at_n.symm)

/-- A row is on the page of its position. -/
theorem mem_page (ascending : sorted.Pairwise (fun b c => key b < key c)) (mem : a ∈ sorted)
    {offset size : Nat} (reached : offset ≤ position key sorted a)
    (inside : position key sorted a < offset + size)
    : a ∈ (sorted.drop offset).take size := by
  have at_position := getElem?_position ascending mem
  obtain ⟨n, same⟩ := Nat.exists_eq_add_of_le reached
  refine List.mem_of_getElem? (i := n) ?_
  rw [List.getElem?_take_of_lt (by omega), List.getElem?_drop, ← same]
  exact at_position

/-- A row among the first `n` has an index below `n`. -/
theorem index_of_mem_take {n : Nat} (mem : a ∈ rows.take n) : ∃ i, i < n ∧ rows[i]? = some a := by
  obtain ⟨i, inside, same⟩ := List.mem_take_iff_getElem.mp mem
  exact ⟨i, by omega, List.getElem?_eq_some_iff.mpr ⟨by omega, same⟩⟩

/-- Rows can be listed in the order of their sort keys. -/
theorem exists_sorted (key : α → κ) (rows : List α)
    : ∃ sorted : List α, sorted.Perm rows ∧ sorted.Pairwise (fun b c => key b ≤ key c) := by
  let le := fun b c : α => decide (key b ≤ key c)
  have weakly : (rows.mergeSort le).Pairwise (fun b c => le b c) := by
    refine List.pairwise_mergeSort (fun b c d => ?_) (fun b c => ?_) rows
    · simpa [le] using le_trans
    · simpa [le] using le_total (key b) (key c)
  exact ⟨_, List.mergeSort_perm rows le, weakly.imp of_decide_eq_true⟩

/-- Different sort keys make that order a strict one. -/
theorem exists_ascending (distinct : (rows.map key).Nodup)
    : ∃ sorted : List α, sorted.Perm rows ∧ sorted.Pairwise (fun b c => key b < key c) := by
  obtain ⟨sorted, perm, weakly⟩ := exists_sorted key rows
  have different : sorted.Pairwise (fun b c => key b ≠ key c) :=
    List.pairwise_map.mp ((perm.map key).nodup_iff.mpr distinct)
  exact ⟨sorted, perm, (weakly.and different).imp fun both => lt_of_le_of_ne both.1 both.2⟩

/-- Before a row at or behind position `n` stand `n` rows whose position is smaller. -/
theorem exists_first (distinct : (rows.map key).Nodup) (mem : a ∈ rows) {n : Nat}
    (behind : n ≤ position key rows a)
    : ∃ first : List α, first.length = n ∧ first.Nodup
        ∧ ∀ b ∈ first, b ∈ rows ∧ key b < key a ∧ position key rows b < n := by
  obtain ⟨sorted, perm, ascending⟩ := exists_ascending distinct
  have at_position := getElem?_position ascending (perm.mem_iff.mpr mem)
  rw [position_perm perm] at at_position
  have inside := position_lt_length key mem
  refine ⟨sorted.take n, ?_, ?_, fun b inFirst => ?_⟩
  · rw [List.length_take, perm.length_eq]
    omega
  · exact (perm.nodup_iff.mpr (List.Nodup.of_map key distinct)).sublist (List.take_sublist n sorted)
  · obtain ⟨i, early, found⟩ := index_of_mem_take inFirst
    have place := position_getElem ascending found
    rw [position_perm perm] at place
    refine ⟨perm.mem_iff.mp (List.mem_of_getElem? found), ?_, by omega⟩
    obtain ⟨i_lt, at_i⟩ := List.getElem?_eq_some_iff.mp found
    obtain ⟨lt, at_a⟩ := List.getElem?_eq_some_iff.mp at_position
    have before := List.pairwise_iff_getElem.mp ascending i _ i_lt lt (by omega)
    rwa [at_i, at_a] at before

end SortedPages
