import Mathlib.Data.List.Nodup
import Mathlib.Data.List.Basic
import Mathlib.Data.List.Perm.Subperm

/-! A database table with a serial primary key: rows in insertion order, unique keys below the
next key, and the statements that insert, update, delete and read rows.
-/

/-- How a statement ends for its caller: with an answer, with an error and no effect, or with
an error that hides its effect.
-/
inductive Delivery where
  | answered
  | refused
  | lost
  deriving DecidableEq

/-- The table after a statement with this delivery. -/
def Delivery.apply {α : Type*} (delivery : Delivery) (before after : α) : α :=
  match delivery with
  | .answered => after
  | .refused => before
  | .lost => after

/-- Rows of type `ρ` with their key column. -/
structure KeyedTable (ρ : Type*) (key : ρ → Nat) where
  rows : List ρ
  nextKey : Nat
  unique : (rows.map key).Nodup
  below : ∀ row ∈ rows, key row < nextKey

namespace KeyedTable

variable {ρ : Type*} {key : ρ → Nat}

/-- A new table; the first serial key is 1. -/
def empty : KeyedTable ρ key := ⟨[], 1, List.nodup_nil, by simp⟩

/-- SELECT of the row with a key. -/
def get? (t : KeyedTable ρ key) (k : Nat) : Option ρ := t.rows.find? (key · = k)

/-- INSERT of a row made for the next serial key. -/
def insert (t : KeyedTable ρ key) (make : Nat → ρ) (keyed : ∀ k, key (make k) = k)
    : KeyedTable ρ key where
  rows := t.rows ++ [make t.nextKey]
  nextKey := t.nextKey + 1
  unique := by
    have fresh : t.nextKey ∉ t.rows.map key := by
      intro mem
      obtain ⟨row, inRows, same⟩ := List.mem_map.mp mem
      exact absurd (t.below row inRows) (by omega)
    rw [List.map_append, List.map_cons, List.map_nil, keyed, List.nodup_append]
    refine ⟨t.unique, List.nodup_singleton _, ?_⟩
    intro a ha b hb same
    rw [List.mem_singleton] at hb
    exact fresh (hb ▸ same ▸ ha)
  below := by
    intro row mem
    rcases List.mem_append.mp mem with old | new
    · exact Nat.lt_succ_of_lt (t.below row old)
    · rw [List.mem_singleton.mp new, keyed]
      exact Nat.lt_succ_self _

/-- UPDATE with a WHERE condition and a SET clause that does not touch the key. -/
def update (t : KeyedTable ρ key) (cond : ρ → Bool) (set : ρ → ρ)
    (keyed : ∀ row, key (set row) = key row)
    : KeyedTable ρ key where
  rows := t.rows.map (fun row => if cond row then set row else row)
  nextKey := t.nextKey
  unique := by
    have same : key ∘ (fun row => if cond row then set row else row) = key := by
      funext row
      by_cases h : cond row <;> simp [h, keyed]
    rw [List.map_map, same]
    exact t.unique
  below := by
    intro row mem
    obtain ⟨old, inRows, rfl⟩ := List.mem_map.mp mem
    by_cases h : cond old <;> simpa [h, keyed] using t.below old inRows

/-- The number of rows an UPDATE or a SELECT with this condition meets. -/
def affected (t : KeyedTable ρ key) (cond : ρ → Bool) : Nat := t.rows.countP cond

/-- Whether `order` lists the keys of exactly the rows that meet a WHERE condition, in an
order that an ORDER BY clause allows. Rows with equal sort keys may come in any order.
-/
def Ordering (t : KeyedTable ρ key) (cond : ρ → Bool) (le : ρ → ρ → Bool) (order : List Nat)
    : Bool :=
  order.isPerm ((t.rows.filter cond).map key)
    && decide ((order.filterMap t.get?).Pairwise (fun a b => le a b))

/-- The rows an ordered SELECT returns under OFFSET and LIMIT. -/
def select (t : KeyedTable ρ key) (order : List Nat) (offset limit : Nat) : List ρ :=
  ((order.filterMap t.get?).drop offset).take limit

/-- DELETE of the row with a key. -/
def delete (t : KeyedTable ρ key) (k : Nat) : KeyedTable ρ key where
  rows := t.rows.filter (fun row => key row ≠ k)
  nextKey := t.nextKey
  unique := t.unique.sublist (List.filter_sublist.map key)
  below := fun row mem => t.below row (List.mem_of_mem_filter mem)

/-- DELETE with a WHERE condition. -/
def deleteWhere (t : KeyedTable ρ key) (cond : ρ → Bool) : KeyedTable ρ key where
  rows := t.rows.filter (fun row => !cond row)
  nextKey := t.nextKey
  unique := t.unique.sublist (List.filter_sublist.map key)
  below := fun row mem => t.below row (List.mem_of_mem_filter mem)

/-- The keys of the rows. -/
def keys (t : KeyedTable ρ key) : List Nat := t.rows.map key

variable {t : KeyedTable ρ key} {k : Nat} {row : ρ}

theorem key_of_get? (h : t.get? k = some row) : key row = k := by
  have found := List.find?_some h
  simpa using found

theorem mem_of_get? (h : t.get? k = some row) : row ∈ t.rows := List.mem_of_find?_eq_some h

theorem lt_of_get? (h : t.get? k = some row) : k < t.nextKey :=
  key_of_get? h ▸ t.below row (mem_of_get? h)

/-- Two rows with the same key are the same row. -/
theorem eq_of_key {row' : ρ} (mem : row ∈ t.rows) (mem' : row' ∈ t.rows)
    (same : key row = key row')
    : row = row' :=
  List.inj_on_of_nodup_map t.unique mem mem' same

/-- A row of the table is what its key selects, since keys are unique. -/
theorem get?_of_mem (mem : row ∈ t.rows) : t.get? (key row) = some row := by
  cases h : t.get? (key row) with
  | none =>
      have absent := List.find?_eq_none.mp h row mem
      simp at absent
  | some other =>
      rw [eq_of_key (mem_of_get? h) mem (key_of_get? h)]

theorem isSome_get?_iff : (t.get? k).isSome = true ↔ k ∈ t.keys := by
  rw [Option.isSome_iff_exists, keys, List.mem_map]
  constructor
  · intro h
    obtain ⟨row, found⟩ := h
    exact ⟨row, mem_of_get? found, key_of_get? found⟩
  · intro h
    obtain ⟨row, mem, rfl⟩ := h
    exact ⟨row, get?_of_mem mem⟩

theorem keys_insert (make : Nat → ρ) (keyed : ∀ k, key (make k) = k)
    : (t.insert make keyed).keys = t.keys ++ [t.nextKey] := by
  rw [keys, insert, List.map_append, List.map_cons, List.map_nil, keyed, keys]

theorem keys_update (cond : ρ → Bool) (set : ρ → ρ) (keyed : ∀ row, key (set row) = key row)
    : (t.update cond set keyed).keys = t.keys := by
  rw [keys, update, List.map_map]
  apply List.map_congr_left
  intro row _
  by_cases h : cond row <;> simp [h, keyed]

theorem mem_keys_delete {k' : Nat} : k ∈ (t.delete k').keys ↔ k ∈ t.keys ∧ k ≠ k' := by
  simp only [keys, delete, List.mem_map, List.mem_filter]
  constructor
  · intro h
    obtain ⟨row, ⟨mem, other⟩, rfl⟩ := h
    exact ⟨⟨row, mem, rfl⟩, by simpa using other⟩
  · intro h
    obtain ⟨⟨row, mem, rfl⟩, other⟩ := h
    exact ⟨row, ⟨mem, by simpa using other⟩, rfl⟩

theorem mem_of_select {cond : ρ → Bool} {le : ρ → ρ → Bool} {order : List Nat}
    {offset limit : Nat} (ordering : t.Ordering cond le order)
    (mem : row ∈ t.select order offset limit)
    : t.get? (key row) = some row ∧ cond row = true := by
  have listed := List.mem_of_mem_drop (List.mem_of_mem_take mem)
  obtain ⟨k, inOrder, found⟩ := List.mem_filterMap.mp listed
  obtain rfl := key_of_get? found
  refine ⟨found, ?_⟩
  simp only [Ordering, Bool.and_eq_true, List.isPerm_iff] at ordering
  obtain ⟨other, meets, same⟩ := List.mem_map.mp (ordering.1.mem_iff.mp inOrder)
  obtain ⟨inRows, holds⟩ := List.mem_filter.mp meets
  have := get?_of_mem inRows
  rw [same, found] at this
  rw [Option.some.inj this]
  exact holds

/-- An ORDER BY lists exactly the rows that meet the condition, in ascending order. -/
theorem perm_of_ordering {cond : ρ → Bool} {le : ρ → ρ → Bool} {order : List Nat}
    (ordering : t.Ordering cond le order)
    : (order.filterMap t.get?).Perm (t.rows.filter cond)
      ∧ (order.filterMap t.get?).Pairwise (fun a b => le a b) := by
  simp only [Ordering, Bool.and_eq_true, List.isPerm_iff, decide_eq_true_eq] at ordering
  refine ⟨?_, ordering.2⟩
  have read : ((t.rows.filter cond).map key).filterMap t.get? = t.rows.filter cond := by
    rw [List.filterMap_map]
    refine (List.filterMap_congr fun row mem => ?_).trans (List.filterMap_some)
    exact get?_of_mem (List.mem_of_mem_filter mem)
  exact read ▸ ordering.1.filterMap t.get?

/-- Every list of those rows in ascending order is one that an ORDER BY allows. -/
theorem ordering_of_perm {cond : ρ → Bool} {le : ρ → ρ → Bool} {sorted : List ρ}
    (perm : sorted.Perm (t.rows.filter cond)) (ascending : sorted.Pairwise (fun a b => le a b))
    : t.Ordering cond le (sorted.map key) = true
      ∧ (sorted.map key).filterMap t.get? = sorted := by
  have read : (sorted.map key).filterMap t.get? = sorted := by
    rw [List.filterMap_map]
    refine (List.filterMap_congr fun row mem => ?_).trans (List.filterMap_some)
    exact get?_of_mem (List.mem_of_mem_filter (perm.mem_iff.mp mem))
  refine ⟨?_, read⟩
  rw [Ordering, read, Bool.and_eq_true, List.isPerm_iff, decide_eq_true_eq]
  exact ⟨perm.map key, ascending⟩

theorem get?_insert_new (make : Nat → ρ) (keyed : ∀ k, key (make k) = k)
    : (t.insert make keyed).get? t.nextKey = some (make t.nextKey) := by
  have inserted : make t.nextKey ∈ (t.insert make keyed).rows :=
    List.mem_append_right _ (List.mem_singleton.mpr rfl)
  have found := get?_of_mem inserted
  rwa [keyed] at found

/-- A SELECT that no old row meets reads the row inserted last. -/
theorem select_new (make : Nat → ρ) (keyed : ∀ k, key (make k) = k) {cond : ρ → Bool}
    (le : ρ → ρ → Bool) {limit : Nat} (others : ∀ row ∈ t.rows, cond row = false)
    (meets : cond (make t.nextKey) = true) (room : 0 < limit)
    : (t.insert make keyed).Ordering cond le [t.nextKey] = true
      ∧ (t.insert make keyed).select [t.nextKey] 0 limit = [make t.nextKey] := by
  have listed : [t.nextKey].filterMap (t.insert make keyed).get? = [make t.nextKey] := by
    rw [List.filterMap_cons, get?_insert_new, List.filterMap_nil]
  have filtered : (t.insert make keyed).rows.filter cond = [make t.nextKey] := by
    have none : t.rows.filter cond = [] :=
      List.filter_eq_nil_iff.mpr fun row mem => by simp [others row mem]
    rw [insert, List.filter_append, none, List.nil_append, List.filter_cons_of_pos meets,
      List.filter_nil]
  constructor
  · rw [Ordering, listed, filtered, List.map_cons, List.map_nil, keyed,
      List.isPerm_iff.mpr (List.Perm.refl _)]
    simp
  · rw [select, listed, List.drop_zero, List.take_of_length_le room]

/-- A row after an UPDATE is a row that met the condition and was set, or one that did not and
was kept.
-/
theorem mem_update {cond : ρ → Bool} {set : ρ → ρ} (keyed : ∀ row, key (set row) = key row)
    {row' : ρ} (mem : row' ∈ (t.update cond set keyed).rows)
    : ∃ row ∈ t.rows, (cond row = true ∧ row' = set row)
        ∨ (cond row = false ∧ row' = row) := by
  obtain ⟨row, inRows, rfl⟩ := List.mem_map.mp mem
  refine ⟨row, inRows, ?_⟩
  cases holds : cond row with
  | true => exact Or.inl ⟨rfl, by simp⟩
  | false => exact Or.inr ⟨rfl, by simp⟩

/-- An UPDATE of the row with a key keeps every other row. -/
theorem mem_update_key {set : ρ → ρ} (keyed : ∀ row, key (set row) = key row) {row' : ρ}
    (mem : row' ∈ (t.update (fun row => key row = k) set keyed).rows)
    : ∃ row ∈ t.rows, (key row = k ∧ row' = set row) ∨ (key row ≠ k ∧ row' = row) := by
  obtain ⟨row, inRows, cases⟩ := mem_update keyed mem
  simp only [decide_eq_true_eq, decide_eq_false_iff_not] at cases
  exact ⟨row, inRows, cases⟩

/-- So does an UPDATE of the row with a key under a further condition. -/
theorem mem_update_key_if {cond : ρ → Bool} {set : ρ → ρ}
    (keyed : ∀ row, key (set row) = key row) {row' : ρ}
    (mem : row' ∈ (t.update (fun row => decide (key row = k) && cond row) set keyed).rows)
    : ∃ row ∈ t.rows, (key row = k ∧ cond row = true ∧ row' = set row)
        ∨ (row' = row ∧ ¬ (key row = k ∧ cond row = true)) := by
  obtain ⟨row, inRows, ⟨both, rfl⟩ | ⟨notBoth, rfl⟩⟩ := mem_update keyed mem
  · simp only [Bool.and_eq_true, decide_eq_true_eq] at both
    exact ⟨row, inRows, Or.inl ⟨both.1, both.2, rfl⟩⟩
  · refine ⟨_, inRows, Or.inr ⟨rfl, ?_⟩⟩
    intro h
    obtain ⟨same, holds⟩ := h
    simp [same, holds] at notBoth

/-- A row that meets the condition is set. -/
theorem set_mem_update {cond : ρ → Bool} {set : ρ → ρ} (keyed : ∀ row, key (set row) = key row)
    (mem : row ∈ t.rows) (holds : cond row = true)
    : set row ∈ (t.update cond set keyed).rows :=
  List.mem_map.mpr ⟨row, mem, by simp [holds]⟩

/-- It is then read as it was set. -/
theorem get?_update {cond : ρ → Bool} {set : ρ → ρ} (keyed : ∀ row, key (set row) = key row)
    (found : t.get? k = some row) (holds : cond row = true)
    : (t.update cond set keyed).get? k = some (set row) := by
  have read := get?_of_mem (set_mem_update keyed (mem_of_get? found) holds)
  rwa [keyed, key_of_get? found] at read

/-- A row that does not meet it is kept. -/
theorem kept_mem_update {cond : ρ → Bool} {set : ρ → ρ}
    (keyed : ∀ row, key (set row) = key row) (mem : row ∈ t.rows) (fails : cond row = false)
    : row ∈ (t.update cond set keyed).rows :=
  List.mem_map.mpr ⟨row, mem, by simp [fails]⟩

/-- So is a row that an UPDATE for one key does not meet. -/
theorem kept_mem_update_key_if {cond : ρ → Bool} {set : ρ → ρ}
    (keyed : ∀ row, key (set row) = key row) (mem : row ∈ t.rows)
    (spared : cond row = true → k ≠ key row)
    : row ∈ (t.update (fun row => decide (key row = k) && cond row) set keyed).rows := by
  refine kept_mem_update keyed mem (Bool.eq_false_iff.mpr fun meets => ?_)
  rw [Bool.and_eq_true, decide_eq_true_iff] at meets
  exact spared meets.2 meets.1.symm

theorem mem_insert {make : Nat → ρ} (keyed : ∀ k, key (make k) = k) {row' : ρ}
    (mem : row' ∈ (t.insert make keyed).rows)
    : row' ∈ t.rows ∨ row' = make t.nextKey :=
  (List.mem_append.mp mem).imp id List.mem_singleton.mp

/-- A property of all rows is kept by an UPDATE exactly when every row that meets the condition
has it after it is set.
-/
theorem forall_update_iff {cond : ρ → Bool} {set : ρ → ρ}
    (keyed : ∀ row, key (set row) = key row) {P : ρ → Prop} (all : ∀ row ∈ t.rows, P row)
    : (∀ row ∈ (t.update cond set keyed).rows, P row)
      ↔ ∀ row ∈ t.rows, cond row = true → P (set row) := by
  rw [update, List.forall_mem_map]
  apply forall_congr'
  intro row
  apply imp_congr_right
  intro mem
  by_cases holds : cond row
  · simp [holds]
  · simp [holds, all row mem]

theorem forall_update_key_iff {set : ρ → ρ} (keyed : ∀ row, key (set row) = key row)
    {P : ρ → Prop} (all : ∀ row ∈ t.rows, P row)
    : (∀ row ∈ (t.update (fun row => key row = k) set keyed).rows, P row)
      ↔ ∀ row ∈ t.get? k, P (set row) := by
  rw [forall_update_iff keyed all]
  constructor
  · intro kept row found
    exact kept row (mem_of_get? found) (by simpa using key_of_get? found)
  · intro kept row mem same
    obtain rfl : key row = k := by simpa using same
    exact kept row (get?_of_mem mem)

theorem forall_insert {make : Nat → ρ} (keyed : ∀ k, key (make k) = k) {P : ρ → Prop}
    (all : ∀ row ∈ t.rows, P row) (new : P (make t.nextKey))
    : ∀ row ∈ (t.insert make keyed).rows, P row := by
  intro row mem
  rcases mem_insert keyed mem with old | rfl
  · exact all row old
  · exact new

theorem mem_delete {k' : Nat} {row' : ρ} (mem : row' ∈ (t.delete k').rows)
    : row' ∈ t.rows ∧ key row' ≠ k' := by
  simpa using List.mem_filter.mp mem

/-- A condition meets at least as many rows as there are keys whose rows meet it. -/
theorem length_le_affected {cond : ρ → Bool} {ks : List Nat} (distinct : ks.Nodup)
    (meet : ∀ k ∈ ks, (t.get? k).any cond = true)
    : ks.length ≤ t.affected cond := by
  have listed : ks ⊆ (t.rows.filter cond).map key := by
    intro k mem
    obtain ⟨row, found, holds⟩ := (Option.any_eq_true _ _).mp (meet k mem)
    exact List.mem_map.mpr
      ⟨row, List.mem_filter.mpr ⟨mem_of_get? found, holds⟩, key_of_get? found⟩
  have shorter := (List.Nodup.subperm distinct listed).length_le
  rwa [List.length_map, ← List.countP_eq_length_filter] at shorter

/-- A statement for one key affects a row exactly when the selected row meets the rest of
its condition.
-/
theorem affected_key_pos {cond : ρ → Bool}
    : 0 < t.affected (fun row => decide (key row = k) && cond row)
      ↔ ∃ row, t.get? k = some row ∧ cond row = true := by
  rw [affected, List.countP_pos_iff]
  constructor
  · intro h
    obtain ⟨row, mem, h⟩ := h
    simp only [Bool.and_eq_true, decide_eq_true_eq] at h
    exact ⟨row, h.1 ▸ get?_of_mem mem, h.2⟩
  · intro h
    obtain ⟨row, h, holds⟩ := h
    exact ⟨row, mem_of_get? h, by simp [key_of_get? h, holds]⟩

end KeyedTable
