import GoFire.Foundations.KeyedTable
import Mathlib.Data.List.Induction

/-! A table with a serial key as a numbered list: the rows that were ever inserted, in the order of
their keys, with a gap for each row that was deleted.
-/

namespace KeyedTable

variable {ρ α : Type*}

/-- The entries that are left, with their numbers. -/
def numbered (entries : List (Option α)) : List (Nat × α) :=
  (entries.zipIdx 1).filterMap fun entry => entry.1.map fun value => (entry.2, value)

/-- The list without the entry of a number. -/
def blot (entries : List (Option α)) (number : Nat) : List (Option α) :=
  entries.mapIdx fun i entry => if i + 1 = number then none else entry

@[simp] theorem length_blot (entries : List (Option α)) (number : Nat)
    : (blot entries number).length = entries.length :=
  List.length_mapIdx

theorem numbered_concat (entries : List (Option α)) (entry : Option α)
    : numbered (entries ++ [entry])
      = numbered entries ++ (entry.map fun value => (entries.length + 1, value)).toList := by
  rw [numbered, List.zipIdx_append, List.filterMap_append, numbered, Nat.add_comm 1]
  cases entry <;> rfl

/-- Deleting a number leaves the entries with other numbers, by induction from the end. -/
theorem numbered_blot (entries : List (Option α)) (number : Nat)
    : numbered (blot entries number) = (numbered entries).filter fun entry => entry.1 ≠ number := by
  induction entries using List.reverseRecOn with
  | nil => rfl
  | append_singleton entries entry ih =>
      rw [blot, List.mapIdx_concat, ← blot, numbered_concat, numbered_concat, List.filter_append,
        ih, length_blot]
      congr 1
      cases entry with
      | none =>
          split <;> rfl
      | some value =>
          by_cases same : entries.length + 1 = number
          · simp [same]
          · simp [same]

variable {key : ρ → Nat}

/-- The table as a numbered list, seen through columns of its rows. -/
structure Numbers (t : KeyedTable ρ key) (columns : ρ → α) (entries : List (Option α)) : Prop where
  next : t.nextKey = entries.length + 1
  rows : t.rows.map (fun row => (key row, columns row)) = numbered entries

namespace Numbers

variable {t : KeyedTable ρ key} {columns : ρ → α} {entries : List (Option α)}

theorem empty : (KeyedTable.empty : KeyedTable ρ key).Numbers columns [] := ⟨rfl, rfl⟩

theorem insert (numbers : t.Numbers columns entries) (make : Nat → ρ)
    (keyed : ∀ k, key (make k) = k)
    : (t.insert make keyed).Numbers columns (entries ++ [some (columns (make t.nextKey))]) where
  next := by
    rw [List.length_append, List.length_singleton, ← numbers.next]
    rfl
  rows := by
    rw [numbered_concat, ← numbers.rows, ← numbers.next]
    simp only [KeyedTable.insert, List.map_append, List.map_cons, List.map_nil, keyed,
      Option.map_some, Option.toList_some]

theorem update (numbers : t.Numbers columns entries) (cond : ρ → Bool) {set : ρ → ρ}
    (keyed : ∀ row, key (set row) = key row) (kept : ∀ row, columns (set row) = columns row)
    : (t.update cond set keyed).Numbers columns entries where
  next := numbers.next
  rows := by
    rw [← numbers.rows, KeyedTable.update, List.map_map]
    refine List.map_congr_left fun row _ => ?_
    simp only [Function.comp_apply]
    split
    · rw [keyed, kept]
    · rfl

theorem delete (numbers : t.Numbers columns entries) (number : Nat)
    : (t.delete number).Numbers columns (blot entries number) where
  next := by
    rw [length_blot]
    exact numbers.next
  rows := by
    rw [numbered_blot, ← numbers.rows, List.filter_map]
    rfl

end Numbers

end KeyedTable
