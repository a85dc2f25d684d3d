import GoFire.Foundations.KeyedTable

/-! A keyed table read through a second column that is unique too: lookups by this column after the
statements on the table.
-/

namespace KeyedTable

variable {ρ ν β : Type*} {key : ρ → Nat} {t : KeyedTable ρ key} {name : ρ → ν}

/-- No two rows have the same name. -/
def Distinct (t : KeyedTable ρ key) (name : ρ → ν) : Prop := (t.rows.map name).Nodup

theorem Distinct.update (distinct : t.Distinct name) (cond : ρ → Bool) {set : ρ → ρ}
    (keyed : ∀ row, key (set row) = key row) (named : ∀ row, name (set row) = name row)
    : (t.update cond set keyed).Distinct name := by
  have same : name ∘ (fun row => if cond row then set row else row) = name := by
    funext row
    by_cases meets : cond row <;> simp [meets, named]
  rw [Distinct, KeyedTable.update, List.map_map, same]
  exact distinct

variable [DecidableEq ν]

/-- SELECT of the row with a name. -/
def lookup (t : KeyedTable ρ key) (name : ρ → ν) (n : ν) : Option ρ :=
  t.rows.find? (fun row => name row = n)

variable {n : ν} {row : ρ}

theorem mem_of_lookup (found : t.lookup name n = some row) : row ∈ t.rows ∧ name row = n :=
  ⟨List.mem_of_find?_eq_some found, by simpa using List.find?_some found⟩

/-- A row is what its name finds when the names are distinct. -/
theorem lookup_of_mem (distinct : t.Distinct name) (mem : row ∈ t.rows)
    : t.lookup name (name row) = some row := by
  cases found : t.lookup name (name row) with
  | none => simpa using List.find?_eq_none.mp found row mem
  | some other =>
      obtain ⟨mem', same⟩ := mem_of_lookup found
      rw [List.inj_on_of_nodup_map distinct mem' mem same]

theorem lookup_eq_none : t.lookup name n = none ↔ n ∉ t.rows.map name := by
  simp [lookup, List.find?_eq_none]

/-- An UPDATE that keeps the names sets what a lookup finds. -/
theorem lookup_update (cond : ρ → Bool) {set : ρ → ρ} (keyed : ∀ row, key (set row) = key row)
    (named : ∀ row, name (set row) = name row)
    : (t.update cond set keyed).lookup name n
      = (t.lookup name n).map (fun row => if cond row then set row else row) := by
  have same : (fun row => decide (name row = n)) ∘ (fun row => if cond row then set row else row)
      = fun row => decide (name row = n) := by
    funext row
    by_cases meets : cond row <;> simp [meets, named]
  rw [lookup, update, List.find?_map, same, lookup]

/-- A column that the UPDATE does not set is read as before. -/
theorem lookup_update_kept (cond : ρ → Bool) {set : ρ → ρ} (keyed : ∀ row, key (set row) = key row)
    (named : ∀ row, name (set row) = name row) {column : ρ → β}
    (kept : ∀ row, column (set row) = column row)
    : ((t.update cond set keyed).lookup name n).map column = (t.lookup name n).map column := by
  have same : column ∘ (fun row => if cond row then set row else row) = column := by
    funext row
    by_cases meets : cond row <;> simp [meets, kept]
  rw [lookup_update cond keyed named, Option.map_map, same]

/-- An UPDATE of the row that a lookup finds is seen under its name only, since keys are unique. -/
theorem lookup_update_found {old : ρ} {set : ρ → ρ} (found : t.lookup name n = some old)
    (keyed : ∀ row, key (set row) = key row) (named : ∀ row, name (set row) = name row) (n' : ν)
    : (t.update (fun row => key row = key old) set keyed).lookup name n'
      = if n' = n then some (set old) else t.lookup name n' := by
  rw [lookup_update _ keyed named]
  split
  case isTrue same =>
    subst same
    simp [found]
  case isFalse other =>
    cases found' : t.lookup name n' with
    | none => rfl
    | some row =>
        have differ : key row ≠ key old := by
          intro same
          have := eq_of_key (mem_of_lookup found').1 (mem_of_lookup found).1 same
          rw [← (mem_of_lookup found').2, this] at other
          exact other (mem_of_lookup found).2
        simp [differ]

/-- A row that is inserted under a free name is found under it. -/
theorem lookup_insert {make : Nat → ρ} (keyed : ∀ k, key (make k) = k)
    (free : t.lookup name (name (make t.nextKey)) = none) (n : ν)
    : (t.insert make keyed).lookup name n
      = if n = name (make t.nextKey) then some (make t.nextKey) else t.lookup name n := by
  rw [lookup, insert, List.find?_append, ← lookup]
  split
  case isTrue same =>
    subst same
    simp [free]
  case isFalse other => simp [Ne.symm other]

theorem Distinct.insert (distinct : t.Distinct name) {make : Nat → ρ}
    (keyed : ∀ k, key (make k) = k) (free : t.lookup name (name (make t.nextKey)) = none)
    : (t.insert make keyed).Distinct name := by
  rw [Distinct, KeyedTable.insert, List.map_append, List.map_singleton]
  exact List.nodup_append.mpr ⟨distinct, List.nodup_singleton _, fun a mem b new same =>
    lookup_eq_none.mp free (by rwa [← List.mem_singleton.mp new, ← same])⟩

end KeyedTable
