import GoFire.Foundations.SettlingSteps

/-! The catalog of a PostgreSQL database, as far as CREATE SCHEMA, CREATE TABLE and CREATE INDEX with
IF NOT EXISTS read and write it. Tables and indexes of a schema share their names.
-/

namespace GoFire.Db

structure RelationName where
  schema : String
  name : String
  deriving DecidableEq

/-- An index is in the schema of its table. -/
inductive Relation where
  | table (columns : List String)
  | index (table : String) (columns : List String)
  deriving DecidableEq

structure Catalog where
  schemas : List String
  find : RelationName → Option Relation

/-- A name in a script. Without a schema it is in the schema that the connection works in. -/
structure ScriptName where
  schema : Option String
  name : String

def ScriptName.resolve (currentSchema : String) (name : ScriptName) : RelationName :=
  ⟨name.schema.getD currentSchema, name.name⟩

/-- The statements, all with IF NOT EXISTS. -/
inductive Statement where
  | createSchema (schema : String)
  | createTable (table : ScriptName) (columns : List String)
  | createIndex (index : String) (table : ScriptName) (columns : List String)

/-- The errors of the statements by their codes: 3F000, 42P01, 42809 and 42703. -/
inductive SqlState where
  | invalidSchemaName
  | undefinedTable
  | wrongObjectType
  | undefinedColumn
  deriving DecidableEq

namespace Catalog

/-- IF NOT EXISTS looks at the name only, not at what it names. -/
def addIfFree (c : Catalog) (name : RelationName) (relation : Relation) : Catalog :=
  match c.find name with
  | some _ => c
  | none => { c with find := fun other => if other = name then some relation else c.find other }

def exec (currentSchema : String) (c : Catalog) : Statement → Except SqlState Catalog
  | .createSchema schema =>
      .ok (if schema ∈ c.schemas then c else { c with schemas := schema :: c.schemas })
  | .createTable table columns =>
      let name := table.resolve currentSchema
      if name.schema ∈ c.schemas then .ok (c.addIfFree name (.table columns))
      else .error .invalidSchemaName
  | .createIndex index table columns =>
      let name := table.resolve currentSchema
      match c.find name with
      | none => .error .undefinedTable
      | some (.index _ _) => .error .wrongObjectType
      | some (.table existing) =>
          if columns ⊆ existing then
            .ok (c.addIfFree ⟨name.schema, index⟩ (.index name.name columns))
          else .error .undefinedColumn

/-- A larger catalog has the same schemas and relations, and maybe more. -/
instance : Preorder Catalog where
  le c d := c.schemas ⊆ d.schemas
    ∧ ∀ name relation, c.find name = some relation → d.find name = some relation
  le_refl _ := ⟨List.Subset.refl _, fun _ _ found => found⟩
  le_trans _ _ _ first second :=
    ⟨List.Subset.trans first.1 second.1, fun name relation found =>
      second.2 name relation (first.2 name relation found)⟩

variable {c d : Catalog} {name : RelationName} {relation : Relation}

theorem addIfFree_of_find (found : c.find name ≠ none) : c.addIfFree name relation = c := by
  unfold addIfFree
  split
  case h_1 => rfl
  case h_2 free => exact absurd free found

theorem find_addIfFree_self : (c.addIfFree name relation).find name ≠ none := by
  unfold addIfFree
  split
  case h_1 found =>
    rw [found]
    exact Option.some_ne_none _
  case h_2 => simp

theorem le_addIfFree : c ≤ c.addIfFree name relation := by
  unfold addIfFree
  split
  case h_1 => exact le_refl c
  case h_2 free =>
    refine ⟨List.Subset.refl _, fun other existing found => ?_⟩
    have different : other ≠ name := by
      rintro rfl
      simp [free] at found
    exact (if_neg different).trans found

/-- A name that is taken stays taken. -/
theorem find_ne_none_of_le (le : c ≤ d) (found : c.find name ≠ none) : d.find name ≠ none := by
  obtain ⟨relation, found⟩ := Option.ne_none_iff_exists'.mp found
  rw [le.2 name relation found]
  exact Option.some_ne_none _

end Catalog

/-- Every statement settles. -/
def Statement.settling (currentSchema : String) (statement : Statement)
    : SettlingStep Catalog SqlState where
  exec c := c.exec currentSchema statement
  adds := by
    intro c d h
    cases statement with
    | createSchema schema =>
        obtain rfl := Except.ok.inj h
        split
        case isTrue => exact le_refl c
        case isFalse => exact ⟨List.subset_cons_self _ _, fun _ _ found => found⟩
    | createTable table columns =>
        simp only [Catalog.exec] at h
        split at h
        case isFalse => cases h
        case isTrue =>
          obtain rfl := Except.ok.inj h
          exact Catalog.le_addIfFree
    | createIndex index table columns =>
        simp only [Catalog.exec] at h
        split at h
        case h_1 | h_2 => cases h
        case h_3 =>
          split at h
          case isFalse => cases h
          case isTrue =>
            obtain rfl := Except.ok.inj h
            exact Catalog.le_addIfFree
  settles := by
    intro c d e h later
    cases statement with
    | createSchema schema =>
        obtain rfl := Except.ok.inj h
        have there : schema ∈ e.schemas := by
          apply later.1
          split
          case isTrue old => exact old
          case isFalse => exact List.mem_cons_self
        simp only [Catalog.exec, if_pos there]
    | createTable table columns =>
        simp only [Catalog.exec] at h ⊢
        split at h
        case isFalse => cases h
        case isTrue inside =>
          obtain rfl := Except.ok.inj h
          have taken := Catalog.find_ne_none_of_le later Catalog.find_addIfFree_self
          rw [if_pos (later.1 (Catalog.le_addIfFree.1 inside)), Catalog.addIfFree_of_find taken]
    | createIndex index table columns =>
        simp only [Catalog.exec] at h ⊢
        split at h
        case h_1 | h_2 => cases h
        case h_3 existing found =>
          split at h
          case isFalse => cases h
          case isTrue known =>
            obtain rfl := Except.ok.inj h
            have taken := Catalog.find_ne_none_of_le later Catalog.find_addIfFree_self
            rw [later.2 _ _ (Catalog.le_addIfFree.2 _ _ found)]
            simp only [if_pos known, Catalog.addIfFree_of_find taken]

end GoFire.Db
