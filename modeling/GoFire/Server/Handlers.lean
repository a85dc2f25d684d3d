import Mathlib.Data.List.Nodup
import Mathlib.Data.String.Basic

/-! Handlers: those a configuration lists, and those a container has registered. A name is registered
once and keeps its function.
-/

namespace GoFire.Server

-- The type of the functions that handle jobs.
variable {F : Type}

structure MethodHandler (F : Type) where
  jobName : String
  func : F

/-- RegisterHandler of a configuration with these handlers. A missing function is nil. -/
def registerHandler (handlers : List (MethodHandler F)) (jobName : String) (func : Option F)
    : List (MethodHandler F) × Option String :=
  match func with
  | some func =>
      if jobName = "" then (handlers, some "handler must have a job name and function")
      else (handlers ++ [⟨jobName, func⟩], none)
  | none => (handlers, some "handler must have a job name and function")

/-- The functions registered by name. -/
structure JobHandler (F : Type) where
  handlers : List (String × F)
  distinct : (handlers.map Prod.fst).Nodup

namespace JobHandler

def empty : JobHandler F := ⟨[], List.nodup_nil⟩

def names (jh : JobHandler F) : List String := jh.handlers.map Prod.fst

def find (jh : JobHandler F) (name : String) : Option F :=
  (jh.handlers.find? (fun handler => handler.1 = name)).map Prod.snd

def register (jh : JobHandler F) (name : String) (handler : F) : Except String (JobHandler F) :=
  if exists_ : name ∈ jh.names then .error ("handler '" ++ name ++ "' already registered")
  else
    .ok
      { handlers := jh.handlers ++ [(name, handler)]
        distinct := by
          rw [List.map_append, List.nodup_append_comm]
          exact List.nodup_cons.mpr ⟨exists_, jh.distinct⟩ }

/-- The function that Execute calls. -/
def execute (jh : JobHandler F) (name : String) : Except String F :=
  match jh.find name with
  | some handler => .ok handler
  | none => .error ("handler '" ++ name ++ "' not found")

variable {jh jh' : JobHandler F} {name : String} {handler : F}

theorem register_ok (ok : jh.register name handler = .ok jh')
    : name ∉ jh.names ∧ jh'.handlers = jh.handlers ++ [(name, handler)] := by
  unfold register at ok
  split at ok
  case isTrue => cases ok
  case isFalse fresh =>
    cases ok
    exact ⟨fresh, rfl⟩

theorem register_names (ok : jh.register name handler = .ok jh')
    : jh'.names = jh.names ++ [name] := by
  rw [names, (register_ok ok).2, List.map_append]
  rfl

theorem find_register (ok : jh.register name handler = .ok jh') (other : String)
    : jh'.find other = if name = other then some handler else jh.find other := by
  obtain ⟨fresh, added⟩ := register_ok ok
  rw [find, added, List.find?_append]
  by_cases same : name = other
  · have absent : jh.handlers.find? (fun handler => handler.1 = other) = none := by
      rw [List.find?_eq_none]
      intro registered mem found
      exact fresh (same ▸ of_decide_eq_true found ▸ List.mem_map_of_mem mem)
    simp [absent, same]
  · rw [if_neg same, find]
    simp [same]

/-- Whether a name has a function is what Exists returns. -/
theorem find_isSome : (jh.find name).isSome = true ↔ name ∈ jh.names := by
  rw [find, Option.isSome_map, List.find?_isSome, names, List.mem_map]
  simp only [decide_eq_true_eq]

end JobHandler

end GoFire.Server
