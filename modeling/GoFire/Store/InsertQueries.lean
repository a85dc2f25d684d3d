import GoFire.Store.DueJobsQuery

/-! The INSERT statements of Insert and BulkInsert: their texts, numbered placeholders and
arguments, and the rows the database makes of them.
-/

namespace GoFire.Store

open GoFire.State

/-- An argument of an INSERT. -/
inductive InsertArgument where
  | name (value : String)
  | payload (value : Json)
  | time (instant : Int)
  | int (value : Nat)

/-- The placeholders of one row of VALUES. -/
structure RowPlaceholders where
  name : Nat
  payload : Nat
  scheduledAt : Nat
  maxAttempts : Nat
deriving DecidableEq

namespace RowPlaceholders

def list (row : RowPlaceholders) : List Nat :=
  [row.name, row.payload, row.scheduledAt, row.maxAttempts]

def text (row : RowPlaceholders) : String :=
  "(" ++ ", ".intercalate (row.list.map placeholderText) ++ ", now())"

/-- The placeholders that the loop of BulkInsert computes from its index. -/
def atIndex (i : Nat) : RowPlaceholders :=
  let offset := i * 4
  ⟨offset + 1, offset + 2, offset + 3, offset + 4⟩

end RowPlaceholders

/-- The placeholders and the arguments of a statement as the loop of BulkInsert collects them. -/
structure Insertion where
  placeholders : List RowPlaceholders := []
  args : List InsertArgument := []

/-- The text of BulkInsert's statement. -/
def Insertion.text (insertion : Insertion) : String :=
  "\n        INSERT INTO gofire_schema.enqueued_jobs (\n            name,\n            payload,"
    ++ "\n            scheduled_at,\n            max_attempts,\n            created_at"
    ++ "\n        ) VALUES \n    "
    ++ ",".intercalate (insertion.placeholders.map RowPlaceholders.text)

example
    : ",".intercalate ([0, 1].map fun i => (RowPlaceholders.atIndex i).text)
      = "($1, $2, $3, $4, now()),($5, $6, $7, $8, now())" := by
  decide +kernel

/-- The columns of a row that an INSERT takes from a job: name, payload and scheduled_at. -/
abbrev Inserted := String × Json × Int

/-- A job with arguments of any type, as the callers of Insert and BulkInsert hand it over. -/
structure NewJob (β : Type) where
  name : String
  args : β
  scheduledAt : Int

/-- The arguments that are appended for a job. -/
def insertArguments (values : Inserted) : List InsertArgument :=
  [.name values.1, .payload values.2.1, .time values.2.2, .int maxRetryAttempt]

section

variable {β : Type} (marshal : β → Except String Json)

/-- The loop of BulkInsert; it stops at the first job whose arguments cannot be marshalled. -/
def collectRows (i : Nat) (insertion : Insertion) : List (NewJob β) → Except String Insertion
  | [] => .ok insertion
  | job :: rest =>
      match marshal job.args with
      | .error err => .error ("failed to marshal job args at index " ++ toString i ++ ": " ++ err)
      | .ok payloadJSON =>
          collectRows (i + 1)
            { placeholders := insertion.placeholders ++ [.atIndex i],
              args := insertion.args ++ insertArguments (job.name, payloadJSON, job.scheduledAt) }
            rest

end

-----------------------------------------------------------------------------------------
-- The database
-----------------------------------------------------------------------------------------

/-- A statement has at most 65535 parameters. -/
def maxParameters : Nat := 65535

/-- A statement takes as many arguments as its highest placeholder says, and uses them all. -/
def Takes (placeholders : List Nat) (args : Nat) : Bool :=
  decide (args = placeholders.foldr max 0)
    && (List.range' 1 args).all (fun n => placeholders.contains n)

theorem bindable_eq_takes (placeholders : List Nat) (args : List Argument)
    : Bindable placeholders args = Takes placeholders args.length := rfl

def insertArgument (args : List InsertArgument) (placeholder : Nat) : Option InsertArgument :=
  if placeholder = 0 then none else args[placeholder - 1]?

/-- The values of a row of VALUES; an argument of another type is an error. -/
def rowValues (args : List InsertArgument) (row : RowPlaceholders) : Option (Inserted × Nat) :=
  match insertArgument args row.name, insertArgument args row.payload,
      insertArgument args row.scheduledAt, insertArgument args row.maxAttempts with
  | some (.name name), some (.payload payload), some (.time scheduledAt), some (.int maxAttempts) =>
      some ((name, payload, scheduledAt), maxAttempts)
  | _, _, _, _ => none

/-- The input of a column of type VARCHAR: a text that is too long is an error, unless blanks
alone are in excess.
-/
def varchar (limit : Nat) (text : String) : Except String String :=
  if text.toList.length ≤ limit then .ok text
  else if (text.toList.drop limit).all (fun c => c = ' ') then
    .ok (String.ofList (text.toList.take limit))
  else .error ("value too long for type character varying(" ++ toString limit ++ ")")

theorem varchar_error {limit : Nat} {text : String} {c : Char} (long : limit < text.toList.length)
    (mem : c ∈ text.toList.drop limit) (printed : c ≠ ' ')
    : ∃ err, varchar limit text = .error err := by
  have solid : ¬ (text.toList.drop limit).all (fun c => c = ' ') = true := by
    rw [List.all_eq_true]
    intro blank
    exact printed (of_decide_eq_true (blank c mem))
  exact ⟨_, by rw [varchar, if_neg (Nat.not_le.mpr long), if_neg solid]⟩

/-- The columns of enqueued_jobs as far as their limits are concerned. -/
def enqueuedColumns (values : Inserted) : Except String Inserted :=
  (varchar 255 values.1).map (fun name => (name, values.2))

namespace QueueStore

/-- The table with one more row. -/
def insertRow (s : QueueStore) (row : Inserted × Nat) : QueueStore :=
  let make := fun id =>
    { newJob row.1.1 row.1.2.1 row.1.2.2 s.now id with maxAttempts := row.2 }
  { s with jobs := s.jobs.insert make (fun _ => rfl) }

section

variable {β : Type} (marshal : β → Except String Json)
variable (columns : Inserted → Except String Inserted) (s : QueueStore)

/-- The answer to an INSERT with some rows of VALUES: all of them are inserted, or none. `columns`
tells what the columns of the table keep of the values of a row.
-/
def answerInsert (rows : List RowPlaceholders) (args : List InsertArgument)
    : Except String QueueStore :=
  if Takes (rows.flatMap RowPlaceholders.list) args.length && args.length ≤ maxParameters then
    match rows.mapM (rowValues args) with
    | none => .error "argument of another type"
    | some values => do
        let kept ← values.mapM (fun row => (columns row.1).map (·, row.2))
        return kept.foldl insertRow s
  else .error "wrong number of parameters"

/-- Insert by its statement. It returns the key of the row. -/
def insertQuery (job : NewJob β) : QueueStore × Except String Nat :=
  match marshal job.args with
  | .error err => (s, .error err)
  | .ok payloadJSON =>
      match s.answerInsert columns [⟨1, 2, 3, 4⟩]
          [.name job.name, .payload payloadJSON, .time job.scheduledAt, .int maxRetryAttempt] with
      | .error err => (s, .error err)
      | .ok inserted => (inserted, .ok s.jobs.nextKey)

/-- What is left of BulkInsert after the answer of the database. -/
def bulkInsertAnswer : Except String QueueStore → QueueStore × Option String
  | .error err => (s, some ("bulk insert failed: " ++ err))
  | .ok inserted => (inserted, none)

/-- BulkInsert by its statement, and its error. -/
def bulkInsertQuery (batch : List (NewJob β)) : QueueStore × Option String :=
  if batch.length = 0 then (s, none)
  else
    match collectRows marshal 0 {} batch with
    | .error err => (s, some err)
    | .ok insertion =>
        s.bulkInsertAnswer (s.answerInsert columns insertion.placeholders insertion.args)

end

end QueueStore

-----------------------------------------------------------------------------------------
-- Lists of results
-----------------------------------------------------------------------------------------

theorem mapM_ok {α γ ε : Type} {f : α → Except ε γ} {g : α → γ} {list : List α}
    (each : ∀ a ∈ list, f a = .ok (g a))
    : list.mapM f = .ok (list.map g) := by
  induction list with
  | nil => rfl
  | cons a rest ih =>
      rw [List.mapM_cons, each a List.mem_cons_self, ih fun b mem => each b (List.mem_cons_of_mem _ mem)]
      rfl

/-- One error is an error of the whole list. -/
theorem mapM_error {α γ ε : Type} {f : α → Except ε γ} {list : List α} {a : α} {err : ε}
    (mem : a ∈ list) (failed : f a = .error err)
    : ∃ first, list.mapM f = .error first := by
  induction list with
  | nil => cases mem
  | cons b rest ih =>
      rw [List.mapM_cons]
      cases head : f b with
      | error first => exact ⟨first, rfl⟩
      | ok value =>
          rcases List.mem_cons.mp mem with rfl | inRest
          · rw [failed] at head
            cases head
          · obtain ⟨first, later⟩ := ih inRest
            exact ⟨first, by rw [later]; rfl⟩

-----------------------------------------------------------------------------------------
-- Placeholders and arguments
-----------------------------------------------------------------------------------------

/-- The placeholders of some consecutive rows. -/
def placeholderRows (i n : Nat) : List RowPlaceholders := (List.range' i n).map .atIndex

theorem placeholderRows_succ (i n : Nat)
    : placeholderRows i (n + 1) = .atIndex i :: placeholderRows (i + 1) n := by
  rw [placeholderRows, List.range'_succ, List.map_cons, placeholderRows]

theorem length_insertArguments (values : List Inserted)
    : (values.flatMap insertArguments).length = values.length * 4 := by
  induction values with
  | nil => rfl
  | cons first rest ih =>
      rw [List.flatMap_cons, List.length_append, ih, List.length_cons, insertArguments]
      simp only [List.length_cons, List.length_nil]
      omega

/-- The numbers of consecutive rows are consecutive. -/
theorem flatMap_placeholderRows (i n : Nat)
    : (placeholderRows i n).flatMap RowPlaceholders.list = List.range' (i * 4 + 1) (n * 4) := by
  induction n generalizing i with
  | zero => rfl
  | succ n ih =>
      have next : (i + 1) * 4 + 1 = i * 4 + 1 + 4 := by omega
      have size : (n + 1) * 4 = 4 + n * 4 := by omega
      rw [placeholderRows_succ, List.flatMap_cons, ih, next, size, List.range'_append_1.symm]
      rfl

/-- The placeholders of a row stand for the values that were appended with them. -/
theorem rowValues_atIndex {before after : List InsertArgument} (values : Inserted) {i : Nat}
    (aligned : before.length = i * 4)
    : rowValues (before ++ (insertArguments values ++ after)) (.atIndex i)
      = some (values, maxRetryAttempt) := by
  have read (k : Nat) (small : k < 4)
      : insertArgument (before ++ (insertArguments values ++ after)) (i * 4 + k + 1)
        = (insertArguments values)[k]? := by
    rw [insertArgument, if_neg (Nat.succ_ne_zero _), Nat.add_sub_cancel,
      List.getElem?_append_right (by omega), ← aligned, Nat.add_sub_cancel_left,
      List.getElem?_append_left small]
  have name := read 0 (by omega)
  have payload := read 1 (by omega)
  have scheduledAt := read 2 (by omega)
  have maxAttempts := read 3 (by omega)
  simp only [rowValues, RowPlaceholders.atIndex]
  rw [show i * 4 + 1 = i * 4 + 0 + 1 from rfl, show i * 4 + 2 = i * 4 + 1 + 1 from rfl,
    show i * 4 + 3 = i * 4 + 2 + 1 from rfl, show i * 4 + 4 = i * 4 + 3 + 1 from rfl,
    name, payload, scheduledAt, maxAttempts]
  rfl

/-- So do those of all rows, by induction on the rows. -/
theorem mapM_rowValues (before : List InsertArgument) (values : List Inserted) {i : Nat}
    (aligned : before.length = i * 4)
    : (placeholderRows i values.length).mapM
        (rowValues (before ++ values.flatMap insertArguments))
      = some (values.map (·, maxRetryAttempt)) := by
  induction values generalizing before i with
  | nil => rfl
  | cons first rest ih =>
      have next : (before ++ insertArguments first).length = (i + 1) * 4 := by
        rw [List.length_append, aligned, insertArguments]
        simp only [List.length_cons, List.length_nil]
        omega
      have later := ih (before ++ insertArguments first) next
      rw [List.append_assoc] at later
      rw [List.length_cons, placeholderRows_succ, List.mapM_cons, List.flatMap_cons,
        rowValues_atIndex first aligned, later]
      rfl

namespace QueueStore

variable {β : Type} {marshal : β → Except String Json}
variable {columns : Inserted → Except String Inserted} {s : QueueStore}

/-- The database reads the values of every row from the arguments that belong to it. -/
theorem answerInsert_eq (columns : Inserted → Except String Inserted) (s : QueueStore)
    {values : List Inserted} (fits : values.length * 4 ≤ maxParameters)
    : s.answerInsert columns (placeholderRows 0 values.length) (values.flatMap insertArguments)
      = (do
          let kept ← (values.map (·, maxRetryAttempt)).mapM
            fun row => (columns row.1).map (·, row.2)
          return kept.foldl insertRow s) := by
  have size := length_insertArguments values
  have taken : Takes ((placeholderRows 0 values.length).flatMap RowPlaceholders.list)
      (values.flatMap insertArguments).length = true := by
    rw [flatMap_placeholderRows, size]
    simp [Takes, foldr_max_range']
  have bound := mapM_rowValues [] values (i := 0) rfl
  rw [List.nil_append] at bound
  rw [answerInsert, taken, size, decide_eq_true fits, bound]
  rfl

theorem answerInsert_ok {values : List Inserted} (fits : values.length * 4 ≤ maxParameters)
    {keep : Inserted → Inserted} (accepted : ∀ row ∈ values, columns row = .ok (keep row))
    : s.answerInsert columns (placeholderRows 0 values.length) (values.flatMap insertArguments)
      = .ok ((values.map fun row => (keep row, maxRetryAttempt)).foldl insertRow s) := by
  have each : ∀ row ∈ values.map (·, maxRetryAttempt),
      (columns row.1).map (·, row.2) = .ok (keep row.1, row.2) := by
    intro row mem
    obtain ⟨value, inValues, rfl⟩ := List.mem_map.mp mem
    simp only [accepted value inValues]
    rfl
  rw [answerInsert_eq columns s fits, mapM_ok each, List.map_map]
  rfl

/-- One row that the columns do not take is an error of the statement. -/
theorem answerInsert_error {values : List Inserted} (fits : values.length * 4 ≤ maxParameters)
    {row : Inserted} {err : String} (mem : row ∈ values) (rejected : columns row = .error err)
    : ∃ first, s.answerInsert columns (placeholderRows 0 values.length)
        (values.flatMap insertArguments) = .error first := by
  have failed : (columns (row, maxRetryAttempt).1).map (·, maxRetryAttempt) = .error err := by
    rw [rejected]
    rfl
  obtain ⟨first, all⟩ := mapM_error
    (f := fun row : Inserted × Nat => (columns row.1).map (·, row.2))
    (List.mem_map_of_mem (f := (·, maxRetryAttempt)) mem) failed
  exact ⟨first, by rw [answerInsert_eq columns s fits, all]; rfl⟩

-----------------------------------------------------------------------------------------
-- The loop
-----------------------------------------------------------------------------------------

/-- The values of a job whose arguments marshal to a payload. -/
def jobValues (payload : β → Json) (job : NewJob β) : Inserted :=
  (job.name, payload job.args, job.scheduledAt)

/-- The loop keeps placeholders and arguments aligned, by induction on the batch. -/
theorem collectRows_ok {payload : β → Json} {batch : List (NewJob β)}
    (marshals : ∀ job ∈ batch, marshal job.args = .ok (payload job.args)) (i : Nat)
    (insertion : Insertion)
    : collectRows marshal i insertion batch
      = .ok { placeholders := insertion.placeholders ++ placeholderRows i batch.length,
              args := insertion.args
                ++ (batch.map (jobValues payload)).flatMap insertArguments } := by
  induction batch generalizing i insertion with
  | nil => simp [collectRows, placeholderRows]
  | cons job rest ih =>
      simp only [collectRows, marshals job List.mem_cons_self]
      rw [ih fun other mem => marshals other (List.mem_cons_of_mem _ mem)]
      simp only [List.length_cons, placeholderRows_succ, List.map_cons, List.flatMap_cons,
        List.append_assoc, List.singleton_append]
      rfl

/-- It fails at the first job that cannot be marshalled. -/
theorem collectRows_error {batch : List (NewJob β)} {job : NewJob β} {err : String}
    (mem : job ∈ batch) (failed : marshal job.args = .error err) (i : Nat) (insertion : Insertion)
    : ∃ first, collectRows marshal i insertion batch = .error first := by
  induction batch generalizing i insertion with
  | nil => cases mem
  | cons other rest ih =>
      rw [collectRows]
      cases head : marshal other.args with
      | error first => exact ⟨_, rfl⟩
      | ok payload =>
          rcases List.mem_cons.mp mem with rfl | inRest
          · rw [failed] at head
            cases head
          · exact ih inRest _ _

end QueueStore

end GoFire.Store
