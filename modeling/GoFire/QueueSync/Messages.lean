import GoFire.GoTime.Rfc3339
import GoFire.QueueSync.Worker
import GoFire.Store.ArgumentValues
import GoFire.Store.QueueRows

/-! Enqueue in its two modes. In queue mode a call goes through JSON twice before it becomes a
row, in direct mode once.
-/

namespace GoFire.QueueSync

open GoFire.Store DoubleNumbers

/-- A slice of arguments as one value. -/
def sliceValue {ν : Type} : Option (List (Value ν)) → Value ν
  | none => .nilSlice
  | some items => .slice items

/-- A call of Enqueue. -/
structure Call where
  jobName : String
  enqueueAt : GoTime.Time
  args : Option (List (Value Int64))
  keysDistinct : (sliceValue args).KeysDistinct

/-- The JSON object of a types.Job. -/
structure Message where
  id : Int
  name : String
  args : Json
  scheduledAt : GoTime.Rfc3339

namespace Call

/-- The arguments as json.Marshal writes them. -/
def arguments (call : Call) : Args := call.args.map (marshalItems Int64.toInt)

/-- Enqueue in direct mode. -/
def insert (call : Call) (s : QueueStore) : QueueStore :=
  s.insert call.jobName call.enqueueAt.ns call.arguments

/-- Enqueue in queue mode: the message that is published, unless the job cannot be marshalled. -/
def message (call : Call) : Option Message := do
  let scheduledAt ← call.enqueueAt.marshalJSON
  return { id := 0, name := call.jobName, args := marshalArgs call.arguments, scheduledAt }

end Call

/-- encoding/json refuses documents that are nested more deeply. -/
def maxNestingDepth : Nat := 10000

/-- The job that the worker decodes, with its arguments as BulkInsert marshals them again. -/
def unmarshalJob (msg : Message) : Option Job :=
  if msg.args.depth + 1 ≤ maxNestingDepth then do
    let args ← unmarshalArgs msg.args
    let scheduledAt ← msg.scheduledAt.unmarshalJSON
    return { name := msg.name, args := args.map (List.map Json.reread), scheduledAt }
  else none

theorem unmarshalArgs_marshalArgs (args : Args) : unmarshalArgs (marshalArgs args) = some args := by
  cases args with
  | none => rfl
  | some items => rfl

/-- Decoding fails for the depth or the time only. -/
theorem unmarshalJob_eq_some_iff {id : Int} {name : String} {args : Args}
    {scheduledAt : GoTime.Rfc3339} {job : Job}
    : unmarshalJob { id, name, args := marshalArgs args, scheduledAt } = some job
      ↔ (marshalArgs args).depth < maxNestingDepth
        ∧ ∃ instant, scheduledAt.unmarshalJSON = some instant
          ∧ { name, args := args.map (List.map Json.reread), scheduledAt := instant } = job := by
  by_cases fits : (marshalArgs args).depth < maxNestingDepth
  · simp only [unmarshalJob, Nat.add_one_le_iff, fits, if_true, unmarshalArgs_marshalArgs,
      Option.bind_eq_bind, Option.bind_some, Option.bind_eq_some_iff, Option.pure_def,
      Option.some.injEq, true_and]
  · simp only [unmarshalJob, Nat.add_one_le_iff, fits, if_false, false_and, reduceCtorEq]

-----------------------------------------------------------------------------------------
-- The rows of both modes
-----------------------------------------------------------------------------------------

/-- The columns of a row that the insertion of a job writes. -/
def rowColumns (row : EnqueuedJob) : String × Json × Int × Nat :=
  (row.name, row.payload, row.scheduledAt, row.maxAttempts)

def jobColumns (job : Job) : String × Json × Int × Nat :=
  (job.name, marshalArgs job.args, job.scheduledAt, GoFire.State.maxRetryAttempt)

def columns (s : QueueStore) : List (String × Json × Int × Nat) := s.jobs.rows.map rowColumns

namespace Call

/-- The job of a call as direct mode inserts it. -/
def job (call : Call) : Job :=
  { name := call.jobName, args := call.arguments, scheduledAt := call.enqueueAt.ns }

/-- The message is decoded, and the row that BulkInsert makes of it in any batch has the name, the
payload, the schedule and the attempts of the row that direct mode inserts.
-/
def RowsAgree (call : Call) : Prop :=
  ∃ msg job, call.message = some msg ∧ unmarshalJob msg = some job
    ∧ ∀ (s t : QueueStore) (before after : List Job), ∃ row,
        columns (call.insert s) = columns s ++ [row]
        ∧ (columns (t.bulkInsert (before ++ job :: after)))[(columns (t.bulkInsert before)).length]?
          = some row

theorem rowsAgree_iff_columns {call : Call}
    : call.RowsAgree ↔ ∃ msg job, call.message = some msg ∧ unmarshalJob msg = some job
        ∧ jobColumns job = jobColumns call.job := by
  have direct (s : QueueStore) : columns (call.insert s) = columns s ++ [jobColumns call.job] :=
    QueueStore.map_bulkInsert (fun _ _ _ => rfl) s [call.job]
  have queued (t : QueueStore) (batch : List Job)
      : columns (t.bulkInsert batch) = columns t ++ batch.map jobColumns :=
    QueueStore.map_bulkInsert (fun _ _ _ => rfl) t batch
  have read (t : QueueStore) (before after : List Job) (job : Job)
      : (columns (t.bulkInsert (before ++ job :: after)))[(columns (t.bulkInsert before)).length]?
        = some (jobColumns job) := by
    rw [queued, queued, List.map_append, List.map_cons, ← List.append_assoc,
      List.getElem?_append_right le_rfl, Nat.sub_self]
    rfl
  apply exists₂_congr
  intro msg job
  apply and_congr_right
  intro _
  apply and_congr_right
  intro _
  constructor
  · intro agree
    obtain ⟨row, inserted, found⟩ := agree ⟨.empty, 0⟩ ⟨.empty, 0⟩ [] []
    rw [direct] at inserted
    obtain rfl : jobColumns call.job = row := by simpa using inserted
    exact Option.some.inj ((read _ [] [] job).symm.trans found)
  · intro same s t before after
    exact ⟨jobColumns call.job, direct s, (read t before after job).trans (congrArg some same)⟩

theorem payload_eq (call : Call)
    : marshalArgs call.arguments = (sliceValue call.args).marshal Int64.toInt := by
  cases args : call.args with
  | none => simp only [arguments, args, Option.map_none, marshalArgs, sliceValue, Value.marshal]
  | some items =>
      simp only [arguments, args, Option.map_some, marshalArgs, sliceValue, Value.marshal]

theorem payload_reread (args : Args)
    : marshalArgs (args.map (List.map Json.reread)) = (marshalArgs args).reread := by
  cases args with
  | none => rfl
  | some items =>
      rw [Option.map_some, marshalArgs, marshalArgs, Json.reread, Json.unmarshal, Value.marshal,
        unmarshalItems_eq, marshalItems_eq, List.map_map]
      rfl

/-- What a call needs so that both modes insert the same row. Every integer has to be the shortest
decimal of its double, and the zone of the time whole minutes.
-/
structure Survives (call : Call) : Prop where
  year : 0 ≤ call.enqueueAt.year ∧ call.enqueueAt.year ≤ 9999
  hours : call.enqueueAt.offset.natAbs < 24 * 3600
  minutes : call.enqueueAt.offset % 60 = 0
  depth : (sliceValue call.args).depth < maxNestingDepth
  integers : (sliceValue call.args).AllNums (fun n => IsShortest n.toInt.natAbs)

/-- Integers below 2 ^ 53 always survive. -/
theorem Survives.of_small {call : Call}
    (year : 0 ≤ call.enqueueAt.year ∧ call.enqueueAt.year ≤ 9999)
    (hours : call.enqueueAt.offset.natAbs < 24 * 3600) (minutes : call.enqueueAt.offset % 60 = 0)
    (depth : (sliceValue call.args).depth < maxNestingDepth)
    (small : (sliceValue call.args).AllNums (fun n => n.toInt.natAbs < 2 ^ 53))
    : call.Survives :=
  ⟨year, hours, minutes, depth, small.mono fun _ => isShortest_of_lt⟩

/-- The payload is the same exactly when its integers survive. -/
theorem payload_reread_iff (call : Call)
    : (marshalArgs call.arguments).reread = marshalArgs call.arguments
      ↔ (sliceValue call.args).AllNums (fun n => IsShortest n.toInt.natAbs) := by
  have printed : (fun n => (WholeDouble.ofInt n).toDecimal = n) = fun n => IsShortest n.natAbs :=
    funext fun n => propext (WholeDouble.toDecimal_ofInt_iff n)
  rw [payload_eq, reread_eq_iff (marshal_keysSorted call.keysDistinct), printed,
    marshal_allNums_iff]

/-- The decoded message gives the columns of direct mode exactly when it can be marshalled and
read, its instant is the same and its payload is the same.
-/
theorem decoded_iff (call : Call)
    : (∃ msg job, call.message = some msg ∧ unmarshalJob msg = some job
        ∧ jobColumns job = jobColumns call.job)
      ↔ (marshalArgs call.arguments).depth < maxNestingDepth
        ∧ call.enqueueAt.marshalJSON.bind GoTime.Rfc3339.unmarshalJSON = some call.enqueueAt.ns
        ∧ (marshalArgs call.arguments).reread = marshalArgs call.arguments := by
  cases marshalled : call.enqueueAt.marshalJSON with
  | none =>
      have unsent : call.message = none := by
        rw [message, marshalled]
        rfl
      refine iff_of_false ?_ fun all => nomatch all.2.1
      intro h
      obtain ⟨msg, job, sent, -⟩ := h
      rw [unsent] at sent
      cases sent
  | some text =>
      have sent : call.message
          = some { id := 0, name := call.jobName, args := marshalArgs call.arguments,
                   scheduledAt := text } := by
        rw [message, marshalled]
        rfl
      rw [Option.bind_some]
      constructor
      · intro h
        obtain ⟨msg, decoded, published, read, same⟩ := h
        rw [sent] at published
        obtain rfl := Option.some.inj published
        obtain ⟨fits, instant, readAt, rfl⟩ := unmarshalJob_eq_some_iff.mp read
        simp only [jobColumns, job, Prod.mk.injEq, payload_reread, true_and, and_true] at same
        exact ⟨fits, same.2 ▸ readAt, same.1⟩
      · intro h
        obtain ⟨fits, readAt, same⟩ := h
        refine ⟨_, _, sent, unmarshalJob_eq_some_iff.mpr ⟨fits, _, readAt, rfl⟩, ?_⟩
        simp only [jobColumns, job, payload_reread, same]

end Call

/-- Queue mode inserts the row of direct mode exactly for the calls that survive JSON. -/
theorem rows_agree_iff (call : Call) : call.RowsAgree ↔ call.Survives := by
  have depth : (marshalArgs call.arguments).depth = (sliceValue call.args).depth := by
    rw [call.payload_eq, marshal_depth]
  rw [Call.rowsAgree_iff_columns, Call.decoded_iff, GoTime.Time.json_round_trip_iff,
    Call.payload_reread_iff, depth]
  constructor
  · intro h
    obtain ⟨depth, ⟨year, hours, minutes⟩, integers⟩ := h
    exact ⟨year, hours, minutes, depth, integers⟩
  · intro h
    obtain ⟨year, hours, minutes, depth, integers⟩ := h
    exact ⟨depth, ⟨year, hours, minutes⟩, integers⟩

-----------------------------------------------------------------------------------------
-- An integer that is no double
-----------------------------------------------------------------------------------------

/-- A call with the first integer that is not a double, at the beginning of 2024. -/
def largeInteger : Call where
  jobName := "mail"
  enqueueAt := ⟨GregorianCalendar.dayNumber 2024 1 1 * GoTime.day, GoTime.utc⟩
  args := some [.num 9007199254740993]
  keysDistinct := ⟨trivial, trivial⟩

/-- The message is decoded, and the row of queue mode has another argument than that of direct
mode.
-/
theorem large_integer_rows_differ
    : marshalArgs largeInteger.arguments = .arr [.num 9007199254740993]
      ∧ (∃ msg job, largeInteger.message = some msg ∧ unmarshalJob msg = some job
        ∧ marshalArgs job.args = .arr [.num 9007199254740992])
      ∧ ¬ largeInteger.RowsAgree := by
  have payload : marshalArgs largeInteger.arguments = .arr [.num 9007199254740993] := rfl
  have reread : (marshalArgs largeInteger.arguments).reread = .arr [.num 9007199254740992] := rfl
  refine ⟨payload, ⟨_, _, rfl, rfl, ?_⟩, ?_⟩
  · exact (Call.payload_reread _).trans reread
  · rw [Call.rowsAgree_iff_columns, Call.decoded_iff, reread, payload]
    intro h
    obtain ⟨-, -, same⟩ := h
    simp at same

end GoFire.QueueSync
