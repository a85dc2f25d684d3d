import GoFire.Store.InsertQueries

/-! BulkInsert against Insert for each job of its batch: the same rows when the table takes them
all, and no row when one of them is refused.
-/

namespace GoFire.Store.QueueStore

open GoFire.State

variable {β : Type} {marshal : β → Except String Json}
variable {columns : Inserted → Except String Inserted} {s : QueueStore}

/-- Insert for each job in order, at the given instants. A job that is not inserted is passed
over.
-/
def insertEach (marshal : β → Except String Json) (columns : Inserted → Except String Inserted)
    (s : QueueStore) (calls : List (NewJob β × Int))
    : QueueStore :=
  calls.foldl (fun s call => (insertQuery marshal columns { s with now := call.2 } call.1).1) s

/-- The table but for created_at, which is the time of the statement. -/
def uncreated (s : QueueStore) : List EnqueuedJob × Nat :=
  (s.jobs.rows.map fun row => { row with createdAt := 0 }, s.jobs.nextKey)

/-- The columns take the values of a job whose arguments marshal. -/
def Accepts (marshal : β → Except String Json) (columns : Inserted → Except String Inserted)
    (job : NewJob β)
    : Prop :=
  ∃ payload kept, marshal job.args = .ok payload
    ∧ columns (job.name, payload, job.scheduledAt) = .ok kept

theorem uncreated_insertRow {t : QueueStore} (same : uncreated s = uncreated t)
    (row : Inserted × Nat)
    : uncreated (s.insertRow row) = uncreated (t.insertRow row) := by
  obtain ⟨rows, nextKey⟩ := Prod.mk.inj same
  simp only [uncreated, insertRow, KeyedTable.insert, List.map_append, rows, nextKey]
  rfl

theorem insertQuery_ok {payload : Json} {kept : Inserted} {job : NewJob β}
    (marshals : marshal job.args = .ok payload)
    (accepted : columns (job.name, payload, job.scheduledAt) = .ok kept)
    : s.insertQuery marshal columns job
      = (s.insertRow (kept, maxRetryAttempt), .ok s.jobs.nextKey) := by
  have keeps : ∀ row ∈ [(job.name, payload, job.scheduledAt)],
      columns row = .ok ((fun _ => kept) row) := by
    simpa using accepted
  have answered : s.answerInsert columns [⟨1, 2, 3, 4⟩] [.name job.name, .payload payload,
      .time job.scheduledAt, .int maxRetryAttempt] = _ :=
    answerInsert_ok (by simp [maxParameters]) keeps
  rw [insertQuery, marshals]
  simp only
  rw [answered]
  rfl

/-- The result of a marshalling, where there is one. -/
def payloadOf (marshal : β → Except String Json) (args : β) : Json :=
  (marshal args).toOption.getD .null

/-- What the columns keep of a row, where they take it. -/
def keptOf (columns : Inserted → Except String Inserted) (row : Inserted) : Inserted :=
  (columns row).toOption.getD row

theorem marshal_payloadOf {args : β} {payload : Json} (marshals : marshal args = .ok payload)
    : marshal args = .ok (payloadOf marshal args) := by
  rw [payloadOf, marshals]
  rfl

theorem Accepts.values {job : NewJob β} (accepts : Accepts marshal columns job)
    : marshal job.args = .ok (payloadOf marshal job.args)
      ∧ columns (jobValues (payloadOf marshal) job)
        = .ok (keptOf columns (jobValues (payloadOf marshal) job)) := by
  obtain ⟨payload, kept, marshals, accepted⟩ := accepts
  have same : payloadOf marshal job.args = payload := by
    rw [payloadOf, marshals]
    rfl
  rw [keptOf, jobValues, same, accepted]
  exact ⟨marshals, rfl⟩

/-- Insert for each job appends the rows of the jobs, whatever the clock says at each of them. -/
theorem uncreated_insertEach {payload : β → Json} {keep : Inserted → Inserted}
    {calls : List (NewJob β × Int)}
    (accepted : ∀ call ∈ calls, marshal call.1.args = .ok (payload call.1.args)
      ∧ columns (jobValues payload call.1) = .ok (keep (jobValues payload call.1)))
    {t : QueueStore} (same : uncreated s = uncreated t)
    : uncreated (s.insertEach marshal columns calls)
      = uncreated ((calls.map fun call => (keep (jobValues payload call.1), maxRetryAttempt)).foldl
          insertRow t) := by
  unfold insertEach
  induction calls generalizing s t with
  | nil => exact same
  | cons call rest ih =>
      obtain ⟨marshals, kept⟩ := accepted call List.mem_cons_self
      rw [List.foldl_cons, List.map_cons, List.foldl_cons]
      apply ih
      · intro other mem
        exact accepted other (List.mem_cons_of_mem _ mem)
      · rw [insertQuery_ok marshals kept]
        exact uncreated_insertRow (s := { s with now := call.2 }) same _

/-- The placeholders of row `i` stand for the fields of job `i`, for every job of the batch. -/
def Aligned (marshal : β → Except String Json) (insertion : Insertion) (batch : List (NewJob β))
    : Prop :=
  insertion.placeholders.length = batch.length
  ∧ ∀ (i : Nat) (job : NewJob β), batch[i]? = some job →
      ∃ row payload, insertion.placeholders[i]? = some row ∧ marshal job.args = .ok payload
        ∧ rowValues insertion.args row
          = some ((job.name, payload, job.scheduledAt), maxRetryAttempt)

theorem collectRows_aligned {payload : β → Json} {batch : List (NewJob β)}
    (marshals : ∀ job ∈ batch, marshal job.args = .ok (payload job.args))
    : ∃ insertion, collectRows marshal 0 {} batch = .ok insertion
        ∧ Aligned marshal insertion batch := by
  refine ⟨_, collectRows_ok marshals 0 {}, ?_, ?_⟩
  · simp [placeholderRows]
  · intro i job found
    obtain ⟨inside, rfl⟩ := List.getElem?_eq_some_iff.mp found
    refine ⟨.atIndex i, payload batch[i].args, ?_, marshals _ (List.getElem_mem inside), ?_⟩
    · simp [placeholderRows, inside]
    · have split : batch.map (jobValues payload)
          = (batch.take i).map (jobValues payload)
            ++ jobValues payload batch[i] :: (batch.drop (i + 1)).map (jobValues payload) := by
        rw [← List.map_cons, ← List.drop_eq_getElem_cons inside, ← List.map_append,
          List.take_append_drop]
      have before : (((batch.take i).map (jobValues payload)).flatMap insertArguments).length
          = i * 4 := by
        rw [length_insertArguments, List.length_map, List.length_take, Nat.min_eq_left inside.le]
      rw [split, List.flatMap_append, List.flatMap_cons]
      exact rowValues_atIndex _ before

theorem insertQuery_refused {job : NewJob β} (refused : ¬ Accepts marshal columns job)
    : ∃ err, s.insertQuery marshal columns job = (s, .error err) := by
  rw [insertQuery]
  cases marshals : marshal job.args with
  | error err => exact ⟨err, rfl⟩
  | ok payload =>
      cases kept : columns (job.name, payload, job.scheduledAt) with
      | ok value => exact absurd ⟨payload, value, marshals, kept⟩ refused
      | error err =>
          have given : (job.name, payload, job.scheduledAt)
              ∈ [(job.name, payload, job.scheduledAt)] :=
            List.mem_singleton.mpr rfl
          obtain ⟨first, failed⟩ := answerInsert_error (s := s) (by simp [maxParameters]) given kept
          refine ⟨first, ?_⟩
          simp only
          rw [show s.answerInsert columns [⟨1, 2, 3, 4⟩] [.name job.name, .payload payload,
            .time job.scheduledAt, .int maxRetryAttempt] = _ from failed]

/-- When all arguments marshal, the statement has the rows of all jobs. -/
theorem bulkInsertQuery_marshalled {batch : List (NewJob β)} (nonempty : batch.length ≠ 0)
    (marshals : ∀ job ∈ batch, marshal job.args = .ok (payloadOf marshal job.args))
    : s.bulkInsertQuery marshal columns batch
      = s.bulkInsertAnswer (s.answerInsert columns
          (placeholderRows 0 (batch.map (jobValues (payloadOf marshal))).length)
          ((batch.map (jobValues (payloadOf marshal))).flatMap insertArguments)) := by
  rw [bulkInsertQuery, if_neg nonempty, collectRows_ok marshals]
  simp only [List.nil_append, List.length_map]

section

variable {batch : List (NewJob β)} (nonempty : batch.length ≠ 0)
variable (fits : batch.length * 4 ≤ maxParameters)

include nonempty fits

theorem bulkInsertQuery_accepted (accepted : ∀ job ∈ batch, Accepts marshal columns job)
    : s.bulkInsertQuery marshal columns batch
      = ((batch.map fun job => (keptOf columns (jobValues (payloadOf marshal) job),
          maxRetryAttempt)).foldl insertRow s, none) := by
  have keeps : ∀ row ∈ batch.map (jobValues (payloadOf marshal)),
      columns row = .ok (keptOf columns row) := by
    intro row mem
    obtain ⟨job, inBatch, rfl⟩ := List.mem_map.mp mem
    exact (accepted job inBatch).values.2
  have answered := answerInsert_ok (s := s) (by rwa [List.length_map]) keeps
  rw [bulkInsertQuery_marshalled nonempty fun job mem => (accepted job mem).values.1,
    answered, List.map_map]
  rfl

/-- One job that is not accepted keeps all others out. -/
theorem bulkInsertQuery_refused {job : NewJob β} (mem : job ∈ batch)
    (refused : ¬ Accepts marshal columns job)
    : ∃ err, s.bulkInsertQuery marshal columns batch = (s, some err) := by
  by_cases marshals : ∀ job ∈ batch, ∃ payload, marshal job.args = .ok payload
  · have each : ∀ job ∈ batch, marshal job.args = .ok (payloadOf marshal job.args) := by
      intro job mem
      obtain ⟨payload, marshals⟩ := marshals job mem
      exact marshal_payloadOf marshals
    cases kept : columns (jobValues (payloadOf marshal) job) with
    | ok value => exact absurd ⟨_, value, each job mem, kept⟩ refused
    | error err =>
        have given : jobValues (payloadOf marshal) job ∈ batch.map (jobValues (payloadOf marshal)) :=
          List.mem_map_of_mem mem
        obtain ⟨first, failed⟩ := answerInsert_error (s := s) (by rwa [List.length_map]) given kept
        rw [bulkInsertQuery_marshalled nonempty each, failed]
        exact ⟨_, rfl⟩
  · rw [not_forall₂] at marshals
    obtain ⟨other, inBatch, unmarshalled⟩ := marshals
    cases failed : marshal other.args with
    | ok payload => exact absurd ⟨payload, failed⟩ unmarshalled
    | error err =>
        obtain ⟨first, stopped⟩ := collectRows_error inBatch failed 0 {}
        rw [bulkInsertQuery, if_neg nonempty, stopped]
        exact ⟨_, rfl⟩

end

/-- On jobs whose arguments are JSON values already, and a table without limits, the statement is
the bulk insertion of the queue store.
-/
theorem bulkInsertQuery_eq_bulkInsert (s : QueueStore) {batch : List Job}
    (fits : batch.length * 4 ≤ maxParameters)
    : s.bulkInsertQuery (fun args => .ok (marshalArgs args)) .ok
        (batch.map fun job => ⟨job.name, job.args, job.scheduledAt⟩)
      = (s.bulkInsert batch, none) := by
  by_cases empty : batch = []
  · rw [empty]
    rfl
  · have nonempty : (batch.map fun job =>
        (⟨job.name, job.args, job.scheduledAt⟩ : NewJob Args)).length ≠ 0 := by
      rw [List.length_map]
      exact mt List.length_eq_zero_iff.mp empty
    rw [bulkInsertQuery_accepted nonempty (by rwa [List.length_map]) fun job _ => ⟨_, _, rfl, rfl⟩,
      List.map_map, List.foldl_map]
    rfl

/-- For every batch of 1 to 1000 jobs, the placeholders of each row stand for the fields of its
job. BulkInsert leaves the table as Insert for each job in order does when the columns take the
values of every job, and otherwise inserts nothing and returns an error, be it that arguments do
not marshal or that the columns refuse a row.
-/
theorem bulkInsert_as_inserts (marshal : β → Except String Json)
    (columns : Inserted → Except String Inserted) (s : QueueStore)
    (calls : List (NewJob β × Int)) (sized : 1 ≤ calls.length ∧ calls.length ≤ 1000)
    : let batch := calls.map Prod.fst
      ((∀ job ∈ batch, ∃ payload, marshal job.args = .ok payload)
        → ∃ insertion, collectRows marshal 0 {} batch = .ok insertion
          ∧ Aligned marshal insertion batch)
      ∧ ((∀ job ∈ batch, Accepts marshal columns job)
        → (s.bulkInsertQuery marshal columns batch).2 = none
          ∧ uncreated (s.bulkInsertQuery marshal columns batch).1
            = uncreated (s.insertEach marshal columns calls))
      ∧ ((∃ job ∈ batch, ¬ Accepts marshal columns job)
        → (s.bulkInsertQuery marshal columns batch).1 = s
          ∧ (s.bulkInsertQuery marshal columns batch).2 ≠ none) := by
  intro batch
  have length : batch.length = calls.length := List.length_map _
  have nonempty : batch.length ≠ 0 := by omega
  have fits : batch.length * 4 ≤ maxParameters := by
    rw [length, maxParameters]
    omega
  refine ⟨fun marshals => ?_, fun accepted => ?_, fun refused => ?_⟩
  · have each : ∀ job ∈ batch, marshal job.args = .ok (payloadOf marshal job.args) := by
      intro job mem
      obtain ⟨payload, marshals⟩ := marshals job mem
      exact marshal_payloadOf marshals
    exact collectRows_aligned each
  · rw [bulkInsertQuery_accepted nonempty fits accepted, uncreated_insertEach (t := s)
      (fun call mem => (accepted call.1 (List.mem_map_of_mem mem)).values) rfl]
    simp only [batch, List.map_map, true_and]
    rfl
  · obtain ⟨job, mem, refused⟩ := refused
    obtain ⟨err, failed⟩ := bulkInsertQuery_refused (s := s) nonempty fits mem refused
    rw [failed]
    exact ⟨rfl, Option.some_ne_none _⟩

/-- Two jobs that the table takes. -/
theorem bulkInsert_as_inserts_two
    : let marshal := fun args : Args => (.ok (marshalArgs args) : Except String Json)
      let calls : List (NewJob Args × Int) := [(⟨"mail", none, 5⟩, 1), (⟨"report", none, 3⟩, 2)]
      uncreated (bulkInsertQuery marshal enqueuedColumns ⟨.empty, 0⟩ (calls.map Prod.fst)).1
        = uncreated (insertEach marshal enqueuedColumns ⟨.empty, 0⟩ calls) := by
  intro marshal calls
  refine ((bulkInsert_as_inserts marshal enqueuedColumns ⟨.empty, 0⟩ calls (by decide)).2.1 ?_).2
  intro job mem
  simp only [calls, List.map_cons, List.map_nil, List.mem_cons, List.not_mem_nil, or_false] at mem
  rcases mem with rfl | rfl
  · exact ⟨_, _, rfl, rfl⟩
  · exact ⟨_, _, rfl, rfl⟩

/-- An accepted job and one that is refused: Insert for each job leaves a row, and BulkInsert none. -/
theorem bulkInsert_differs {first refusedJob : NewJob β} (accepts : Accepts marshal columns first)
    (refused : ¬ Accepts marshal columns refusedJob) (instants : Int × Int)
    : (s.bulkInsertQuery marshal columns [first, refusedJob]).1.jobs.rows = s.jobs.rows
      ∧ (s.insertEach marshal columns [(first, instants.1), (refusedJob, instants.2)]).jobs.rows.length
        = s.jobs.rows.length + 1 := by
  constructor
  · have given : refusedJob ∈ [first, refusedJob] :=
      List.mem_cons_of_mem _ (List.mem_singleton.mpr rfl)
    obtain ⟨err, failed⟩ := bulkInsertQuery_refused (s := s) (by simp) (by simp [maxParameters])
      given refused
    rw [failed]
  · obtain ⟨payload, kept, marshals, accepted⟩ := accepts
    simp only [insertEach, List.foldl_cons, List.foldl_nil, insertQuery_ok marshals accepted]
    obtain ⟨err, failed⟩ := insertQuery_refused refused
    rw [failed]
    simp [insertRow, KeyedTable.insert]

/-- A job name that enqueued_jobs has no room for. -/
@[irreducible] def longName : String := String.ofList (List.replicate 256 'x')

/-- With a name that is too long in the batch, Insert for each job leaves a row and BulkInsert
none, although all arguments marshal.
-/
theorem long_name_bulkInsert_differs
    : let marshal := fun args : Args => (.ok (marshalArgs args) : Except String Json)
      let batch : List (NewJob Args) := [⟨"mail", none, 5⟩, ⟨longName, none, 5⟩]
      (∀ job ∈ batch, ∃ payload, marshal job.args = .ok payload)
      ∧ (bulkInsertQuery marshal enqueuedColumns ⟨.empty, 0⟩ batch).1.jobs.rows.length = 0
      ∧ (insertEach marshal enqueuedColumns ⟨.empty, 0⟩ (batch.map (·, 0))).jobs.rows.length
        = 1 := by
  intro marshal batch
  have accepts : Accepts marshal enqueuedColumns ⟨"mail", none, 5⟩ :=
    ⟨.null, ("mail", .null, 5), rfl, by simp [enqueuedColumns, varchar, Except.map]⟩
  have refused : ¬ Accepts marshal enqueuedColumns ⟨longName, none, 5⟩ := by
    intro h
    obtain ⟨payload, kept, -, accepted⟩ := h
    have letters : longName.toList = List.replicate 256 'x' := by
      unfold longName
      exact String.toList_ofList
    obtain ⟨err, long⟩ := varchar_error (c := 'x')
      (show 255 < longName.toList.length by rw [letters, List.length_replicate]; omega)
      (by rw [letters, List.drop_replicate, List.mem_replicate]; exact ⟨by omega, rfl⟩) (by decide)
    rw [enqueuedColumns, long] at accepted
    cases accepted
  obtain ⟨bulk, each⟩ := bulkInsert_differs (s := ⟨.empty, 0⟩) accepts refused (0, 0)
  refine ⟨?_, congrArg List.length bulk, each⟩
  intro job _
  exact ⟨marshalArgs job.args, rfl⟩

end GoFire.Store.QueueStore
