import GoFire.Store.RowLookup

/-! The two queries of FetchDueJobs: their texts, numbered placeholders and arguments, and what
the database answers to them.
-/

namespace GoFire.Store

open GoFire.State

/-- An argument of a statement. -/
inductive Argument where
  | time (instant : Int)
  | status (value : JobStatus)
  | int (value : Int)
deriving DecidableEq

/-- The parts of a WHERE clause that FetchDueJobs writes, with the numbers of their
placeholders.
-/
inductive Clause where
  | scheduledUntil (placeholder : Nat)
  | statusIn (placeholders : List Nat)
  | lockExpired (minutes : Nat)
deriving DecidableEq

def placeholderText (n : Nat) : String := "$" ++ toString n

def Clause.text : Clause → String
  | .scheduledUntil n => " AND scheduled_at <= " ++ placeholderText n
  | .statusIn ns => " AND status IN (" ++ ", ".intercalate (ns.map placeholderText) ++ ")"
  | .lockExpired minutes =>
      " AND (status != 'processing' OR locked_at < now() - interval '"
        ++ (toString minutes ++ " minutes") ++ "')"

def Clause.placeholders : Clause → List Nat
  | .scheduledUntil n => [n]
  | .statusIn ns => ns
  | .lockExpired _ => []

/-- The clauses written so far, their arguments and the next number. -/
structure Where where
  clauses : List Clause
  args : List Argument
  argIndex : Nat
deriving DecidableEq

namespace Where

def initial : Where := ⟨[], [], 1⟩

def addBound (w : Where) : Option Int → Where
  | none => w
  | some scheduledBefore =>
      { clauses := w.clauses ++ [.scheduledUntil w.argIndex],
        args := w.args ++ [.time scheduledBefore], argIndex := w.argIndex + 1 }

/-- The loop over the statuses: placeholders, arguments and the next number. -/
def collectStatuses (args : List Argument) (argIndex : Nat) (statuses : List JobStatus)
    : List Nat × List Argument × Nat :=
  statuses.foldl
    (fun (placeholders, args, argIndex) s =>
      (placeholders ++ [argIndex], args ++ [.status s], argIndex + 1))
    ([], args, argIndex)

def addStatuses (w : Where) (statuses : List JobStatus) : Where :=
  if 0 < statuses.length then
    let (placeholders, args, argIndex) := collectStatuses w.args w.argIndex statuses
    { clauses := w.clauses ++ [.statusIn placeholders], args, argIndex }
  else w

def addLockTTL (w : Where) : Where := { w with clauses := w.clauses ++ [.lockExpired 60] }

def text (w : Where) : String := w.clauses.foldl (fun text clause => text ++ clause.text) "1=1"

end Where

/-- The queries of one call: the shared clauses, the placeholders of LIMIT and OFFSET and all
arguments.
-/
structure DueQueries where
  «where» : Where
  limit : Nat
  offset : Nat
  args : List Argument
deriving DecidableEq

namespace DueQueries

/-- The page a call is for. -/
def pageOf (page : Int) : Int := if page < 1 then 1 else page

/-- The offset is computed on 64-bit integers. -/
def offsetOf (page pageSize : Int) : Int := ((pageOf page - 1) * pageSize).bmod (2 ^ 64)

def build (page pageSize : Int) (statuses : List JobStatus) (scheduledBefore : Option Int)
    : DueQueries :=
  let clauses := ((Where.initial.addBound scheduledBefore).addStatuses statuses).addLockTTL
  { «where» := clauses, limit := clauses.argIndex, offset := clauses.argIndex + 1,
    args := clauses.args ++ [.int pageSize, .int (offsetOf page pageSize)] }

/-- `args[:len(args)-2]` -/
def countArgs (q : DueQueries) : List Argument := q.args.take (q.args.length - 2)

def countText (q : DueQueries) : String :=
  "SELECT COUNT(*) FROM gofire_schema.enqueued_jobs WHERE " ++ q.where.text

def selectText (q : DueQueries) : String :=
  "\n\t\tSELECT id, name, payload, status, attempts, max_attempts,"
    ++ "\n\t\t       scheduled_at, executed_at, executed_at, last_error,"
    ++ "\n\t\t       locked_by, locked_at, created_at"
    ++ "\n\t\tFROM gofire_schema.enqueued_jobs\n\t\tWHERE " ++ q.where.text
    ++ " ORDER BY scheduled_at ASC LIMIT " ++ placeholderText q.limit
    ++ " OFFSET " ++ placeholderText q.offset

example
    : (build 2 10 [.queued, .retrying] (some 0)).countText
      = "SELECT COUNT(*) FROM gofire_schema.enqueued_jobs WHERE 1=1 AND scheduled_at <= $1"
        ++ " AND status IN ($2, $3)"
        ++ " AND (status != 'processing' OR locked_at < now() - interval '60 minutes')" := by
  decide +kernel

end DueQueries

-----------------------------------------------------------------------------------------
-- The database
-----------------------------------------------------------------------------------------

/-- The argument a placeholder stands for. -/
def argument (args : List Argument) (placeholder : Nat) : Option Argument :=
  if placeholder = 0 then none else args[placeholder - 1]?

/-- A statement takes as many arguments as its highest placeholder says, and uses them all. -/
def Bindable (placeholders : List Nat) (args : List Argument) : Bool :=
  decide (args.length = placeholders.foldr max 0)
    && (List.range' 1 args.length).all (fun n => placeholders.contains n)

def statusArgument (args : List Argument) (placeholder : Nat) : Option JobStatus :=
  match argument args placeholder with
  | some (.status s) => some s
  | _ => none

/-- The condition a clause puts on a row; an argument of another type is an error. -/
def Clause.condition (now : Int) (args : List Argument) : Clause → Option (EnqueuedJob → Bool)
  | .scheduledUntil n =>
      match argument args n with
      | some (.time bound) => some fun job => job.scheduledAt ≤ bound
      | _ => none
  | .statusIn ns =>
      (ns.mapM (statusArgument args)).map fun statuses job => statuses.contains job.status
  | .lockExpired minutes =>
      some fun job => job.status ≠ .processing
        || job.lockedAt.any (fun lockedAt => lockedAt < now - minutes * GoTime.minute)

/-- The condition of the whole clause, 1=1 and all of its parts. -/
def Where.condition (w : Where) (now : Int) (args : List Argument)
    : Option (EnqueuedJob → Bool) :=
  (w.clauses.mapM (Clause.condition now args)).map
    fun conditions job => conditions.all (fun condition => condition job)

def Where.placeholders (w : Where) : List Nat := w.clauses.flatMap Clause.placeholders

namespace QueueStore

/-- The answer to the count query, if it is not an error. -/
def answerCount (s : QueueStore) (q : DueQueries) (args : List Argument) : Option Nat :=
  if Bindable q.where.placeholders args then (q.where.condition s.now args).map s.jobs.affected
  else none

/-- The rows of the select query, when the database returns those that meet the condition in
the given order.
-/
def answerSelect (s : QueueStore) (q : DueQueries) (args : List Argument) (order : List Nat)
    : Option (List EnqueuedJob) :=
  if Bindable (q.where.placeholders ++ [q.limit, q.offset]) args then
    match q.where.condition s.now args, argument args q.limit, argument args q.offset with
    | some condition, some (.int limit), some (.int offset) =>
        if limit < 0 ∨ offset < 0 then none
        else if s.jobs.Ordering condition (fun a b => a.scheduledAt ≤ b.scheduledAt) order then
          some (s.jobs.select order offset.toNat limit.toNat)
        else none
    | _, _, _ => none
  else none

/-- FetchDueJobs by its queries, on the tables that the first and the second one find. -/
def queryDueJobs (counted selected : QueueStore) (page pageSize : Int)
    (statuses : List JobStatus) (scheduledBefore : Option Int) (order : List Nat)
    : Option (PaginationResult EnqueuedJob) := do
  let q := DueQueries.build page pageSize statuses scheduledBefore
  let totalItems ← counted.answerCount q q.countArgs
  let rows ← selected.answerSelect q q.args order
  let page := DueQueries.pageOf page
  return paginate (Rows.collect { ahead := rows }) totalItems page.toNat pageSize.toNat

end QueueStore

-----------------------------------------------------------------------------------------
-- Placeholders and arguments
-----------------------------------------------------------------------------------------

/-- The loop numbers its placeholders from the next number on and appends as many arguments,
by induction on the statuses.
-/
theorem Where.collectStatuses_eq (args : List Argument) (argIndex : Nat)
    (statuses : List JobStatus)
    : collectStatuses args argIndex statuses
      = (List.range' argIndex statuses.length, args ++ statuses.map .status,
          argIndex + statuses.length) := by
  suffices general : ∀ placeholders args argIndex,
      statuses.foldl
        (fun (placeholders, args, argIndex) s =>
          (placeholders ++ [argIndex], args ++ [Argument.status s], argIndex + 1))
        (placeholders, args, argIndex)
      = (placeholders ++ List.range' argIndex statuses.length, args ++ statuses.map .status,
          argIndex + statuses.length) by
    simpa [collectStatuses] using general [] args argIndex
  induction statuses with
  | nil => simp
  | cons s rest ih =>
      intro placeholders args argIndex
      rw [List.foldl_cons, ih]
      simp [List.range'_succ, Nat.add_assoc, Nat.add_comm 1]

/-- The clauses, arguments and next number that a call writes. -/
theorem DueQueries.build_where (page pageSize : Int) (statuses : List JobStatus)
    (scheduledBefore : Option Int)
    : (build page pageSize statuses scheduledBefore).where
      = { clauses := scheduledBefore.toList.map (fun _ => .scheduledUntil 1)
            ++ (if statuses = [] then []
              else [.statusIn (List.range' (scheduledBefore.toList.length + 1) statuses.length)])
            ++ [.lockExpired 60],
          args := scheduledBefore.toList.map .time ++ statuses.map .status,
          argIndex := scheduledBefore.toList.length + statuses.length + 1 } := by
  cases scheduledBefore with
  | none =>
      cases statuses with
      | nil => rfl
      | cons s rest =>
          simp [build, Where.initial, Where.addBound, Where.addStatuses, Where.addLockTTL,
            Where.collectStatuses_eq, Nat.add_comm]
  | some bound =>
      cases statuses with
      | nil => rfl
      | cons s rest =>
          simp [build, Where.initial, Where.addBound, Where.addStatuses, Where.addLockTTL,
            Where.collectStatuses_eq, Nat.add_comm]
          omega

theorem foldr_max_range' (n m : Nat) : (List.range' 1 n).foldr max m = max n m := by
  induction n generalizing m with
  | zero => simp
  | succ n ih =>
      rw [List.range'_concat, List.foldr_append, ih]
      simp only [List.foldr_cons, List.foldr_nil]
      omega

theorem bindable_of_range' {placeholders : List Nat} {args : List Argument}
    (numbered : placeholders = List.range' 1 args.length)
    : Bindable placeholders args = true := by
  simp [Bindable, numbered, foldr_max_range']

/-- A placeholder stands for the argument that was appended when it was written. -/
theorem argument_append (before after : List Argument) (value : Argument)
    : argument (before ++ value :: after) (before.length + 1) = some value := by
  simp [argument]

theorem map_argument_range' (before values after : List Argument)
    : (List.range' (before.length + 1) values.length).map (argument (before ++ values ++ after))
      = values.map some := by
  induction values generalizing before with
  | nil => rfl
  | cons value values ih =>
      rw [List.length_cons, List.range'_succ, List.map_cons, List.map_cons]
      have later := ih (before ++ [value])
      simp only [List.length_append, List.length_singleton, List.append_assoc,
        List.cons_append, List.nil_append] at later
      rw [List.append_assoc, List.cons_append, argument_append, later]

/-- The statuses of a list of placeholders, by induction on it. -/
theorem mapM_statusArgument {args : List Argument} {placeholders : List Nat}
    {statuses : List JobStatus}
    (bound : placeholders.map (argument args) = (statuses.map .status).map some)
    : placeholders.mapM (statusArgument args) = some statuses := by
  induction placeholders generalizing statuses with
  | nil =>
      cases statuses with
      | nil => rfl
      | cons s others => simp at bound
  | cons n rest ih =>
      cases statuses with
      | nil => simp at bound
      | cons s others =>
          obtain ⟨first, later⟩ := List.cons.inj bound
          have read : statusArgument args n = some s := by simp [statusArgument, first]
          rw [List.mapM_cons, read, ih later]
          rfl

namespace DueQueries

variable (page pageSize : Int) (statuses : List JobStatus) (scheduledBefore : Option Int)

theorem build_placeholders
    : (build page pageSize statuses scheduledBefore).where.placeholders
      = List.range' 1 (build page pageSize statuses scheduledBefore).where.args.length := by
  rw [build_where]
  have first (n : Nat) : 1 :: List.range' 2 n = List.range' 1 (1 + n) := by
    rw [Nat.add_comm, List.range'_succ]
  cases scheduledBefore with
  | none => cases statuses <;> simp [Where.placeholders, Clause.placeholders]
  | some bound =>
      cases statuses with
      | nil => rfl
      | cons s rest =>
          simp [Where.placeholders, Clause.placeholders, first]
          omega

theorem build_args
    : (build page pageSize statuses scheduledBefore).args
      = (build page pageSize statuses scheduledBefore).where.args
        ++ [.int pageSize, .int (offsetOf page pageSize)] :=
  rfl

theorem build_countArgs
    : (build page pageSize statuses scheduledBefore).countArgs
      = (build page pageSize statuses scheduledBefore).where.args := by
  rw [countArgs, build_args]
  simp

theorem build_limit
    : (build page pageSize statuses scheduledBefore).limit
      = (build page pageSize statuses scheduledBefore).where.args.length + 1 := by
  show (build page pageSize statuses scheduledBefore).where.argIndex = _
  rw [build_where]
  simp

theorem build_offset
    : (build page pageSize statuses scheduledBefore).offset
      = (build page pageSize statuses scheduledBefore).where.args.length + 1 + 1 :=
  congrArg (· + 1) (build_limit page pageSize statuses scheduledBefore)

/-- The placeholders of the clauses stand for what they are meant for: the bound, and the
statuses one after the other.
-/
structure Intends (q : DueQueries) (args : List Argument) : Prop where
  bound : ∀ n, .scheduledUntil n ∈ q.where.clauses →
    ∃ instant, scheduledBefore = some instant ∧ argument args n = some (.time instant)
  statuses : ∀ ns, .statusIn ns ∈ q.where.clauses →
    ns.map (argument args) = (statuses.map .status).map some

/-- They do so whatever arguments follow those of the clauses. -/
theorem build_intends (more : List Argument)
    : (build page pageSize statuses scheduledBefore).Intends statuses scheduledBefore
        ((build page pageSize statuses scheduledBefore).where.args ++ more) := by
  rw [build_where]
  constructor
  · intro n mem
    rw [build_where] at mem
    cases scheduledBefore with
    | none =>
        split at mem <;> simp at mem
    | some bound =>
        have first : argument ((some bound).toList.map .time ++ statuses.map .status ++ more) 1
            = some (.time bound) :=
          argument_append [] (statuses.map .status ++ more) (.time bound)
        obtain rfl : n = 1 := by
          split at mem <;> simpa using mem
        exact ⟨bound, rfl, first⟩
  · intro ns mem
    rw [build_where] at mem
    have placed := map_argument_range' (scheduledBefore.toList.map .time)
      (statuses.map .status) more
    split at mem
    case isTrue none => simp at mem
    case isFalse given =>
      obtain rfl : ns = List.range' (scheduledBefore.toList.length + 1) statuses.length := by
        simpa using mem
      simpa using placed

/-- The database reads the clauses as the condition of a due job. -/
theorem condition_build (s : QueueStore) (more : List Argument)
    : (build page pageSize statuses scheduledBefore).where.condition s.now
          ((build page pageSize statuses scheduledBefore).where.args ++ more)
      = some (s.isDue statuses scheduledBefore) := by
  have first (bound : Int) (rest : List Argument)
      : argument (.time bound :: rest) 1 = some (.time bound) :=
    argument_append [] rest (.time bound)
  have listed (before : List Argument) (k : Nat) (same : k = before.length + 1)
      : (List.range' k statuses.length).mapM
          (statusArgument (before ++ (statuses.map .status ++ more)))
        = some statuses := by
    apply mapM_statusArgument
    have placed := map_argument_range' before (statuses.map .status) more
    rw [List.length_map, List.append_assoc] at placed
    rw [same, placed]
  rw [build_where]
  cases scheduledBefore with
  | none =>
      have statusList := listed [] 1 rfl
      cases statuses with
      | nil => simp [Where.condition, Clause.condition, funext_iff, QueueStore.isDue]
      | cons s rest =>
          simp only [List.nil_append, List.length_cons, List.map_cons, List.cons_append]
            at statusList
          simp [Where.condition, Clause.condition, funext_iff, QueueStore.isDue, statusList]
  | some bound =>
      have statusList := listed [.time bound] 2 rfl
      cases statuses with
      | nil =>
          simp [Where.condition, Clause.condition, funext_iff, QueueStore.isDue, first]
      | cons s rest =>
          simp only [List.length_cons, List.map_cons, List.cons_append, List.nil_append]
            at statusList
          simp [Where.condition, Clause.condition, funext_iff, QueueStore.isDue, first,
            statusList, Bool.and_assoc]

theorem build_bindable
    : Bindable (build page pageSize statuses scheduledBefore).where.placeholders
          (build page pageSize statuses scheduledBefore).countArgs = true
      ∧ Bindable ((build page pageSize statuses scheduledBefore).where.placeholders
          ++ [(build page pageSize statuses scheduledBefore).limit,
              (build page pageSize statuses scheduledBefore).offset])
          (build page pageSize statuses scheduledBefore).args = true := by
  have placed := build_placeholders page pageSize statuses scheduledBefore
  refine ⟨bindable_of_range' ?_, bindable_of_range' ?_⟩
  · rw [placed, build_countArgs]
  · rw [placed, build_limit, build_offset, build_args, List.length_append]
    show _ = List.range' 1 (_ + 1 + 1)
    rw [List.range'_concat, List.range'_concat]
    simp [Nat.add_comm]

theorem build_window
    : argument (build page pageSize statuses scheduledBefore).args
          (build page pageSize statuses scheduledBefore).limit = some (.int pageSize)
      ∧ argument (build page pageSize statuses scheduledBefore).args
          (build page pageSize statuses scheduledBefore).offset
        = some (.int (offsetOf page pageSize)) := by
  rw [build_limit, build_offset, build_args]
  refine ⟨argument_append _ _ _, ?_⟩
  have last := argument_append
    ((build page pageSize statuses scheduledBefore).where.args ++ [.int pageSize]) []
    (.int (offsetOf page pageSize))
  simpa using last

theorem pageOf_pos : 1 ≤ pageOf page := by
  unfold pageOf
  split <;> omega

theorem skipped_nonneg (sized : 1 ≤ pageSize) : 0 ≤ (pageOf page - 1) * pageSize := by
  have first := pageOf_pos page
  exact Int.mul_nonneg (by omega) (by omega)

/-- The offset is the number of rows on the pages before exactly when that is one of Go's
integers.
-/
theorem offsetOf_exact_iff (sized : 1 ≤ pageSize)
    : offsetOf page pageSize = (pageOf page - 1) * pageSize ∧ 0 ≤ offsetOf page pageSize
      ↔ (pageOf page - 1) * pageSize ≤ 2 ^ 63 - 1 := by
  have nonneg := skipped_nonneg page pageSize sized
  constructor
  · intro exact
    have bound : offsetOf page pageSize < 2 ^ 63 := Int.bmod_lt (by decide)
    omega
  · intro fits
    have same : offsetOf page pageSize = (pageOf page - 1) * pageSize :=
      Int.bmod_eq_of_le (by omega) (by omega)
    exact ⟨same, same ▸ nonneg⟩

/-- A page below the first one is clamped, and then nothing is skipped. -/
theorem offsetOf_eq (sized : 1 ≤ pageSize) (fits : (page - 1) * pageSize ≤ 2 ^ 63 - 1)
    : offsetOf page pageSize = (pageOf page - 1) * pageSize
      ∧ 0 ≤ (pageOf page - 1) * pageSize := by
  have clamped : (pageOf page - 1) * pageSize ≤ 2 ^ 63 - 1 := by
    unfold pageOf
    split
    · simp
    · exact fits
  exact ⟨((offsetOf_exact_iff page pageSize sized).mpr clamped).1,
    skipped_nonneg page pageSize sized⟩

end DueQueries

-----------------------------------------------------------------------------------------
-- Due jobs
-----------------------------------------------------------------------------------------

/-- A job that FetchDueJobs is meant to return. -/
structure Due (now : Int) (statuses : List JobStatus) (scheduledBefore : Option Int)
    (job : EnqueuedJob)
    : Prop where
  scheduled : ∀ bound ∈ scheduledBefore, job.scheduledAt ≤ bound
  listed : statuses ≠ [] → job.status ∈ statuses
  unlocked : job.status ≠ .processing
    ∨ ∃ lockedAt, job.lockedAt = some lockedAt ∧ lockedAt < now - 60 * GoTime.minute

namespace QueueStore

theorem isDue_iff (s : QueueStore) (statuses : List JobStatus) (scheduledBefore : Option Int)
    (job : EnqueuedJob)
    : s.isDue statuses scheduledBefore job = true ↔ Due s.now statuses scheduledBefore job := by
  have parts : Due s.now statuses scheduledBefore job
      ↔ (∀ bound ∈ scheduledBefore, job.scheduledAt ≤ bound)
        ∧ (statuses ≠ [] → job.status ∈ statuses)
        ∧ (job.status ≠ .processing
          ∨ ∃ lockedAt, job.lockedAt = some lockedAt ∧ lockedAt < s.now - 60 * GoTime.minute) :=
    ⟨fun due => ⟨due.scheduled, due.listed, due.unlocked⟩, fun h => ⟨h.1, h.2.1, h.2.2⟩⟩
  rw [parts]
  cases scheduledBefore <;> cases statuses <;> simp [isDue, and_assoc, Option.any_eq_true]

instance (now : Int) (statuses : List JobStatus) (scheduledBefore : Option Int)
    : DecidablePred (Due now statuses scheduledBefore) :=
  fun job => decidable_of_iff _ (isDue_iff ⟨.empty, now⟩ statuses scheduledBefore job)

theorem answerCount_eq (s : QueueStore) (page pageSize : Int) (statuses : List JobStatus)
    (scheduledBefore : Option Int)
    : s.answerCount (.build page pageSize statuses scheduledBefore)
        (DueQueries.build page pageSize statuses scheduledBefore).countArgs
      = some (s.countDueJobs statuses scheduledBefore) := by
  have condition := DueQueries.condition_build page pageSize statuses scheduledBefore s []
  rw [List.append_nil, ← DueQueries.build_countArgs] at condition
  rw [answerCount, if_pos (DueQueries.build_bindable _ _ _ _).1, condition]
  rfl

/-- The rows behind the offset, as many as fit on the page; a negative offset is an error. -/
theorem answerSelect_build (s : QueueStore) {page pageSize : Int} (sized : 1 ≤ pageSize)
    (statuses : List JobStatus) (scheduledBefore : Option Int) (order : List Nat)
    : s.answerSelect (.build page pageSize statuses scheduledBefore)
        (DueQueries.build page pageSize statuses scheduledBefore).args order
      = if DueQueries.offsetOf page pageSize < 0 then none
        else if s.jobs.Ordering (s.isDue statuses scheduledBefore)
            (fun a b => a.scheduledAt ≤ b.scheduledAt) order then
          some (s.jobs.select order (DueQueries.offsetOf page pageSize).toNat pageSize.toNat)
        else none := by
  have condition := DueQueries.condition_build page pageSize statuses scheduledBefore s
    [.int pageSize, .int (DueQueries.offsetOf page pageSize)]
  rw [← DueQueries.build_args] at condition
  obtain ⟨limit, offset⟩ := DueQueries.build_window page pageSize statuses scheduledBefore
  have positive : (pageSize < 0 ∨ DueQueries.offsetOf page pageSize < 0)
      ↔ DueQueries.offsetOf page pageSize < 0 := by omega
  rw [answerSelect, if_pos (DueQueries.build_bindable _ _ _ _).2]
  simp only [condition, limit, offset, positive]

theorem answerSelect_eq (s : QueueStore) {page pageSize : Int} (sized : 1 ≤ pageSize)
    (fits : (page - 1) * pageSize ≤ 2 ^ 63 - 1) (statuses : List JobStatus)
    (scheduledBefore : Option Int) (order : List Nat)
    : s.answerSelect (.build page pageSize statuses scheduledBefore)
        (DueQueries.build page pageSize statuses scheduledBefore).args order
      = if s.jobs.Ordering (s.isDue statuses scheduledBefore)
            (fun a b => a.scheduledAt ≤ b.scheduledAt) order
        then some (s.jobs.select order ((DueQueries.pageOf page - 1) * pageSize).toNat
          pageSize.toNat)
        else none := by
  obtain ⟨exact, nonneg⟩ := DueQueries.offsetOf_eq page pageSize sized fits
  rw [answerSelect_build s sized, exact, if_neg (not_lt.mpr nonneg)]

/-- An offset that has wrapped below zero is an error of the database. -/
theorem queryDueJobs_negative (counted selected : QueueStore) {page pageSize : Int}
    (sized : 1 ≤ pageSize) (wrapped : DueQueries.offsetOf page pageSize < 0)
    (statuses : List JobStatus) (scheduledBefore : Option Int) (order : List Nat)
    : counted.queryDueJobs selected page pageSize statuses scheduledBefore order = none := by
  simp only [queryDueJobs, answerCount_eq, answerSelect_build selected sized, if_pos wrapped,
    Option.bind_eq_bind, Option.bind_some, Option.bind_none]

/-- The two queries answer with the count and the window of the due jobs. -/
theorem queryDueJobs_eq (counted selected : QueueStore) {page pageSize : Int}
    (sized : 1 ≤ pageSize) (fits : (page - 1) * pageSize ≤ 2 ^ 63 - 1)
    (statuses : List JobStatus) (scheduledBefore : Option Int) (order : List Nat)
    : counted.queryDueJobs selected page pageSize statuses scheduledBefore order
      = selected.fetchDueJobs page.toNat pageSize.toNat statuses scheduledBefore
          (counted.countDueJobs statuses scheduledBefore) order := by
  have pages : max page.toNat 1 = (DueQueries.pageOf page).toNat := by
    unfold DueQueries.pageOf
    split <;> omega
  have offset : ((DueQueries.pageOf page - 1) * pageSize).toNat
      = ((DueQueries.pageOf page).toNat - 1) * pageSize.toNat := by
    have first := DueQueries.pageOf_pos page
    rw [Int.toNat_mul (by omega) (by omega)]
    congr 1
    omega
  simp only [queryDueJobs, answerCount_eq, answerSelect_eq selected sized fits, fetchDueJobs,
    pages, offset, Rows.collect_eq, Option.bind_eq_bind, Option.bind_some]
  split <;> rfl

/-- The rows of the jobs that are due. -/
def dueRows (s : QueueStore) (statuses : List JobStatus) (scheduledBefore : Option Int)
    : List EnqueuedJob :=
  s.jobs.rows.filter (fun job => Due s.now statuses scheduledBefore job)

/-- A page of some rows in ascending order of their times. -/
def IsPage (rows : List EnqueuedJob) (offset limit : Int) (items : List EnqueuedJob) : Prop :=
  ∃ sorted : List EnqueuedJob,
    sorted.Perm rows ∧ sorted.Pairwise (fun a b => a.scheduledAt ≤ b.scheduledAt)
    ∧ items = (sorted.drop offset.toNat).take limit.toNat

theorem filter_isDue (s : QueueStore) (statuses : List JobStatus) (scheduledBefore : Option Int)
    : s.jobs.rows.filter (s.isDue statuses scheduledBefore)
      = s.dueRows statuses scheduledBefore := by
  apply List.filter_congr
  intro job _
  rw [Bool.eq_iff_iff, decide_eq_true_iff, isDue_iff]

end QueueStore

end GoFire.Store
