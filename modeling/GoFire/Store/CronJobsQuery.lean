import GoFire.Store.CronJobStore
import GoFire.Store.DueJobsQuery

/-! The two queries of GetAll: their texts, numbered placeholders and arguments, and what the
database answers to them.
-/

namespace GoFire.Store

open GoFire.State

/-- The queries of one call: the placeholder of the status, those of LIMIT and OFFSET, and all
arguments.
-/
structure AllQueries where
  status : Option Nat
  limit : Nat
  offset : Nat
  args : List Argument
deriving DecidableEq

namespace AllQueries

/-- The number of the status's placeholder, the arguments so far and the next number; without a
status all rows are listed.
-/
def filterBy (argIndex : Nat) : Option JobStatus → Option Nat × List Argument × Nat
  | none => (none, [], argIndex)
  | some status => (some argIndex, [.status status], argIndex + 1)

/-- The page and its offset are computed as in FetchDueJobs. -/
def build (page pageSize : Int) (status : Option JobStatus) : AllQueries :=
  let (placeholder, args, argIndex) := filterBy 1 status
  { status := placeholder, limit := argIndex, offset := argIndex + 1,
    args := args ++ [.int pageSize, .int (DueQueries.offsetOf page pageSize)] }

/-- `args[:len(args)-2]` -/
def countArgs (q : AllQueries) : List Argument := q.args.take (q.args.length - 2)

def whereText (q : AllQueries) : String :=
  match q.status with
  | none => "TRUE"
  | some n => "TRUE" ++ " AND status = " ++ placeholderText n

def countText (q : AllQueries) : String :=
  "SELECT COUNT(*) FROM gofire_schema.cron_jobs WHERE " ++ q.whereText

def selectText (q : AllQueries) : String :=
  "\n\t\tSELECT id, name, payload, status, last_error,"
    ++ "\n\t\t       locked_by, locked_at, created_at,"
    ++ "\n\t\t       last_run_at, next_run_at, is_active, expression"
    ++ "\n\t\tFROM gofire_schema.cron_jobs\n\t\tWHERE " ++ q.whereText
    ++ "\n\t\tORDER BY created_at DESC\n\t\tLIMIT " ++ placeholderText q.limit
    ++ " OFFSET " ++ placeholderText q.offset

/-- The condition on a row; an argument of another type is an error. -/
def condition (q : AllQueries) (args : List Argument) : Option (CronJob → Bool) :=
  match q.status with
  | none => some fun _ => true
  | some n => (statusArgument args n).map fun status job => job.status = status

end AllQueries

namespace CronStore

/-- The answer to the count query, if it is not an error. -/
def answerCount (s : CronStore) (q : AllQueries) (args : List Argument) : Option Nat :=
  if Bindable q.status.toList args then (q.condition args).map s.jobs.affected else none

/-- ORDER BY created_at DESC. -/
def createdAtGe (a b : CronJob) : Bool := b.createdAt ≤ a.createdAt

/-- The rows of the select query, when the database returns those that meet the condition in
the given order.
-/
def answerSelect (s : CronStore) (q : AllQueries) (args : List Argument) (order : List Nat)
    : Option (List CronJob) :=
  if Bindable (q.status.toList ++ [q.limit, q.offset]) args then
    match q.condition args, argument args q.limit, argument args q.offset with
    | some condition, some (.int limit), some (.int offset) =>
        if limit < 0 ∨ offset < 0 then none
        else if s.jobs.Ordering condition createdAtGe order then
          some (s.jobs.select order offset.toNat limit.toNat)
        else none
    | _, _, _ => none
  else none

/-- GetAll, on the tables that the first and the second query find. A row whose next_run_at is
NULL cannot be scanned and is passed over.
-/
def getAll (counted selected : CronStore) (page pageSize : Int) (status : Option JobStatus)
    (order : List Nat)
    : Option (PaginationResult CronJob) := do
  let q := AllQueries.build page pageSize status
  let totalItems ← counted.answerCount q q.countArgs
  let rows ← selected.answerSelect q q.args order
  return paginate (rows.filter (fun job => job.nextRunAt.isSome)) totalItems
    (DueQueries.pageOf page).toNat pageSize.toNat

end CronStore

-----------------------------------------------------------------------------------------
-- What GetAll lists
-----------------------------------------------------------------------------------------

namespace AllQueries

variable (page pageSize : Int) (status : Option JobStatus)

theorem build_bindable
    : Bindable (build page pageSize status).status.toList
          (build page pageSize status).countArgs = true
      ∧ Bindable ((build page pageSize status).status.toList
          ++ [(build page pageSize status).limit, (build page pageSize status).offset])
          (build page pageSize status).args = true := by
  cases status <;> exact ⟨bindable_of_range' rfl, bindable_of_range' rfl⟩

theorem build_window
    : argument (build page pageSize status).args (build page pageSize status).limit
        = some (.int pageSize)
      ∧ argument (build page pageSize status).args (build page pageSize status).offset
        = some (.int (DueQueries.offsetOf page pageSize)) := by
  cases status <;> exact ⟨rfl, rfl⟩

end AllQueries

namespace CronStore

/-- A job that GetAll lists. -/
def isListed (status : Option JobStatus) (job : CronJob) : Bool :=
  status.all (fun status => job.status = status)

theorem condition_build (page pageSize : Int) (status : Option JobStatus)
    : (AllQueries.build page pageSize status).condition
          (AllQueries.build page pageSize status).countArgs = some (isListed status)
      ∧ (AllQueries.build page pageSize status).condition
          (AllQueries.build page pageSize status).args = some (isListed status) := by
  cases status <;> exact ⟨rfl, rfl⟩

theorem answerCount_eq (s : CronStore) (page pageSize : Int) (status : Option JobStatus)
    : s.answerCount (.build page pageSize status) (AllQueries.build page pageSize status).countArgs
      = some (s.jobs.affected (isListed status)) := by
  rw [answerCount, if_pos (AllQueries.build_bindable _ _ _).1, (condition_build _ _ _).1]
  rfl

/-- The rows behind the offset, as many as fit on the page; a negative offset is an error. -/
theorem answerSelect_build (s : CronStore) {page pageSize : Int} (sized : 1 ≤ pageSize)
    (status : Option JobStatus) (order : List Nat)
    : s.answerSelect (.build page pageSize status) (AllQueries.build page pageSize status).args order
      = if DueQueries.offsetOf page pageSize < 0 then none
        else if s.jobs.Ordering (isListed status) createdAtGe order then
          some (s.jobs.select order (DueQueries.offsetOf page pageSize).toNat pageSize.toNat)
        else none := by
  obtain ⟨limit, offset⟩ := AllQueries.build_window page pageSize status
  have positive : (pageSize < 0 ∨ DueQueries.offsetOf page pageSize < 0)
      ↔ DueQueries.offsetOf page pageSize < 0 := by omega
  rw [answerSelect, if_pos (AllQueries.build_bindable _ _ _).2]
  simp only [(condition_build page pageSize status).2, limit, offset, positive]

/-- The page of GetAll, while its offset does not overflow. -/
theorem getAll_eq (counted selected : CronStore) {page pageSize : Int} (sized : 1 ≤ pageSize)
    (fits : (page - 1) * pageSize ≤ 2 ^ 63 - 1) (status : Option JobStatus) (order : List Nat)
    : counted.getAll selected page pageSize status order
      = if selected.jobs.Ordering (isListed status) createdAtGe order then
          some (paginate
            ((selected.jobs.select order ((DueQueries.pageOf page - 1) * pageSize).toNat
              pageSize.toNat).filter (fun job => job.nextRunAt.isSome))
            (counted.jobs.affected (isListed status)) (DueQueries.pageOf page).toNat pageSize.toNat)
        else none := by
  obtain ⟨exact, nonneg⟩ := DueQueries.offsetOf_eq page pageSize sized fits
  simp only [getAll, answerCount_eq, answerSelect_build selected sized, exact,
    if_neg (not_lt.mpr nonneg), Option.bind_eq_bind, Option.bind_some]
  split <;> rfl

theorem getAll_negative (counted selected : CronStore) {page pageSize : Int}
    (sized : 1 ≤ pageSize) (wrapped : DueQueries.offsetOf page pageSize < 0)
    (status : Option JobStatus) (order : List Nat)
    : counted.getAll selected page pageSize status order = none := by
  simp only [getAll, answerCount_eq, answerSelect_build selected sized, if_pos wrapped,
    Option.bind_eq_bind, Option.bind_some, Option.bind_none]

end CronStore

end GoFire.Store
