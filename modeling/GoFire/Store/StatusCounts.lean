import Mathlib.Data.List.Dedup
import GoFire.Foundations.TiedPages
import GoFire.Store.DueJobsQuery

/-! The counts that the dashboard shows beside the list of the enqueued jobs. The list leaves out
jobs in processing whose lock has not expired; the counts do not.
-/

namespace GoFire.Store.QueueStore

open GoFire.State TransitionSystem

/-- CountJobsByStatus. -/
def countJobsByStatus (s : QueueStore) (status : JobStatus) : Nat :=
  s.jobs.affected (fun job => job.status = status)

/-- The rows of the grouping query: one for each status in the table, in the given order. -/
def groups (s : QueueStore) (order : List JobStatus) : Option (List (JobStatus × Nat)) :=
  if order.isPerm (s.jobs.rows.map EnqueuedJob.status).dedup then
    some (order.map fun status => (status, s.countJobsByStatus status))
  else none

/-- The loop over the rows; a map from statuses to counts is a function. -/
def collectGroups (rows : List (JobStatus × Nat)) : JobStatus → Option Nat :=
  rows.foldl (fun result row => Function.update result row.1 (some row.2)) (fun _ => none)

/-- The loop that sets the missing statuses to zero. -/
def fillMissing (statuses : List JobStatus) (result : JobStatus → Option Nat)
    : JobStatus → Option Nat :=
  statuses.foldl
    (fun result status =>
      if (result status).isSome then result else Function.update result status (some 0))
    result

/-- CountAllJobsGroupedByStatus, when the database returns the groups in the given order. -/
def countAllJobsGroupedByStatus (s : QueueStore) (order : List JobStatus)
    : Option (JobStatus → Option Nat) :=
  (s.groups order).map fun rows => fillMissing allStatuses (collectGroups rows)

/-- The jobs in processing whose lock is missing or not older than 60 minutes. -/
def countHeldJobs (s : QueueStore) : Nat :=
  s.jobs.affected fun job => job.status = .processing
    && !job.lockedAt.any (fun lockedAt => lockedAt < s.now - 60 * GoTime.minute)

-----------------------------------------------------------------------------------------
-- The grouped counts
-----------------------------------------------------------------------------------------

theorem collectGroups_map (count : JobStatus → Nat) (order : List JobStatus) (status : JobStatus)
    : collectGroups (order.map fun status => (status, count status)) status
      = if status ∈ order then some (count status) else none := by
  suffices general : ∀ base : JobStatus → Option Nat,
      (order.map fun status => (status, count status)).foldl
        (fun (result : JobStatus → Option Nat) row => Function.update result row.1 (some row.2))
        base status
      = if status ∈ order then some (count status) else base status from general _
  induction order with
  | nil =>
      intro base
      rfl
  | cons first rest ih =>
      intro base
      rw [List.map_cons, List.foldl_cons, ih]
      by_cases later : status ∈ rest
      · simp [later]
      · by_cases same : status = first
        · subst same
          simp [later]
        · simp [later, same]

theorem fillMissing_eq (statuses : List JobStatus) (result : JobStatus → Option Nat)
    (status : JobStatus)
    : fillMissing statuses result status
      = (result status).or (if status ∈ statuses then some 0 else none) := by
  unfold fillMissing
  induction statuses generalizing result with
  | nil => simp
  | cons first rest ih =>
      rw [List.foldl_cons, ih]
      by_cases same : status = first
      · subst same
        cases known : result status <;> simp [known]
      · cases known : result first <;> simp [same]

theorem mem_allStatuses (status : JobStatus) : status ∈ allStatuses := by
  cases status <;> decide

/-- The grouped counts are those of the single statuses, whatever the order of the groups. -/
theorem countAllJobsGroupedByStatus_eq {s : QueueStore} {order : List JobStatus}
    {result : JobStatus → Option Nat} (h : s.countAllJobsGroupedByStatus order = some result)
    (status : JobStatus)
    : result status = some (s.countJobsByStatus status) := by
  simp only [countAllJobsGroupedByStatus, groups, Option.map_eq_some_iff,
    Option.ite_none_right_eq_some, Option.some.injEq] at h
  obtain ⟨rows, ⟨perm, rfl⟩, rfl⟩ := h
  rw [fillMissing_eq, collectGroups_map, if_pos (mem_allStatuses status)]
  by_cases present : status ∈ order
  · rw [if_pos present, Option.some_or]
  · have absent : s.countJobsByStatus status = 0 := by
      refine List.countP_eq_zero.mpr fun job mem same => present ?_
      refine (List.isPerm_iff.mp perm).mem_iff.mpr (List.mem_dedup.mpr ?_)
      exact List.mem_map.mpr ⟨job, mem, of_decide_eq_true same⟩
    rw [if_neg present, Option.none_or, absent]

theorem exists_groups (s : QueueStore)
    : ∃ order, (s.countAllJobsGroupedByStatus order).isSome = true := by
  refine ⟨(s.jobs.rows.map EnqueuedJob.status).dedup, ?_⟩
  have perm := List.isPerm_iff.mpr (List.Perm.refl (s.jobs.rows.map EnqueuedJob.status).dedup)
  simp [countAllJobsGroupedByStatus, groups, perm]

-----------------------------------------------------------------------------------------
-- The counts of the list
-----------------------------------------------------------------------------------------

/-- A condition splits the rows that meet another one. -/
theorem countP_and_add {α : Type*} (p q : α → Bool) (rows : List α)
    : rows.countP (fun row => p row && q row) + rows.countP (fun row => p row && !q row)
      = rows.countP p := by
  induction rows with
  | nil => rfl
  | cons row rest ih =>
      simp only [List.countP_cons, ← ih]
      cases p row <;> cases q row <;> simp <;> omega

/-- Every job has exactly one status. -/
theorem sum_countJobsByStatus (s : QueueStore)
    : (allStatuses.map s.countJobsByStatus).sum = s.jobs.rows.length := by
  unfold countJobsByStatus KeyedTable.affected
  induction s.jobs.rows with
  | nil => rfl
  | cons job rest ih =>
      rw [List.length_cons, ← ih]
      simp only [allStatuses, List.map_cons, List.map_nil, List.sum_cons, List.sum_nil,
        List.countP_cons]
      cases job.status <;> simp <;> omega

theorem countDueJobs_all (s : QueueStore)
    : s.countDueJobs [] none + s.countHeldJobs = (allStatuses.map s.countJobsByStatus).sum := by
  rw [sum_countJobsByStatus, List.length_eq_countP_add_countP (s.isDue [] none)]
  congr 1
  apply List.countP_congr
  intro job _
  simp [isDue]

theorem countDueJobs_status (s : QueueStore) (status : JobStatus)
    : s.countDueJobs [status] none + (if status = .processing then s.countHeldJobs else 0)
      = s.countJobsByStatus status := by
  by_cases processing : status = .processing
  · subst processing
    have split := countP_and_add (fun job : EnqueuedJob => decide (job.status = .processing))
      (fun job => job.lockedAt.any (fun lockedAt => lockedAt < s.now - 60 * GoTime.minute))
      s.jobs.rows
    rw [if_pos rfl]
    refine (congrArg (· + s.countHeldJobs) (List.countP_congr ?_)).trans split
    intro job _
    by_cases same : job.status = .processing <;> simp [isDue, same]
  · rw [if_neg processing, Nat.add_zero]
    apply List.countP_congr
    intro job _
    by_cases same : job.status = status
    · subst same
      simp [isDue, processing]
    · simp [isDue, same]

/-- TotalItems is the count of the due jobs. -/
theorem totalItems_queryDueJobs {s selected : QueueStore} {page pageSize : Int}
    {statuses : List JobStatus} {scheduledBefore : Option Int} {order : List Nat}
    {result : PaginationResult EnqueuedJob}
    (h : s.queryDueJobs selected page pageSize statuses scheduledBefore order = some result)
    : result.totalItems = s.countDueJobs statuses scheduledBefore := by
  simp only [queryDueJobs, answerCount_eq, Option.bind_eq_bind, Option.bind_some,
    Option.bind_eq_some_iff, Option.pure_def, Option.some.injEq] at h
  obtain ⟨rows, -, rfl⟩ := h
  rfl

/-- A page within the range of the offset is answered. -/
theorem exists_queryDueJobs (s selected : QueueStore) {page pageSize : Int}
    (sized : 1 ≤ pageSize) (fits : (page - 1) * pageSize ≤ 2 ^ 63 - 1)
    (statuses : List JobStatus) (scheduledBefore : Option Int)
    : ∃ order, (s.queryDueJobs selected page pageSize statuses scheduledBefore order).isSome
        = true := by
  obtain ⟨sorted, perm, ascending⟩ := SortedPages.exists_sorting EnqueuedJob.scheduledAt
    (selected.jobs.rows.filter (selected.isDue statuses scheduledBefore))
  have ordered : sorted.Pairwise
      (fun a b => (fun a b : EnqueuedJob => decide (a.scheduledAt ≤ b.scheduledAt)) a b) :=
    ascending.imp fun le => decide_eq_true le
  obtain ⟨ordering, -⟩ := KeyedTable.ordering_of_perm perm ordered
  refine ⟨sorted.map EnqueuedJob.id, ?_⟩
  rw [queryDueJobs_eq s selected sized fits, fetchDueJobs, if_pos ordering]
  rfl

/-- Dashboard counts and lists: the counts of each status agree, the list of a status counts as
many jobs except for those in processing that are held, and the list of all jobs counts those of
all statuses except for the held ones.
-/
theorem dashboard_counts (s : QueueStore)
    : (∃ order, (s.countAllJobsGroupedByStatus order).isSome = true)
      ∧ (∀ order result, s.countAllJobsGroupedByStatus order = some result
        → ∀ status, result status = some (s.countJobsByStatus status))
      ∧ (∀ statuses page pageSize, 1 ≤ pageSize → (page - 1) * pageSize ≤ 2 ^ 63 - 1
        → ∃ order, (s.queryDueJobs s page pageSize statuses none order).isSome = true)
      ∧ (∀ status page pageSize order result,
          s.queryDueJobs s page pageSize [status] none order = some result
          → result.totalItems + (if status = .processing then s.countHeldJobs else 0)
            = s.countJobsByStatus status)
      ∧ ∀ page pageSize order result,
          s.queryDueJobs s page pageSize [] none order = some result
          → result.totalItems + s.countHeldJobs
            = (allStatuses.map s.countJobsByStatus).sum := by
  refine ⟨exists_groups s, fun order result grouped status => ?_,
    fun statuses page pageSize sized fits => ?_, fun status page pageSize order result listed => ?_,
    fun page pageSize order result listed => ?_⟩
  · exact countAllJobsGroupedByStatus_eq grouped status
  · exact exists_queryDueJobs s s sized fits statuses none
  · rw [totalItems_queryDueJobs listed, countDueJobs_status]
  · rw [totalItems_queryDueJobs listed, countDueJobs_all]

/-- A queued job and a locked one. -/
theorem dashboard_counts_locked
    : ∃ s log, perform step ⟨.empty, 0⟩
          [ (.insert "mail" 0 none, .answered), (.insert "mail" 5 none, .answered),
            (.lockJob 1 "a", .answered) ] = some (s, log)
        ∧ s.countHeldJobs = 1
        ∧ (∃ result, s.countAllJobsGroupedByStatus [.processing, .queued] = some result
          ∧ result .queued = some 1 ∧ result .dead = some 0)
        ∧ ∃ result, s.queryDueJobs s 1 10 [] none [2] = some result
          ∧ result.totalItems + 1 = 2 := by
  have performed :=
    show perform step ⟨.empty, 0⟩
        [ (.insert "mail" 0 none, .answered), (.insert "mail" 5 none, .answered),
          (.lockJob 1 "a", .answered) ]
      = some (_, _)
    from rfl
  obtain ⟨-, grouped, -, -, all⟩ := dashboard_counts
    ((((⟨.empty, 0⟩ : QueueStore).insert "mail" 0 none).insert "mail" 5 none).lockJob 1 "a").1
  have groups := grouped [.processing, .queued] _ rfl
  exact ⟨_, _, performed, rfl, ⟨_, rfl, (groups .queued).trans rfl, (groups .dead).trans rfl⟩,
    ⟨_, rfl, all 1 10 [2] _ rfl⟩⟩

/-- A job that has just been locked is counted in processing and left out of both lists. -/
theorem locked_job_unlisted
    : ∃ s log, perform step ⟨.empty, 0⟩
          [(.insert "mail" 0 none, .answered), (.lockJob 1 "a", .answered)] = some (s, log)
        ∧ s.countJobsByStatus .processing = 1
        ∧ (∃ result, s.countAllJobsGroupedByStatus [.processing] = some result
          ∧ result .processing = some 1)
        ∧ (∃ result, s.queryDueJobs s 1 10 [.processing] none [] = some result
          ∧ result.totalItems = 0)
        ∧ (∃ result, s.queryDueJobs s 1 10 [] none [] = some result ∧ result.totalItems = 0)
        ∧ (allStatuses.map s.countJobsByStatus).sum = 1 :=
  ⟨_, _, rfl, rfl, ⟨_, rfl, rfl⟩, ⟨_, rfl, rfl⟩, ⟨_, rfl, rfl⟩, rfl⟩

end GoFire.Store.QueueStore
