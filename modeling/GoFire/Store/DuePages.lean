import GoFire.Foundations.SortedPages
import GoFire.Store.CronRows
import Mathlib.Data.Int.ConditionallyCompleteOrder
import Mathlib.Data.Prod.Lex
import Mathlib.Order.WithBot

/-! The result set of FetchDueCronJobs read page by page, when the database returns rows with
equal next_run_at in the order of a fixed rank of their keys.
-/

namespace GoFire.Store.CronStore

section

variable {β : Type*} [LinearOrder β] (rank : Nat → β)

/-- ORDER BY next_run_at ASC NULLS FIRST with the ties broken by the rank. -/
def inFront (a b : CronJob) : Bool :=
  nextRunLe a b && (!nextRunLe b a || decide (rank a.id < rank b.id))

/-- The number of rows of the result set in front of a row. -/
def position (s : CronStore) (row : CronJob) : Nat :=
  s.jobs.affected (fun other => s.isFetched other && inFront rank other row)

/-- NULL comes before every time. -/
def nextRunKey (job : CronJob) : WithBot Int := job.nextRunAt

/-- What the rows are sorted by. -/
def sortKey (job : CronJob) : WithBot Int ×ₗ β := toLex (nextRunKey job, rank job.id)

end

variable {β : Type*} [LinearOrder β] {rank : Nat → β} {s s' : CronStore} {a b row : CronJob}

theorem nextRunLe_iff : nextRunLe a b = true ↔ nextRunKey a ≤ nextRunKey b := by
  cases nextA : a.nextRunAt with
  | none =>
      have keyA : nextRunKey a = ⊥ := nextA
      simp [nextRunLe, nextA, keyA]
  | some next =>
      have keyA : nextRunKey a = next := nextA
      cases nextB : b.nextRunAt with
      | none =>
          have keyB : nextRunKey b = ⊥ := nextB
          simp [nextRunLe, nextA, nextB, keyA, keyB]
      | some next' =>
          have keyB : nextRunKey b = next' := nextB
          simp [nextRunLe, nextA, nextB, keyA, keyB]

theorem inFront_iff : inFront rank a b = true ↔ sortKey rank a < sortKey rank b := by
  rw [inFront, Bool.and_eq_true, Bool.or_eq_true, Bool.not_eq_true', ← Bool.not_eq_true,
    nextRunLe_iff, nextRunLe_iff, decide_eq_true_iff, sortKey, sortKey, Prod.Lex.toLex_lt_toLex]
  constructor
  · intro h
    obtain ⟨le, later | tie⟩ := h
    · exact Or.inl (lt_of_not_ge later)
    · rcases le.lt_or_eq with lt | same
      · exact Or.inl lt
      · exact Or.inr ⟨same, tie⟩
  · intro h
    rcases h with lt | ⟨same, tie⟩
    · exact ⟨lt.le, Or.inl lt.not_ge⟩
    · exact ⟨same.le, Or.inr tie⟩

/-- The order looks at the key and the next run of a row only. -/
theorem inFront_congr (sameKey : a.id = b.id) (sameRun : a.nextRunAt = b.nextRunAt)
    (other : CronJob)
    : inFront rank other a = inFront rank other b := by
  simp only [inFront, nextRunLe, sameKey, sameRun]

theorem position_congr (sameKey : a.id = b.id) (sameRun : a.nextRunAt = b.nextRunAt)
    : s.position rank a = s.position rank b := by
  simp only [position, inFront_congr sameKey sameRun]

theorem position_eq (s : CronStore) (row : CronJob)
    : s.position rank row
      = SortedPages.position (sortKey rank) (s.jobs.rows.filter s.isFetched) row := by
  rw [position, SortedPages.position, KeyedTable.affected, List.countP_filter]
  apply List.countP_congr
  intro other _
  rw [Bool.and_eq_true, Bool.and_eq_true, decide_eq_true_iff, inFront_iff, and_comm]

omit [LinearOrder β] in
theorem sortKey_nodup (distinct : Function.Injective rank) (s : CronStore)
    : ((s.jobs.rows.filter s.isFetched).map (sortKey rank)).Nodup := by
  have keys : ((s.jobs.rows.filter s.isFetched).map CronJob.id).Nodup :=
    s.jobs.unique.sublist (List.filter_sublist.map _)
  refine List.pairwise_map.mpr ((List.pairwise_map.mp keys).imp fun different same => ?_)
  exact different (distinct (congrArg (fun key => (ofLex key).2) same))

/-- A row of the result set stands among the rows that the count query counts. -/
theorem position_lt_countDueCronJobs (found : s.jobs.get? row.id = some row)
    (fetched : s.isFetched row = true)
    : s.position rank row < s.countDueCronJobs := by
  have mem := List.mem_filter.mpr ⟨KeyedTable.mem_of_get? found, fetched⟩
  have inside := SortedPages.position_lt_length (sortKey rank) mem
  rwa [← position_eq, ← List.countP_eq_length_filter] at inside

/-- A row is among the items of the page of its position, unless its next_run_at is NULL. -/
theorem mem_fetchDueCronJobs {page pageSize totalItems : Nat} {order : List Nat}
    {result : PaginationResult CronJob}
    (read : s.fetchDueCronJobs (page + 1) pageSize totalItems order = some result)
    (stable : (order.filterMap s.jobs.get?).Pairwise (fun a b => inFront rank a b))
    (found : s.jobs.get? row.id = some row) (fetched : s.isFetched row = true)
    (scannable : row.nextRunAt.isSome = true) (reached : page * pageSize ≤ s.position rank row)
    (inside : s.position rank row < (page + 1) * pageSize)
    : row ∈ result.items := by
  simp only [fetchDueCronJobs] at read
  split at read
  case isFalse => cases read
  case isTrue ordering =>
    cases read
    obtain ⟨perm, -⟩ := KeyedTable.perm_of_ordering ordering
    have ascending := stable.imp inFront_iff.mp
    have mem := perm.mem_iff.mpr
      (List.mem_filter.mpr ⟨KeyedTable.mem_of_get? found, fetched⟩)
    rw [position_eq, ← SortedPages.position_perm perm] at reached inside
    rw [Nat.succ_mul] at inside
    refine List.mem_filter.mpr ⟨?_, scannable⟩
    rw [KeyedTable.select, Nat.max_eq_left (Nat.le_add_left 1 page), Nat.add_sub_cancel]
    exact SortedPages.mem_page ascending mem reached inside

/-- There is a next page when the counted rows do not fit on the pages up to this one. -/
theorem fetchDueCronJobs_hasNextPage {page pageSize totalItems : Nat} {order : List Nat}
    {result : PaginationResult CronJob}
    (read : s.fetchDueCronJobs (page + 1) pageSize totalItems order = some result)
    (batch : 1 ≤ pageSize) (rest : (page + 1) * pageSize < totalItems)
    : result.hasNextPage = true := by
  simp only [fetchDueCronJobs] at read
  split at read
  case isFalse => cases read
  case isTrue =>
    cases read
    rw [paginate, Nat.max_eq_left (Nat.le_add_left 1 page), decide_eq_true_iff,
      Nat.lt_iff_add_one_le, Nat.le_div_iff_mul_le batch, Nat.succ_mul]
    omega

-----------------------------------------------------------------------------------------
-- How the result set changes
-----------------------------------------------------------------------------------------

/-- A row that no statement changes stays in the result set as time goes by. -/
theorem isFetched_later (later : s.now ≤ s'.now) (fetched : s.isFetched row = true)
    : s'.isFetched row = true := by
  rw [isFetched, Bool.or_eq_true, Bool.and_eq_true] at fetched ⊢
  rcases fetched with ⟨active, due⟩ | pending
  · exact Or.inl ⟨active, isDueAt_later due later rfl⟩
  · apply Or.inr
    simp only [isPending, Bool.or_eq_true, Bool.and_eq_true, decide_eq_true_eq,
      Option.any_eq_true] at pending ⊢
    refine pending.imp_right fun ⟨processing, lockedAt, locked, stale⟩ => ?_
    exact ⟨processing, lockedAt, locked, by omega⟩

/-- A row stays at or behind position `n` while the first `n` rows stay in front of it. -/
theorem position_kept (distinct : Function.Injective rank)
    (found : s.jobs.get? row.id = some row) (fetched : s.isFetched row = true) {n : Nat}
    (behind : n ≤ s.position rank row)
    (stay : ∀ other ∈ s.jobs.rows, s.isFetched other = true → inFront rank other row = true →
      s.position rank other < n →
      (s'.jobs.get? other.id).any (fun o => s'.isFetched o && inFront rank o row) = true)
    : n ≤ s'.position rank row := by
  rw [position_eq] at behind
  have mem := List.mem_filter.mpr ⟨KeyedTable.mem_of_get? found, fetched⟩
  obtain ⟨first, rfl, once, early⟩ :=
    SortedPages.exists_first (sortKey_nodup distinct s) mem behind
  have keys : (first.map CronJob.id).Nodup := by
    apply once.map_on
    intro o inFirst o' inFirst' same
    exact KeyedTable.eq_of_key (List.mem_of_mem_filter (early o inFirst).1)
      (List.mem_of_mem_filter (early o' inFirst').1) same
  rw [← List.length_map (f := CronJob.id)]
  apply KeyedTable.length_le_affected keys
  intro k listed
  obtain ⟨other, inFirst, rfl⟩ := List.mem_map.mp listed
  obtain ⟨inSet, before, place⟩ := early other inFirst
  obtain ⟨inRows, otherFetched⟩ := List.mem_filter.mp inSet
  rw [← position_eq] at place
  exact stay other inRows otherFetched (inFront_iff.mpr before) place

/-- A row does not move back while no row comes in front of it. -/
theorem position_le
    (noNew : ∀ other ∈ s'.jobs.rows, s'.isFetched other = true → inFront rank other row = true →
      (s.jobs.get? other.id).any (fun o => s.isFetched o && inFront rank o row) = true)
    : s'.position rank row ≤ s.position rank row := by
  have keys : ((s'.jobs.rows.filter
      (fun other => s'.isFetched other && inFront rank other row)).map CronJob.id).Nodup :=
    s'.jobs.unique.sublist (List.filter_sublist.map _)
  rw [position, KeyedTable.affected, List.countP_eq_length_filter,
    ← List.length_map (f := CronJob.id)]
  apply KeyedTable.length_le_affected keys
  intro k listed
  obtain ⟨other, kept, rfl⟩ := List.mem_map.mp listed
  obtain ⟨inRows, both⟩ := List.mem_filter.mp kept
  rw [Bool.and_eq_true] at both
  exact noNew other inRows both.1 both.2

end GoFire.Store.CronStore
