import GoFire.Foundations.TiedPages
import GoFire.Store.DueJobsQuery
import Mathlib.Data.Int.ConditionallyCompleteOrder

/-! All pages of FetchDueJobs on one table. Every call is a query of its own, and ORDER BY leaves
the order of jobs with the same scheduled_at to the database.
-/

namespace GoFire.Store.QueueStore

open GoFire.State SortedPages

/-- A result the database may give to a call of FetchDueJobs. -/
def MayAnswer (s : QueueStore) (page pageSize : Nat) (statuses : List JobStatus)
    (scheduledBefore : Option Int) (result : PaginationResult EnqueuedJob)
    : Prop :=
  ∃ order, s.fetchDueJobs page pageSize statuses scheduledBefore
      (s.countDueJobs statuses scheduledBefore) order = some result

/-- The pages up to the last one hold every matching row exactly once, and only the last one has
no next page.
-/
structure ReadInFull (rows : List EnqueuedJob) (results : Nat → PaginationResult EnqueuedJob)
    : Prop where
  items : ((List.range' 1 (results 1).totalPages).flatMap fun page => (results page).items).Perm rows
  hasNextPage : ∀ page, 1 ≤ page →
    ((results page).hasNextPage = true ↔ page < (results 1).totalPages)

variable {s : QueueStore} {statuses : List JobStatus} {scheduledBefore : Option Int}

/-- The page count rounded up. -/
def pageCount (totalItems pageSize : Nat) : Nat := (totalItems + pageSize - 1) / pageSize

theorem length_le_pageCount (totalItems : Nat) {pageSize : Nat} (sized : 1 ≤ pageSize)
    : totalItems ≤ pageCount totalItems pageSize * pageSize := by
  have rest := Nat.div_add_mod (totalItems + pageSize - 1) pageSize
  have small := Nat.mod_lt (totalItems + pageSize - 1) sized
  rw [pageCount, Nat.mul_comm]
  omega

/-- The offset of a page is a number of rows that were counted. -/
theorem offset_lt_totalItems {totalItems page pageSize : Nat} (sized : 1 ≤ pageSize)
    (first : 1 ≤ page) (last : page ≤ pageCount totalItems pageSize)
    : (page - 1) * pageSize < totalItems := by
  have whole := (Nat.le_div_iff_mul_le sized).mp last
  have next : (page - 1) * pageSize + pageSize = page * pageSize := page_end first
  omega

/-- So the offset of none of these pages overflows. -/
theorem queryDueJobs_page (s : QueueStore) {page pageSize : Nat} (sized : 1 ≤ pageSize)
    (statuses : List JobStatus) (scheduledBefore : Option Int) (first : 1 ≤ page)
    (last : page ≤ pageCount (s.countDueJobs statuses scheduledBefore) pageSize)
    (counted : (s.countDueJobs statuses scheduledBefore : Int) ≤ 2 ^ 63 - 1) (order : List Nat)
    : s.queryDueJobs s page pageSize statuses scheduledBefore order
      = s.fetchDueJobs page pageSize statuses scheduledBefore
          (s.countDueJobs statuses scheduledBefore) order := by
  have offset := offset_lt_totalItems sized first last
  have cast : ((page : Int) - 1) * pageSize = ((page - 1) * pageSize : Nat) := by
    rw [Nat.cast_mul, Nat.cast_sub first, Nat.cast_one]
  exact queryDueJobs_eq s s (by omega) (by omega) statuses scheduledBefore order

/-- The database answers with a page of any sorting of the matching rows. -/
theorem mayAnswer_iff {page pageSize : Nat} {result : PaginationResult EnqueuedJob}
    : s.MayAnswer page pageSize statuses scheduledBefore result
      ↔ ∃ sorted, Sorting EnqueuedJob.scheduledAt (s.dueRows statuses scheduledBefore) sorted
        ∧ result = paginate (SortedPages.page pageSize (max page 1) sorted)
            (s.dueRows statuses scheduledBefore).length (max page 1) pageSize := by
  have total : s.countDueJobs statuses scheduledBefore
      = (s.dueRows statuses scheduledBefore).length := by
    rw [← filter_isDue, ← List.countP_eq_length_filter]
    rfl
  constructor
  · intro h
    obtain ⟨order, answered⟩ := h
    simp only [fetchDueJobs] at answered
    split at answered
    case isFalse => cases answered
    case isTrue ordering =>
      cases answered
      obtain ⟨perm, ascending⟩ := KeyedTable.perm_of_ordering ordering
      rw [filter_isDue] at perm
      refine ⟨_, ⟨perm, by simpa using ascending⟩, ?_⟩
      rw [← total]
      rfl
  · intro h
    obtain ⟨sorted, sorting, rfl⟩ := h
    have perm := sorting.perm
    rw [← filter_isDue] at perm
    have ascending : sorted.Pairwise
        (fun a b => (decide (a.scheduledAt ≤ b.scheduledAt) : Bool) = true) := by
      simpa using sorting.ascending
    obtain ⟨ordering, listed⟩ := KeyedTable.ordering_of_perm perm ascending
    refine ⟨sorted.map EnqueuedJob.id, ?_⟩
    rw [fetchDueJobs, if_pos ordering, KeyedTable.select, listed, total]
    rfl

theorem nodup_dueRows (s : QueueStore) (statuses : List JobStatus) (scheduledBefore : Option Int)
    : (s.dueRows statuses scheduledBefore).Nodup :=
  (List.Nodup.of_map _ s.jobs.unique).filter _

/-- The pages of an unchanged table, read by queries at any instants at which the same rows match,
hold every matching row exactly once whatever the database makes of equal times, if and only if no
page boundary falls between jobs of the same time.
-/
theorem pages_partition_iff (table : KeyedTable EnqueuedJob EnqueuedJob.id) (instants : Nat → Int)
    {pageSize : Nat} (sized : 1 ≤ pageSize) (statuses : List JobStatus)
    (scheduledBefore : Option Int)
    (same : ∀ page, dueRows ⟨table, instants page⟩ statuses scheduledBefore
      = dueRows ⟨table, instants 1⟩ statuses scheduledBefore)
    : (∀ results : Nat → PaginationResult EnqueuedJob,
        (∀ page, MayAnswer ⟨table, instants page⟩ page pageSize statuses scheduledBefore
          (results page))
        → ReadInFull (dueRows ⟨table, instants 1⟩ statuses scheduledBefore) results)
      ↔ ∀ page, Unsplit EnqueuedJob.scheduledAt
          (dueRows ⟨table, instants 1⟩ statuses scheduledBefore) (page * pageSize) := by
  rw [← pages_perm_iff (nodup_dueRows _ _ _) sized (length_le_pageCount _ sized)]
  constructor
  · intro inFull sortings allowed
    have read := (inFull
      (fun page => paginate (SortedPages.page pageSize (max page 1) (sortings (max page 1)))
        (dueRows ⟨table, instants 1⟩ statuses scheduledBefore).length (max page 1) pageSize)
      (by
        intro page
        refine mayAnswer_iff.mpr ⟨sortings (max page 1), ?_, ?_⟩
        · rw [same]
          exact allowed _
        · rw [same page])).items
    refine (List.Perm.of_eq ?_).trans read
    apply List.flatMap_congr
    intro page mem
    rw [Nat.max_eq_left (List.mem_range'_1.mp mem).1]
    rfl
  · intro partition results answers
    have answered (page : Nat) := mayAnswer_iff.mp (answers page)
    simp only [same] at answered
    choose sortings allowed answered using answered
    have pages (page : Nat) : (results page).totalPages
        = pageCount (dueRows ⟨table, instants 1⟩ statuses scheduledBefore).length pageSize := by
      rw [answered page]
      rfl
    constructor
    · refine (List.Perm.of_eq ?_).trans (partition sortings allowed)
      rw [pages]
      apply List.flatMap_congr
      intro page mem
      rw [answered page, Nat.max_eq_left (List.mem_range'_1.mp mem).1]
      rfl
    · intro page first
      rw [pages, ← pages page, answered page, Nat.max_eq_left first]
      exact decide_eq_true_iff

/-- Two jobs of different times on two pages, the second one read a minute later. -/
theorem pages_partition_iff_differentTimes
    : let s := ((⟨.empty, 0⟩ : QueueStore).insert "mail" 5 none).insert "report" 3 none
      let instants := fun page : Nat => (page : Int) * 60000000000
      ∀ results : Nat → PaginationResult EnqueuedJob,
        (∀ page, MayAnswer ⟨s.jobs, instants page⟩ page 1 [] none (results page))
        → ReadInFull (dueRows ⟨s.jobs, instants 1⟩ [] none) results := by
  intro s instants
  have rows (now : Int) : dueRows ⟨s.jobs, now⟩ [] none = s.jobs.rows := by
    rw [← filter_isDue]
    rfl
  refine (pages_partition_iff s.jobs instants le_rfl [] none ?_).mpr ?_
  · intro page
    rw [rows, rows]
  · intro page
    apply unsplit_of_distinct
    rw [rows]
    decide

/-- Of two jobs of the same time, one can be on both pages of one job. -/
theorem pages_repeat_a_job
    : let s := ((⟨.empty, 0⟩ : QueueStore).insert "mail" 5 none).insert "report" 5 none
      ¬ ∀ results : Nat → PaginationResult EnqueuedJob,
        (∀ page, s.MayAnswer page 1 [.queued] none (results page))
        → ReadInFull (s.dueRows [.queued] none) results := by
  intro s inFull
  let answer := fun (order : List Nat) (page : Nat) =>
    paginate (s.jobs.select order ((max page 1 - 1) * 1) 1) 2 (max page 1) 1
  have first (page : Nat) : s.MayAnswer page 1 [.queued] none (answer [1, 2] page) :=
    ⟨[1, 2], rfl⟩
  have second (page : Nat) : s.MayAnswer page 1 [.queued] none (answer [2, 1] page) :=
    ⟨[2, 1], rfl⟩
  have read := inFull (fun page => if page = 2 then answer [2, 1] page else answer [1, 2] page) (by
    intro page
    by_cases h : page = 2
    · simpa only [h, if_true] using second 2
    · simpa only [h, if_false] using first page)
  have ids : [1, 1].Perm [1, 2] := read.items.map EnqueuedJob.id
  revert ids
  decide

end GoFire.Store.QueueStore
