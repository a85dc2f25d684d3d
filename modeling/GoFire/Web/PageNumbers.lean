import GoFire.CronParser.Int64Fields
import GoFire.Store.CronJobsQuery

/-! The page number of a dashboard request on its way to the OFFSET of the lists of enqueued jobs
and cron jobs. Both clamp it from below; neither looks at its upper end, where the product with
the page size wraps.
-/

namespace GoFire.Web

open GoFire.State GoFire.Store
open GoFire.CronParser (Text atoi int64)

/-- The parameters of a query string, in their order. -/
abbrev Values := List (Text × Text)

/-- The first value of a key, or the empty text. -/
def Values.get (values : Values) (key : Text) : Text :=
  ((values.find? (fun param => param.1 = key)).map Prod.snd).getD []

/-- strconv.ParseInt with base 10 and 64 bits reads what Atoi reads. -/
def parseInt (text : Text) : Option Int := int64.atoi text

def getPageNumber (values : Values) : Int :=
  match parseInt (values.get "page".toList) with
  | none => 1
  | some pageNumber => if pageNumber < 1 then 1 else pageNumber

def pageSize : Int := 15

/-- The queries of handleEnqueued, for the status of the request, if it has one. -/
def enqueuedQueries (values : Values) (status : Option JobStatus) : DueQueries :=
  .build (getPageNumber values) pageSize status.toList none

/-- The queries of handleCronJobs. -/
def cronQueries (values : Values) (status : Option JobStatus) : AllQueries :=
  .build (getPageNumber values) pageSize status

/-- The page of enqueued jobs, unless the fetch returns an error. -/
def enqueuedPage (counted selected : QueueStore) (values : Values) (status : Option JobStatus)
    (order : List Nat)
    : Option (PaginationResult EnqueuedJob) :=
  counted.queryDueJobs selected (getPageNumber values) pageSize status.toList none order

/-- The page of cron jobs, unless the fetch returns an error. -/
def cronPage (counted selected : CronStore) (values : Values) (status : Option JobStatus)
    (order : List Nat)
    : Option (PaginationResult CronJob) :=
  counted.getAll selected (getPageNumber values) pageSize status order

-----------------------------------------------------------------------------------------
-- Page numbers
-----------------------------------------------------------------------------------------

theorem pageSize_pos : 0 < pageSize := by decide

theorem getPageNumber_pos (values : Values) : 1 ≤ getPageNumber values := by
  unfold getPageNumber
  split
  case h_1 => exact le_rfl
  case h_2 => split <;> omega

/-- A positive number within Go's integers goes through. -/
theorem getPageNumber_of_atoi {values : Values} {n : Int}
    (read : atoi (values.get "page".toList) = some n) (positive : 1 ≤ n) (fits : n ≤ 2 ^ 63 - 1)
    : getPageNumber values = n := by
  have parsed : parseInt (values.get "page".toList) = some n :=
    (CronParser.int64_reads _ _).mpr ⟨read, by omega, fits⟩
  rw [getPageNumber, parsed]
  exact if_neg (not_lt.mpr positive)

/-- Everything else is the first page. -/
theorem getPageNumber_cases (values : Values)
    : getPageNumber values = 1
      ∨ (atoi (values.get "page".toList) = some (getPageNumber values)
        ∧ getPageNumber values ≤ 2 ^ 63 - 1) := by
  cases parsed : parseInt (values.get "page".toList) with
  | none =>
      rw [getPageNumber, parsed]
      exact Or.inl rfl
  | some n =>
      obtain ⟨read, -, fits⟩ := (CronParser.int64_reads _ _).mp parsed
      by_cases positive : 1 ≤ n
      · rw [getPageNumber_of_atoi read positive fits]
        exact Or.inr ⟨read, fits⟩
      · rw [getPageNumber, parsed]
        exact Or.inl (if_pos (not_le.mp positive))

-----------------------------------------------------------------------------------------
-- Offsets
-----------------------------------------------------------------------------------------

/-- The argument of an OFFSET skips exactly the rows of the pages before. -/
def Skips (page : Int) (argument : Option Argument) : Prop :=
  ∃ offset, argument = some (.int offset) ∧ offset = (page - 1) * pageSize ∧ 0 ≤ offset

/-- The placeholders of OFFSET in both lists stand for such an argument. -/
def OffsetsExact (values : Values) (status : Option JobStatus) : Prop :=
  Skips (getPageNumber values)
      (argument (enqueuedQueries values status).args (enqueuedQueries values status).offset)
    ∧ Skips (getPageNumber values)
        (argument (cronQueries values status).args (cronQueries values status).offset)

/-- The last page whose offset is one of Go's integers. -/
def lastExactPage : Int := (2 ^ 63 - 1) / pageSize + 1

example : lastExactPage = 614891469123651721 := by decide

theorem offset_fits_iff {page : Int}
    : (page - 1) * pageSize ≤ 2 ^ 63 - 1 ↔ page ≤ lastExactPage := by
  rw [← Int.le_ediv_iff_mul_le pageSize_pos, sub_le_iff_le_add, lastExactPage]

/-- The clamp of the stores comes after that of the handlers and changes nothing. -/
theorem pageOf_getPageNumber (values : Values)
    : DueQueries.pageOf (getPageNumber values) = getPageNumber values :=
  if_neg (not_lt.mpr (getPageNumber_pos values))

theorem skips_offsetOf_iff (values : Values)
    : Skips (getPageNumber values)
        (some (.int (DueQueries.offsetOf (getPageNumber values) pageSize)))
      ↔ getPageNumber values ≤ lastExactPage := by
  have exact := DueQueries.offsetOf_exact_iff (getPageNumber values) pageSize pageSize_pos
  rw [pageOf_getPageNumber, offset_fits_iff] at exact
  rw [← exact]
  constructor
  · intro skips
    obtain ⟨offset, same, skipped, nonneg⟩ := skips
    cases same
    exact ⟨skipped, nonneg⟩
  · intro both
    exact ⟨_, rfl, both⟩

theorem offsetsExact_iff_page (values : Values) (status : Option JobStatus)
    : OffsetsExact values status ↔ getPageNumber values ≤ lastExactPage := by
  rw [OffsetsExact, enqueuedQueries, cronQueries,
    (DueQueries.build_window _ _ status.toList none).2, (AllQueries.build_window _ _ status).2,
    and_self, skips_offsetOf_iff]

/-- With an exact offset the lists show the rows behind all earlier pages. -/
theorem pages_of_exact {values : Values} (early : getPageNumber values ≤ lastExactPage)
    (status : Option JobStatus) (order : List Nat)
    : (∀ counted selected : QueueStore,
        enqueuedPage counted selected values status order
          = selected.fetchDueJobs (getPageNumber values).toNat pageSize.toNat status.toList none
              (counted.countDueJobs status.toList none) order)
      ∧ ∀ counted selected : CronStore,
        cronPage counted selected values status order
          = if selected.jobs.Ordering (CronStore.isListed status) CronStore.createdAtGe order then
              some (paginate
                ((selected.jobs.select order ((getPageNumber values - 1) * pageSize).toNat
                  pageSize.toNat).filter (fun job => job.nextRunAt.isSome))
                (counted.jobs.affected (CronStore.isListed status)) (getPageNumber values).toNat
                pageSize.toNat)
            else none := by
  have fits := offset_fits_iff.mpr early
  constructor
  · intro counted selected
    exact QueueStore.queryDueJobs_eq counted selected pageSize_pos fits status.toList none order
  · intro counted selected
    rw [cronPage, CronStore.getAll_eq counted selected pageSize_pos fits, pageOf_getPageNumber]

/-- Both offsets are exact and not negative if and only if the parameter is no number from behind
the last exact page to the end of Go's integers.
-/
theorem offsets_exact_iff (values : Values) (status : Option JobStatus)
    : OffsetsExact values status
      ↔ ∀ n, atoi (values.get "page".toList) = some n → n ≤ lastExactPage ∨ 2 ^ 63 ≤ n := by
  rw [offsetsExact_iff_page]
  have first : 1 ≤ lastExactPage := by decide
  constructor
  · intro early n read
    by_contra behind
    rw [not_or, not_le, not_le] at behind
    rw [getPageNumber_of_atoi read (by omega) (by omega)] at early
    omega
  · intro condition
    rcases getPageNumber_cases values with clamped | ⟨read, fits⟩
    · rw [clamped]
      exact first
    · rcases condition _ read with early | late
      · exact early
      · omega

/-- The first page behind the last exact one: the offset wraps below zero, and neither list is
fetched.
-/
theorem wrapped_offset
    : let values : Values := [("page".toList, "614891469123651722".toList)]
      getPageNumber values = 614891469123651722
      ∧ (614891469123651722 - 1) * pageSize = 9223372036854775815
      ∧ argument (enqueuedQueries values none).args (enqueuedQueries values none).offset
        = some (.int (-9223372036854775801))
      ∧ argument (cronQueries values none).args (cronQueries values none).offset
        = some (.int (-9223372036854775801))
      ∧ ¬ OffsetsExact values none
      ∧ (∀ counted selected order, enqueuedPage counted selected values none order = none)
      ∧ ∀ counted selected order, cronPage counted selected values none order = none := by
  intro values
  have page : getPageNumber values = 614891469123651722 := by decide +kernel
  have wrapped : DueQueries.offsetOf (getPageNumber values) pageSize = -9223372036854775801 := by
    rw [page]
    decide
  have negative : DueQueries.offsetOf (getPageNumber values) pageSize < 0 := by
    rw [wrapped]
    decide
  refine ⟨page, rfl, ?_, ?_, ?_, fun counted selected order => ?_,
    fun counted selected order => ?_⟩
  · rw [← wrapped]
    exact (DueQueries.build_window _ _ _ _).2
  · rw [← wrapped]
    exact (AllQueries.build_window _ _ _).2
  · rw [offsetsExact_iff_page, page]
    decide
  · exact counted.queryDueJobs_negative selected pageSize_pos negative [] none order
  · exact counted.getAll_negative selected pageSize_pos negative none order

end GoFire.Web
