import GoFire.JobManager.Periods
import GoFire.Store.CronJobNames

/-! ScheduleEveryMinute to ScheduleEveryYear. Each schedules its job twice, and other processes may
change the table between the two statements.
-/

namespace GoFire.JobManager

open GoFire.CronParser GoFire.GoTime GoFire.Store

/-- What a call of addOrUpdate meets: a reading of the clock and how its statement ends. -/
structure Attempt where
  readAt : Time
  delivery : Delivery

/-- The table after addOrUpdate, and the key unless there was an error. -/
def addOrUpdate (s : CronStore) (jobName expression : String) (args : Args) (attempt : Attempt)
    : CronStore × Option Nat :=
  let scheduledAt := calculateNextRun int64 expression attempt.readAt
  let (written, jobID) := s.addOrUpdate jobName scheduledAt.ns expression args
  match attempt.delivery with
  | .answered => (written, some jobID)
  | .refused => (s, none)
  | .lost => (written, none)

def schedule (s : CronStore) (jobName expression : String) (args : Args) (attempt : Attempt)
    : CronStore × Option Nat :=
  addOrUpdate s jobName expression args attempt

/-- The common text of the ScheduleEvery methods: after an error the second call is not made. -/
def scheduleEvery (expression : String) (s : CronStore) (jobName : String) (args : Args)
    (first second : Attempt) (others : CronStore → CronStore)
    : CronStore × Option Nat :=
  match addOrUpdate s jobName expression args first with
  | (s, none) => (s, none)
  | (s, some _) => schedule (others s) jobName expression args second

def scheduleEveryMinute := scheduleEvery "* * * * *"
def scheduleEveryHour := scheduleEvery "0 * * * *"
def scheduleEveryDay := scheduleEvery "0 0 * * *"
def scheduleEveryWeek := scheduleEvery "0 0 * * 0"
def scheduleEveryMonth := scheduleEvery "0 0 1 * *"
def scheduleEveryYear := scheduleEvery "0 0 1 1 *"

/-- The method for a period. -/
def Period.schedule : Period → CronStore → String → Args → Attempt → Attempt
    → (CronStore → CronStore) → CronStore × Option Nat
  | .minute => scheduleEveryMinute
  | .hour => scheduleEveryHour
  | .day => scheduleEveryDay
  | .week => scheduleEveryWeek
  | .month => scheduleEveryMonth
  | .year => scheduleEveryYear

theorem Period.schedule_eq (period : Period)
    : period.schedule = scheduleEvery period.expression := by
  cases period <;> rfl

/-- AddOrUpdate writes the row of its name and no other. -/
theorem lookup_addOrUpdate (s : CronStore) (jobName : String) (scheduledAt : Int)
    (expression : String) (args : Args)
    : (∃ row, (s.addOrUpdate jobName scheduledAt expression args).1.jobs.lookup CronJob.name jobName
          = some row
        ∧ row.id = (s.addOrUpdate jobName scheduledAt expression args).2
        ∧ row.nextRunAt = some scheduledAt ∧ row.expression = expression
        ∧ row.payload = marshalArgs args)
      ∧ ∀ name ≠ jobName,
        (s.addOrUpdate jobName scheduledAt expression args).1.jobs.lookup CronJob.name name
          = s.jobs.lookup CronJob.name name := by
  obtain ⟨written, keyed⟩ := s.lookup_written jobName scheduledAt expression args
  refine ⟨⟨_, (written jobName).trans (if_pos rfl), keyed.symm, ?_⟩,
    fun name other => (written name).trans (if_neg other)⟩
  unfold CronStore.written
  split
  case h_1 => exact ⟨rfl, rfl, rfl⟩
  case h_2 => exact ⟨rfl, rfl, rfl⟩

/-- A call of addOrUpdate that returns a key was made by an answered statement. -/
theorem addOrUpdate_some {s after : CronStore} {jobName expression : String} {args : Args}
    {attempt : Attempt} {key : Nat}
    (h : addOrUpdate s jobName expression args attempt = (after, some key))
    : s.addOrUpdate jobName (calculateNextRun int64 expression attempt.readAt).ns expression args
      = (after, key) := by
  unfold addOrUpdate at h
  cases delivery : attempt.delivery with
  | answered =>
      simp only [delivery, Prod.mk.injEq, Option.some.injEq] at h
      exact Prod.ext h.1 h.2
  | refused =>
      simp only [delivery, Prod.mk.injEq] at h
      cases h.2
  | lost =>
      simp only [delivery, Prod.mk.injEq] at h
      cases h.2

end GoFire.JobManager
