import GoFire.Foundations.UniqueColumn
import GoFire.Store.CronJobStore

/-! The cron jobs by their names, which are unique: what AddOrUpdate writes. -/

namespace GoFire.Store.CronStore

/-- The row that AddOrUpdate leaves under its name. -/
def written (s : CronStore) (jobName : String) (scheduledAt : Int) (expression : String)
    (args : Args) : CronJob :=
  match s.jobs.lookup CronJob.name jobName with
  | some old =>
      { old with nextRunAt := some scheduledAt, payload := marshalArgs args, expression }
  | none => newJob jobName scheduledAt expression (marshalArgs args) s.now s.jobs.nextKey

/-- AddOrUpdate is seen under its name only, and returns the key of the row that it leaves there. -/
theorem lookup_written (s : CronStore) (jobName : String) (scheduledAt : Int)
    (expression : String) (args : Args)
    : (∀ name, (s.addOrUpdate jobName scheduledAt expression args).1.jobs.lookup CronJob.name name
        = if name = jobName then some (s.written jobName scheduledAt expression args)
          else s.jobs.lookup CronJob.name name)
      ∧ (s.addOrUpdate jobName scheduledAt expression args).2
        = (s.written jobName scheduledAt expression args).id := by
  cases found : s.jobs.rows.find? (fun job => job.name = jobName) with
  | some old =>
      have looked : s.jobs.lookup CronJob.name jobName = some old := found
      simp only [addOrUpdate, found, written, looked]
      refine ⟨fun name => ?_, trivial⟩
      exact KeyedTable.lookup_update_found looked (by intro; rfl) (by intro; rfl) name
  | none =>
      have looked : s.jobs.lookup CronJob.name jobName = none := found
      simp only [addOrUpdate, found, written, looked]
      refine ⟨fun name => ?_, rfl⟩
      exact KeyedTable.lookup_insert (fun _ => rfl) looked name

/-- Names stay distinct. -/
theorem distinct_addOrUpdate {s : CronStore} (distinct : s.jobs.Distinct CronJob.name)
    (jobName : String) (scheduledAt : Int) (expression : String) (args : Args)
    : (s.addOrUpdate jobName scheduledAt expression args).1.jobs.Distinct CronJob.name := by
  cases found : s.jobs.rows.find? (fun job => job.name = jobName) with
  | some old =>
      simp only [addOrUpdate, found]
      exact distinct.update _ (by intro; rfl) (by intro; rfl)
  | none =>
      have looked : s.jobs.lookup CronJob.name jobName = none := found
      simp only [addOrUpdate, found]
      exact distinct.insert (by intro; rfl) looked

end GoFire.Store.CronStore
