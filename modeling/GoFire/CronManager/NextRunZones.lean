import GoFire.CronParser.ForwardPasses
import GoFire.GoTime.Rfc3339
import GoFire.Store.CronRows

/-! The zones that a next run passes through on its way to the column next_run_at and back. The
column is a TIMESTAMP, those for all other instants the scheduler compares are TIMESTAMPTZ. The
microseconds that the columns are rounded to are left out.
-/

namespace GoFire.CronManager

open GoFire.GoTime (Time fixedZone)
open GoFire.Store GoFire.CronParser

/-- A time as the driver sends it: the local timestamp and its UTC offset in seconds. -/
structure SentTime where
  wall : Int
  offset : Int

def send (t : Time) : SentTime := ⟨t.wall, t.offset⟩

namespace SentTime

/-- A TIMESTAMP column drops the offset. -/
def timestamp (sent : SentTime) : Int := sent.wall

/-- A TIMESTAMPTZ column takes the instant. -/
def timestamptz (sent : SentTime) : Int := sent.wall - sent.offset * GoTime.second

end SentTime

/-- The instant that a TIMESTAMP column is compared as: its wall clock in the zone of the session.
-/
def readInSession (session timestamp : Int) : Int :=
  (Time.ofWall timestamp (fixedZone session)).ns

/-- A TIMESTAMPTZ column gives back every instant, in whatever location it was sent. -/
theorem timestamptz_send (t : Time) : (send t).timestamptz = t.ns := by
  simp only [send, SentTime.timestamptz, Time.wall, Time.offset]
  omega

/-- A TIMESTAMP column gives it back moved by the offset of the zone against the session's. -/
theorem readInSession_send (session offset : Int) {t : Time} (zone : t.loc = fixedZone offset)
    : readInSession session (send t).timestamp = t.ns + (offset - session) * GoTime.second := by
  obtain ⟨ns, loc⟩ := t
  obtain rfl : loc = fixedZone offset := zone
  rw [readInSession, Time.ofWall_fixedZone, SentTime.timestamp, send, Time.wall_fixedZone]
  show ns + offset * GoTime.second - session * GoTime.second = _
  rw [sub_mul]
  exact (add_sub_assoc _ _ _)

-----------------------------------------------------------------------------------------
-- The statements that write next_run_at
-----------------------------------------------------------------------------------------

variable (s : CronStore) (session : Int)

/-- AddOrUpdate in a session with the given UTC offset. -/
def addOrUpdate (jobName : String) (scheduledAt : Time) (expression : String) (args : Args)
    : CronStore × Nat :=
  s.addOrUpdate jobName (readInSession session (send scheduledAt).timestamp) expression args

/-- UpdateJobRunTimes in such a session. -/
def updateJobRunTimes (jobID : Nat) (lastRunAt nextRunAt : Time) : CronStore :=
  s.updateJobRunTimes jobID (readInSession session (send lastRunAt).timestamp)
    (readInSession session (send nextRunAt).timestamp)

/-- The condition on next_run_at becomes true for the row exactly at the instant. -/
def DueFrom (s : CronStore) (jobID : Nat) (instant : Int) : Prop :=
  ∃ job, s.jobs.get? jobID = some job
    ∧ ∀ now, CronStore.isDueAt now job = true ↔ instant ≤ now

theorem dueFrom_iff {s : CronStore} {jobID : Nat} {job : CronJob} {next instant : Int}
    (found : s.jobs.get? jobID = some job) (written : job.nextRunAt = some next)
    : DueFrom s jobID instant ↔ next = instant := by
  constructor
  · intro h
    obtain ⟨job', found', due⟩ := h
    obtain rfl : job = job' := Option.some.inj (found.symm.trans found')
    simp only [CronStore.isDueAt, written, Option.all_some, decide_eq_true_eq] at due
    exact le_antisymm ((due instant).mpr le_rfl) ((due next).mp le_rfl)
  · intro same
    subst same
    refine ⟨job, found, fun now => ?_⟩
    simp only [CronStore.isDueAt, written, Option.all_some, decide_eq_true_eq]

/-- The row that AddOrUpdate returns the key of has the next run it was given. -/
theorem get?_addOrUpdate (s : CronStore) (jobName : String) (scheduledAt : Int)
    (expression : String) (args : Args)
    : ∃ job, (s.addOrUpdate jobName scheduledAt expression args).1.jobs.get?
          (s.addOrUpdate jobName scheduledAt expression args).2 = some job
        ∧ job.nextRunAt = some scheduledAt := by
  cases found : s.jobs.rows.find? (fun job => job.name = jobName) with
  | some old =>
      simp only [CronStore.addOrUpdate, found]
      have read := KeyedTable.get?_of_mem (List.mem_of_find?_eq_some found)
      exact ⟨_, KeyedTable.get?_update (by intro; rfl) read (decide_eq_true rfl), rfl⟩
  | none =>
      simp only [CronStore.addOrUpdate, found]
      exact ⟨_, KeyedTable.get?_insert_new _ (by intro; rfl), rfl⟩

theorem get?_updateJobRunTimes {s : CronStore} {jobID : Nat} {job : CronJob}
    (found : s.jobs.get? jobID = some job) (lastRunAt nextRunAt : Int)
    : ∃ row, (s.updateJobRunTimes jobID lastRunAt nextRunAt).jobs.get? jobID = some row
        ∧ row.nextRunAt = some nextRunAt := by
  have same : job.id = jobID := KeyedTable.key_of_get? found
  exact ⟨_, KeyedTable.get?_update (by intro; rfl) found (decide_eq_true same), rfl⟩

theorem moved_eq_iff {instant offset session : Int}
    : instant + (offset - session) * GoTime.second = instant ↔ offset = session := by
  simp only [GoTime.second]
  omega

/-- A computed next run that AddOrUpdate or UpdateJobRunTimes has written makes the row due
exactly at its instant if and only if the zone of the application and that of the session have
the same offset.
-/
theorem dueFrom_nextRun_iff (arith : IntArith) (s : CronStore) (session offset readAt : Int)
    (jobName expression : String) (args : Args) {jobID : Nat} {job : CronJob}
    (found : s.jobs.get? jobID = some job) (lastRunAt : Time)
    : (DueFrom
          (addOrUpdate s session jobName
            (calculateNextRun arith expression ⟨readAt, fixedZone offset⟩) expression args).1
          (addOrUpdate s session jobName
            (calculateNextRun arith expression ⟨readAt, fixedZone offset⟩) expression args).2
          (calculateNextRun arith expression ⟨readAt, fixedZone offset⟩).ns
        ↔ offset = session)
      ∧ (DueFrom
            (updateJobRunTimes s session jobID lastRunAt
              (calculateNextRun arith expression ⟨readAt, fixedZone offset⟩))
            jobID (calculateNextRun arith expression ⟨readAt, fixedZone offset⟩).ns
          ↔ offset = session) := by
  have zone := calculateNextRun_loc arith expression ⟨readAt, fixedZone offset⟩
  have read := readInSession_send session offset zone
  constructor
  · obtain ⟨row, stored, written⟩ := get?_addOrUpdate s jobName
      (readInSession session (send (calculateNextRun arith expression
        ⟨readAt, fixedZone offset⟩)).timestamp) expression args
    exact (dueFrom_iff stored (read ▸ written)).trans moved_eq_iff
  · obtain ⟨row, stored, written⟩ := get?_updateJobRunTimes found
      (readInSession session (send lastRunAt).timestamp)
      (readInSession session (send (calculateNextRun arith expression
        ⟨readAt, fixedZone offset⟩)).timestamp)
    exact (dueFrom_iff stored (read ▸ written)).trans moved_eq_iff

/-- A store with one job. -/
def oneJob : CronStore := (CronStore.addOrUpdate ⟨.empty, 0⟩ "mail" 0 "* * * * *" none).1

/-- The application and the session are both two hours ahead of UTC. -/
theorem dueFrom_nextRun_iff_sameZone
    : (calculateNextRun unbounded "* * * * *" ⟨0, fixedZone 7200⟩).ns = GoTime.minute
      ∧ DueFrom (addOrUpdate oneJob 7200 "mail"
            (calculateNextRun unbounded "* * * * *" ⟨0, fixedZone 7200⟩) "* * * * *" none).1
          (addOrUpdate oneJob 7200 "mail"
            (calculateNextRun unbounded "* * * * *" ⟨0, fixedZone 7200⟩) "* * * * *" none).2
          (calculateNextRun unbounded "* * * * *" ⟨0, fixedZone 7200⟩).ns
      ∧ DueFrom (updateJobRunTimes oneJob 7200 1 ⟨0, fixedZone 7200⟩
            (calculateNextRun unbounded "* * * * *" ⟨0, fixedZone 7200⟩))
          1 (calculateNextRun unbounded "* * * * *" ⟨0, fixedZone 7200⟩).ns := by
  have found := show oneJob.jobs.get? 1 = some _ from rfl
  have both := dueFrom_nextRun_iff unbounded oneJob 7200 7200 0 "mail" "* * * * *" none found
    ⟨0, fixedZone 7200⟩
  exact ⟨rfl, both.1.mpr rfl, both.2.mpr rfl⟩

/-- The application is two hours ahead of UTC and the session is not: the row is not due at the
instant of its next run, but two hours later.
-/
theorem nextRun_two_hours_late
    : ∃ job,
        (addOrUpdate ⟨.empty, 0⟩ 0 "mail"
          (calculateNextRun unbounded "* * * * *" ⟨0, fixedZone 7200⟩) "* * * * *" none).1.jobs.get?
            1 = some job
        ∧ (calculateNextRun unbounded "* * * * *" ⟨0, fixedZone 7200⟩).ns = GoTime.minute
        ∧ CronStore.isDueAt GoTime.minute job = false
        ∧ CronStore.isDueAt (GoTime.minute + 2 * GoTime.hour - 1) job = false
        ∧ CronStore.isDueAt (GoTime.minute + 2 * GoTime.hour) job = true
        ∧ ¬ DueFrom (addOrUpdate ⟨.empty, 0⟩ 0 "mail"
              (calculateNextRun unbounded "* * * * *" ⟨0, fixedZone 7200⟩) "* * * * *" none).1
            1 GoTime.minute := by
  refine ⟨_, rfl, rfl, rfl, rfl, rfl, ?_⟩
  intro h
  obtain ⟨job, found, due⟩ := h
  cases found
  exact absurd ((due GoTime.minute).mpr le_rfl) Bool.noConfusion

end GoFire.CronManager
