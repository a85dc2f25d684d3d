import GoFire.Store.CronJobStore

/-! What each statement of the cron store does to a row. -/

namespace GoFire.Store.CronStore

open GoFire.State

variable {s : CronStore} {row' : CronJob} {jobID : Nat}

theorem lockJob_ok {lockedBy : String}
    : (s.lockJob jobID lockedBy).2 = true
      ↔ ∃ row, s.jobs.get? jobID = some row ∧ isLockable row = true := by
  simp only [lockJob, decide_eq_true_eq]
  exact KeyedTable.affected_key_pos

/-- LockJob moves a lockable row to processing and keeps every other row. -/
theorem mem_lockJob {lockedBy : String} (mem : row' ∈ (s.lockJob jobID lockedBy).1.jobs.rows)
    : ∃ row ∈ s.jobs.rows,
        (row.id = jobID ∧ isLockable row = true
          ∧ row' = { row with lockedAt := some s.now, lockedBy := some lockedBy,
                              status := .processing })
        ∨ (row' = row ∧ ¬ (row.id = jobID ∧ isLockable row = true)) :=
  KeyedTable.mem_update_key_if (by intro; rfl) mem

/-- A row that LockJob does not move to processing is kept. -/
theorem kept_mem_lockJob {lockedBy : String} {row : CronJob} (mem : row ∈ s.jobs.rows)
    (unmoved : (s.lockJob jobID lockedBy).2 = true → jobID ≠ row.id)
    : row ∈ (s.lockJob jobID lockedBy).1.jobs.rows := by
  refine KeyedTable.kept_mem_update_key_if (by intro; rfl) mem fun lockable same => ?_
  subst same
  exact unmoved (lockJob_ok.mpr ⟨row, KeyedTable.get?_of_mem mem, lockable⟩) rfl

theorem get?_lockJob_other {lockedBy : String} {row : CronJob}
    (found : s.jobs.get? row.id = some row) (other : jobID ≠ row.id)
    : (s.lockJob jobID lockedBy).1.jobs.get? row.id = some row :=
  KeyedTable.get?_of_mem (kept_mem_lockJob (KeyedTable.mem_of_get? found) fun _ => other)

/-- AddOrUpdate inserts an active row, or gives the row it returns the key of a next run. -/
theorem mem_addOrUpdate {jobName expression : String} {scheduledAt : Int} {args : Args}
    (mem : row' ∈ (s.addOrUpdate jobName scheduledAt expression args).1.jobs.rows)
    : (s.jobs.nextKey ≤ row'.id ∧ row'.isActive = true
        ∧ (s.addOrUpdate jobName scheduledAt expression args).2 = row'.id)
      ∨ ∃ row ∈ s.jobs.rows,
          ((s.addOrUpdate jobName scheduledAt expression args).2 = row.id
            ∧ row' = { row with nextRunAt := some scheduledAt, payload := marshalArgs args,
                                expression })
          ∨ row' = row := by
  cases found : s.jobs.rows.find? (fun job => job.name = jobName) with
  | some old =>
      simp only [addOrUpdate, found] at mem ⊢
      obtain ⟨row, inRows, ⟨same, rfl⟩ | ⟨-, rfl⟩⟩ := KeyedTable.mem_update_key (by intro; rfl) mem
      · exact Or.inr ⟨row, inRows, Or.inl ⟨same.symm, rfl⟩⟩
      · exact Or.inr ⟨row', inRows, Or.inr rfl⟩
  | none =>
      simp only [addOrUpdate, found] at mem ⊢
      rcases KeyedTable.mem_insert (by intro; rfl) mem with old | rfl
      · exact Or.inr ⟨row', old, Or.inr rfl⟩
      · exact Or.inl ⟨le_rfl, rfl, rfl⟩

/-- A row that AddOrUpdate writes is new or the row of that name; all other rows are kept. -/
theorem addOrUpdate_writes {jobName expression : String} {scheduledAt : Int} {args : Args}
    (mem : row' ∈ (s.addOrUpdate jobName scheduledAt expression args).1.jobs.rows)
    : row' ∈ s.jobs.rows
      ∨ (row'.nextRunAt = some scheduledAt ∧ row'.expression = expression
        ∧ (row'.id = s.jobs.nextKey
          ∨ ∃ row ∈ s.jobs.rows, row.name = jobName ∧ row.id = row'.id)) := by
  cases found : s.jobs.rows.find? (fun job => job.name = jobName) with
  | some old =>
      simp only [addOrUpdate, found] at mem
      obtain ⟨row, inRows, ⟨same, rfl⟩ | ⟨-, rfl⟩⟩ := KeyedTable.mem_update_key (by intro; rfl) mem
      · have named : old.name = jobName := by simpa using List.find?_some found
        exact Or.inr ⟨rfl, rfl, Or.inr ⟨old, List.mem_of_find?_eq_some found, named, same.symm⟩⟩
      · exact Or.inl inRows
  | none =>
      simp only [addOrUpdate, found] at mem
      rcases KeyedTable.mem_insert (by intro; rfl) mem with old | rfl
      · exact Or.inl old
      · exact Or.inr ⟨rfl, rfl, Or.inl rfl⟩

theorem nextKey_le_addOrUpdate (s : CronStore) (jobName : String) (scheduledAt : Int)
    (expression : String) (args : Args)
    : s.jobs.nextKey ≤ (s.addOrUpdate jobName scheduledAt expression args).1.jobs.nextKey := by
  cases found : s.jobs.rows.find? (fun job => job.name = jobName) with
  | some old =>
      simp only [addOrUpdate, found]
      exact le_rfl
  | none =>
      simp only [addOrUpdate, found]
      exact Nat.le_succ _

theorem addOrUpdate_now (s : CronStore) (jobName : String) (scheduledAt : Int)
    (expression : String) (args : Args)
    : (s.addOrUpdate jobName scheduledAt expression args).1.now = s.now := by
  cases found : s.jobs.rows.find? (fun job => job.name = jobName) with
  | some old => simp only [addOrUpdate, found]
  | none => simp only [addOrUpdate, found]

theorem isDueAt_iff {now : Int} {job : CronJob}
    : isDueAt now job = true ↔ ∀ nextRunAt ∈ job.nextRunAt, nextRunAt ≤ now := by
  cases next : job.nextRunAt with
  | none => simp [isDueAt, next]
  | some nextRunAt => simp [isDueAt, next]

/-- A due job stays due until it gets another next run. -/
theorem isDueAt_later {now now' : Int} {job job' : CronJob} (due : isDueAt now job = true)
    (later : now ≤ now') (same : job'.nextRunAt = job.nextRunAt)
    : isDueAt now' job' = true := by
  rw [isDueAt_iff] at due ⊢
  rw [same]
  exact fun nextRunAt mem => (due nextRunAt mem).trans later

end GoFire.Store.CronStore
