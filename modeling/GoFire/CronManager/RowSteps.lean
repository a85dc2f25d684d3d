import GoFire.CronManager.Board
import GoFire.Store.CronRows

/-! What a step of the board can do to a row of cron_jobs and to the offers, said once for all
invariants.
-/

namespace GoFire.CronManager

open GoFire.State GoFire.Store

/-- The job a manager starts. -/
@[simp] def Event.start : Event → Option Nat
  | .locked job => some job.id
  | _ => none

/-- The job whose next run is written, and the time written. -/
@[simp] def Event.renewal : Event → Option (Nat × Int)
  | .updated jobID nextRunAt => some (jobID, nextRunAt)
  | .scheduled jobID nextRunAt => some (jobID, nextRunAt)
  | _ => none

/-- The job whose outcome is handled, but whose run times will not be written. -/
@[simp] def Event.abandoned : Event → Option Nat
  | .updateRefused jobID => some jobID
  | .crashed updating => updating
  | _ => none

@[simp] def Event.isFetch : Event → Bool
  | .fetched _ => true
  | _ => false

/-- The job that is deactivated without an error. -/
@[simp] def Event.deactivation : Event → Option Nat
  | .deactivated jobID => some jobID
  | _ => none

/-- The job that is activated. -/
@[simp] def Event.activation : Event → Option Nat
  | .activated jobID => some jobID
  | _ => none

@[simp] def Event.Starts (jobID : Nat) (event : Event) : Prop := event.start = some jobID

@[simp] def Event.Renews (jobID : Nat) (event : Event) : Prop :=
  event.renewal.map Prod.fst = some jobID

@[simp] def Event.Deactivates (jobID : Nat) (event : Event) : Prop :=
  event.deactivation = some jobID

@[simp] def Event.Activates (jobID : Nat) (event : Event) : Prop :=
  event.activation = some jobID

instance (jobID : Nat) : DecidablePred (Event.Starts jobID) :=
  fun event => inferInstanceAs (Decidable (event.start = some jobID))

instance (jobID : Nat) : DecidablePred (Event.Renews jobID) :=
  fun event => inferInstanceAs (Decidable (event.renewal.map Prod.fst = some jobID))

instance (jobID : Nat) : DecidablePred (Event.Deactivates jobID) :=
  fun event => inferInstanceAs (Decidable (event.deactivation = some jobID))

instance (jobID : Nat) : DecidablePred (Event.Activates jobID) :=
  fun event => inferInstanceAs (Decidable (event.activation = some jobID))

/-- What the outcome of a result makes of its row. -/
inductive Marked (result : JobResult) (row : CronJob) : CronJob → Prop where
  | success
      : Marked result row { row with status := .succeeded, lastError := none, lockedAt := none,
                                     lockedBy := none }
  | failure
      : Marked result row { row with status := .failed, lastError := some (result.err.getD "") }
  | unknown : Marked result row row

theorem mem_markOutcome {s : CronStore} {result : JobResult} {row' : CronJob}
    (mem : row' ∈ (markOutcome s result).jobs.rows)
    : ∃ row ∈ s.jobs.rows, (row.id = result.jobID ∧ Marked result row row') ∨ row' = row := by
  cases status : result.status with
  | succeeded =>
      simp only [markOutcome, status] at mem
      obtain ⟨row, inRows, ⟨same, rfl⟩ | ⟨-, rfl⟩⟩ :=
        KeyedTable.mem_update_key (by intro; rfl) mem
      · exact ⟨row, inRows, Or.inl ⟨same, .success⟩⟩
      · exact ⟨row', inRows, Or.inr rfl⟩
  | failed =>
      simp only [markOutcome, status] at mem
      obtain ⟨row, inRows, ⟨same, rfl⟩ | ⟨-, rfl⟩⟩ :=
        KeyedTable.mem_update_key (by intro; rfl) mem
      · exact ⟨row, inRows, Or.inl ⟨same, .failure⟩⟩
      · exact ⟨row', inRows, Or.inr rfl⟩
  | _ =>
      simp only [markOutcome, status] at mem
      exact ⟨row', mem, Or.inr rfl⟩

theorem markOutcome_nextKey (s : CronStore) (result : JobResult)
    : (markOutcome s result).jobs.nextKey = s.jobs.nextKey := by
  cases status : result.status with
  | succeeded =>
      simp only [markOutcome, status]
      rfl
  | failed =>
      simp only [markOutcome, status]
      rfl
  | _ => simp only [markOutcome, status]

theorem markOutcome_now (s : CronStore) (result : JobResult)
    : (markOutcome s result).now = s.now := by
  cases status : result.status with
  | succeeded =>
      simp only [markOutcome, status]
      rfl
  | failed =>
      simp only [markOutcome, status]
      rfl
  | _ => simp only [markOutcome, status]

-----------------------------------------------------------------------------------------
-- What a step does to a row
-----------------------------------------------------------------------------------------

/-- The row of a job that has just been scheduled for the first time. -/
structure NewRow (s : CronStore) (event : Event) (row : CronJob) : Prop where
  fresh : s.jobs.nextKey ≤ row.id
  scheduled : event.Renews row.id

theorem NewRow.not_started {s : CronStore} {event : Event} {row : CronJob}
    (new : NewRow s event row)
    : ¬ event.Starts row.id := by
  have scheduled := new.scheduled
  cases event with
  | scheduled => simp
  | _ => simp at scheduled ⊢

/-- What a step with this event does to a row that was there before. -/
inductive RowStep (now : Int) : Event → CronJob → CronJob → Prop where
  | kept {event : Event} {row : CronJob}
      (notStarted : ¬ event.Starts row.id)
      (notDeactivated : ¬ event.Deactivates row.id)
      : RowStep now event row row
  | lock {row job : CronJob} (lockedBy : String) (sameJob : row.id = job.id)
      : RowStep now (.locked job) row
          { row with lockedAt := some now, lockedBy := some lockedBy, status := .processing }
  | lockLost {row : CronJob} (lockedBy : String)
      : RowStep now .internal row
          { row with lockedAt := some now, lockedBy := some lockedBy, status := .processing }
  | mark {result : JobResult} {row row' : CronJob} (sameJob : row.id = result.jobID)
      (marked : Marked result row row')
      : RowStep now (.marked result) row row'
  | update {row : CronJob} (lastRunAt nextRunAt : Int)
      : RowStep now (.updated row.id nextRunAt) row
          { row with lastRunAt := some lastRunAt, nextRunAt := some nextRunAt }
  | reschedule {row : CronJob} (nextRunAt : Int) (payload : Json) (expression : String)
      : RowStep now (.scheduled row.id nextRunAt) row
          { row with nextRunAt := some nextRunAt, payload, expression }
  | activate {row : CronJob} : RowStep now (.activated row.id) row { row with isActive := true }
  | deActivate {event : Event} {row : CronJob}
      (notStarted : ¬ event.Starts row.id)
      : RowStep now event row { row with isActive := false }

/-- Every row after a step is new or a row before it, changed as the event says. -/
theorem Board.Step.row_cases {b b' : Board} {event : Event} (h : Board.Step b event b')
    {row' : CronJob} (mem : row' ∈ b'.store.jobs.rows)
    : NewRow b.store event row'
      ∨ ∃ row ∈ b.store.jobs.rows, RowStep b.store.now event row row' := by
  cases h with
  | lock lockedBy offered ok =>
      obtain ⟨row, inRows, ⟨same, -, rfl⟩ | ⟨rfl, notBoth⟩⟩ := CronStore.mem_lockJob mem
      · exact Or.inr ⟨row, inRows, .lock lockedBy same⟩
      · refine Or.inr ⟨row', inRows, .kept (fun started => ?_) (by simp)⟩
        have same := (Option.some.inj started).symm
        obtain ⟨row, found, lockable⟩ := CronStore.lockJob_ok.mp ok
        obtain rfl := KeyedTable.eq_of_key inRows (KeyedTable.mem_of_get? found)
          (same.trans (KeyedTable.key_of_get? found).symm)
        exact notBoth ⟨same, lockable⟩
  | lockLost lockedBy =>
      obtain ⟨row, inRows, ⟨-, -, rfl⟩ | ⟨rfl, -⟩⟩ := CronStore.mem_lockJob mem
      · exact Or.inr ⟨row, inRows, .lockLost lockedBy⟩
      · exact Or.inr ⟨row', inRows, .kept (by simp) (by simp)⟩
  | mark =>
      obtain ⟨row, inRows, ⟨same, marked⟩ | rfl⟩ := mem_markOutcome mem
      · exact Or.inr ⟨row, inRows, .mark same marked⟩
      · exact Or.inr ⟨row', inRows, .kept (by simp) (by simp)⟩
  | update lastRunAt nextRunAt =>
      obtain ⟨row, inRows, ⟨rfl, rfl⟩ | ⟨-, rfl⟩⟩ :=
        KeyedTable.mem_update_key (by intro; rfl) mem
      · exact Or.inr ⟨row, inRows, .update lastRunAt nextRunAt⟩
      · exact Or.inr ⟨row', inRows, .kept (by simp) (by simp)⟩
  | schedule jobName scheduledAt expression args =>
      obtain ⟨fresh, -, returned⟩ | ⟨row, inRows, ⟨returned, rfl⟩ | rfl⟩ :=
        CronStore.mem_addOrUpdate mem
      · rw [returned]
        exact Or.inl ⟨fresh, rfl⟩
      · rw [returned]
        exact Or.inr ⟨row, inRows, .reschedule scheduledAt _ expression⟩
      · exact Or.inr ⟨row', inRows, .kept (by simp) (by simp)⟩
  | activate =>
      obtain ⟨row, inRows, ⟨rfl, rfl⟩ | ⟨-, rfl⟩⟩ :=
        KeyedTable.mem_update_key (by intro; rfl) mem
      · exact Or.inr ⟨row, inRows, .activate⟩
      · exact Or.inr ⟨row', inRows, .kept (by simp) (by simp)⟩
  | deActivate =>
      obtain ⟨row, inRows, ⟨-, rfl⟩ | ⟨other, rfl⟩⟩ :=
        KeyedTable.mem_update_key (by intro; rfl) mem
      · exact Or.inr ⟨row, inRows, .deActivate (by simp)⟩
      · refine Or.inr ⟨row', inRows, .kept (by simp) ?_⟩
        simpa using Ne.symm other
  | deActivateLost =>
      obtain ⟨row, inRows, ⟨-, rfl⟩ | ⟨-, rfl⟩⟩ :=
        KeyedTable.mem_update_key (by intro; rfl) mem
      · exact Or.inr ⟨row, inRows, .deActivate (by simp)⟩
      · exact Or.inr ⟨row', inRows, .kept (by simp) (by simp)⟩
  | _ => exact Or.inr ⟨row', mem, .kept (by simp) (by simp)⟩

namespace RowStep

variable {now : Int} {event : Event} {row row' : CronJob}

theorem id_eq (h : RowStep now event row row') : row'.id = row.id := by
  cases h with
  | mark _ marked => cases marked <;> rfl
  | _ => rfl

/-- A row that cannot be locked becomes lockable by an outcome of its job only, and a start
leaves the row of its job locked.
-/
theorem lockable_cases (h : RowStep now event row row')
    (lockable : CronStore.isLockable row' = true)
    : (CronStore.isLockable row = true ∧ ¬ event.Starts row.id)
      ∨ ∃ result, event = .marked result ∧ row.id = result.jobID := by
  cases h with
  | kept notStarted => exact Or.inl ⟨lockable, notStarted⟩
  | lock => simp [CronStore.isLockable] at lockable
  | lockLost => simp [CronStore.isLockable] at lockable
  | mark same => exact Or.inr ⟨_, rfl, same⟩
  | update => exact Or.inl ⟨lockable, by simp⟩
  | reschedule => exact Or.inl ⟨lockable, by simp⟩
  | activate => exact Or.inl ⟨lockable, by simp⟩
  | deActivate notStarted => exact Or.inl ⟨lockable, notStarted⟩

/-- Only a renewal writes the next run. -/
theorem nextRunAt_cases (h : RowStep now event row row')
    : row'.nextRunAt = row.nextRunAt
      ∨ ∃ nextRunAt, event.renewal = some (row.id, nextRunAt) ∧ row'.nextRunAt = some nextRunAt := by
  cases h with
  | mark _ marked =>
      cases marked with
      | _ => exact Or.inl rfl
  | update => exact Or.inr ⟨_, rfl, rfl⟩
  | reschedule => exact Or.inr ⟨_, rfl, rfl⟩
  | _ => exact Or.inl rfl

/-- A row gets active by an activation of its job only. -/
theorem active_cases (h : RowStep now event row row') (active : row'.isActive = true)
    : (row.isActive = true ∧ ¬ event.Deactivates row.id) ∨ event.Activates row.id := by
  cases h with
  | kept _ notDeactivated => exact Or.inl ⟨active, notDeactivated⟩
  | mark _ marked =>
      cases marked with
      | _ => exact Or.inl ⟨active, by simp⟩
  | activate => exact Or.inr rfl
  | deActivate => cases active
  | _ => exact Or.inl ⟨active, by simp⟩

end RowStep

-----------------------------------------------------------------------------------------
-- What a step does to the rest of the board
-----------------------------------------------------------------------------------------

namespace Board.Step

variable {b b' : Board} {event : Event} {jobID : Nat}

/-- A row of a job whose key was given out was there before. -/
theorem old_row (h : Board.Step b event b') (known : jobID < b.store.jobs.nextKey)
    {row' : CronJob} (mem : row' ∈ b'.store.jobs.rows) (same : row'.id = jobID)
    : ∃ row ∈ b.store.jobs.rows, row.id = jobID ∧ RowStep b.store.now event row row' := by
  rcases h.row_cases mem with new | ⟨row, inRows, step⟩
  · have fresh := new.fresh
    rw [same] at fresh
    exact absurd known (not_lt_of_ge fresh)
  · exact ⟨row, inRows, step.id_eq.symm.trans same, step⟩

/-- Keys are only given out, never taken back. -/
theorem nextKey_le (h : Board.Step b event b')
    : b.store.jobs.nextKey ≤ b'.store.jobs.nextKey := by
  cases h with
  | mark => exact (markOutcome_nextKey _ _).ge
  | schedule => exact CronStore.nextKey_le_addOrUpdate _ _ _ _ _
  | _ => exact le_rfl

/-- The clock does not go back. -/
theorem now_le (h : Board.Step b event b') : b.store.now ≤ b'.store.now := by
  cases h with
  | pass duration => exact Int.le_add_of_nonneg_right (Int.natCast_nonneg duration)
  | mark => exact (markOutcome_now _ _).ge
  | schedule => exact (CronStore.addOrUpdate_now _ _ _ _ _).ge
  | _ => exact le_rfl

/-- Offers come from a fetch only, which leaves the table as it is. -/
theorem offers_cases (h : Board.Step b event b') {job : CronJob} (mem : job ∈ b'.offers)
    : job ∈ b.offers
      ∨ (event.isFetch = true ∧ b'.store = b.store ∧ b.store.jobs.get? job.id = some job
        ∧ b.store.isFetched job = true) := by
  cases h with
  | forget fewer => exact Or.inl (Multiset.mem_of_le fewer mem)
  | fetch current =>
      rcases Multiset.mem_add.mp mem with new | old
      · exact Or.inr ⟨rfl, rfl, current job new⟩
      · exact Or.inl old
  | lock _ offered => exact Or.inl (offered ▸ Multiset.mem_cons_of_mem mem)
  | lockLost _ offered => exact Or.inl (offered ▸ Multiset.mem_cons_of_mem mem)
  | crash fewer => exact Or.inl (Multiset.mem_of_le fewer mem)
  | _ => exact Or.inl mem

/-- A manager that handles an outcome goes on to the run times of the job, unless it dies. -/
theorem updating_cases (h : Board.Step b event b') (pending : jobID ∈ b.updating)
    : jobID ∈ b'.updating ∨ event.Renews jobID ∨ event.abandoned = some jobID := by
  cases h with
  | mark => exact Or.inl (Multiset.mem_cons_of_mem pending)
  | unmarked => exact Or.inl (Multiset.mem_cons_of_mem pending)
  | update _ _ held =>
      rw [held] at pending
      rcases Multiset.mem_cons.mp pending with rfl | other
      · exact Or.inr (Or.inl rfl)
      · exact Or.inl other
  | updateRefused held =>
      rw [held] at pending
      rcases Multiset.mem_cons.mp pending with rfl | other
      · exact Or.inr (Or.inr rfl)
      · exact Or.inl other
  | @crash lost _ _ _ held =>
      rw [held] at pending
      rcases Multiset.mem_add.mp pending with gone | other
      · cases lost with
        | none => simp at gone
        | some lost =>
            obtain rfl : jobID = lost := by simpa using gone
            exact Or.inr (Or.inr rfl)
      · exact Or.inl other
  | _ => exact Or.inl pending

theorem marked_updating {result : JobResult} (h : Board.Step b (.marked result) b')
    : result.jobID ∈ b'.updating := by
  cases h with
  | mark => exact Multiset.mem_cons_self _ _

/-- A successful lock takes an offer. -/
theorem locked_offer {job : CronJob} (h : Board.Step b (.locked job) b')
    : job ∈ b.offers ∧ ∃ row, b.store.jobs.get? job.id = some row
        ∧ CronStore.isLockable row = true := by
  cases h with
  | lock lockedBy offered ok =>
      exact ⟨offered ▸ Multiset.mem_cons_self _ _, CronStore.lockJob_ok.mp ok⟩

end Board.Step

end GoFire.CronManager
