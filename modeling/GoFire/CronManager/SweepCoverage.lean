import GoFire.CronManager.RowSteps
import GoFire.Store.DuePages

/-! The rows that one call of processCronJobs tries to lock. The call reads the result set page
by page with OFFSET while finished jobs and locks take rows out of it.
-/

namespace GoFire.CronManager

open GoFire.State GoFire.Store GoFire.CronParser TransitionSystem

/-- A step with the system before and after it. -/
structure Observed where
  before : System
  action : SystemAction
  after : System

def watch (arith : IntArith) (s : System) (action : SystemAction) : Option (System × Observed) :=
  (s.step arith action).map fun next => (next.1, ⟨s, action, next.1⟩)

/-- The pages whose rows the call has been handed. -/
def Poll.pagesRead : Poll → Nat
  | .counting page => page - 1
  | .selecting page _ => page - 1
  | .locking _ page _ => page
  | .acquiring _ _ page _ => page
  | _ => 0

/-- The rows handed to the call that it has not tried yet. -/
def Poll.inHand : Poll → List CronJob
  | .locking items _ _ => items
  | .acquiring _ items _ _ => items
  | _ => []

/-- Between the count and the select query of a page. -/
def Poll.isSelecting : Poll → Bool
  | .selecting _ _ => true
  | _ => false

def Action.isLockJob : Action → Bool
  | .lockJob _ => true
  | _ => false

/-- The two statements of the result processor. -/
def Action.isResult : Action → Bool
  | .mark _ => true
  | .updateJobRunTimes _ => true
  | _ => false

/-- The queries of FetchDueCronJobs return without an error. -/
def Action.fetchAnswered : Action → Bool
  | .countDueCronJobs delivery => delivery = .answered
  | .selectDueCronJobs delivery _ => delivery = .answered
  | _ => true

/-- The database breaks the ties of its ORDER BY by the rank of the keys. -/
def Action.orderStable {β : Type*} [LinearOrder β] (rank : Nat → β) (s : CronStore)
    : Action → Bool
  | .selectDueCronJobs _ order =>
      (order.filterMap s.jobs.get?).Pairwise (fun a b => CronStore.inFront rank a b)
  | _ => true

namespace Observed

variable {β : Type*} [LinearOrder β] (rank : Nat → β) (i jobID : Nat) (row : CronJob)
  (e : Observed)

/-- What manager `i` does in the step, when the step is its own. -/
def own : Option Action :=
  match e.action with
  | .manager j action => if j = i then some action else none
  | _ => none

def sweeper : Option Manager := e.before.managers[i]?

/-- processCronJobs of manager `i` calls LockJob on a job. -/
def Calls : Prop :=
  (e.own i).any Action.isLockJob
    ∧ ∃ m ∈ e.sweeper i, ∃ job ∈ m.poll.inHand.head?, job.id = jobID

/-- Somebody other than manager `i` locks or changes the row of a job. -/
def ChangesFromOutside : Prop :=
  e.own i = none ∧ e.after.store.jobs.get? jobID ≠ e.before.store.jobs.get? jobID

/-- The queries of the call are answered, in a stable order. -/
def Served : Prop :=
  ∀ action ∈ e.own i, action.fetchAnswered && action.orderStable rank e.before.store

/-- The result processor of manager `i` leaves the row in its place in the result set. -/
def KeepsRow : Prop :=
  (e.own i).any Action.isResult →
    (e.after.store.jobs.get? row.id).any
      (fun r => e.after.store.isFetched r && decide (r.nextRunAt = row.nextRunAt))

/-- While the row is not handed out, the rows that stand in front of it on the pages read so far
stay in the result set, in front of it.
-/
def KeepsPagesRead : Prop :=
  ∀ m ∈ e.sweeper i, row.id ∉ m.poll.inHand.map CronJob.id →
    ∀ other ∈ e.before.store.jobs.rows, e.before.store.isFetched other →
      CronStore.inFront rank other row →
      e.before.store.position rank other < m.poll.pagesRead * m.batchSize →
      (e.after.store.jobs.get? other.id).any
        (fun o => e.after.store.isFetched o && CronStore.inFront rank o row)

/-- Between the count and the select query no row comes in front of the row. -/
def KeepsCount : Prop :=
  ∀ m ∈ e.sweeper i, m.poll.isSelecting →
    ∀ other ∈ e.after.store.jobs.rows, e.after.store.isFetched other →
      CronStore.inFront rank other row →
      (e.before.store.jobs.get? other.id).any
        (fun o => e.before.store.isFetched o && CronStore.inFront rank o row)

def Undisturbed : Prop :=
  e.KeepsRow i row ∧ e.KeepsPagesRead rank i row ∧ e.KeepsCount rank i row

end Observed

section Decidable

variable {β : Type*} [LinearOrder β] (rank : Nat → β) (i jobID : Nat) (row : CronJob)
  (e : Observed)

instance : Decidable (e.Calls i jobID) := inferInstanceAs (Decidable (_ ∧ _))

instance : Decidable (e.Served rank i) := inferInstanceAs (Decidable (∀ action ∈ e.own i, _))

instance : Decidable (e.KeepsRow i row) := inferInstanceAs (Decidable (_ → _))

instance : Decidable (e.KeepsPagesRead rank i row) :=
  inferInstanceAs (Decidable (∀ m ∈ e.sweeper i, _))

instance : Decidable (e.KeepsCount rank i row) :=
  inferInstanceAs (Decidable (∀ m ∈ e.sweeper i, _))

instance : Decidable (e.Undisturbed rank i row) := inferInstanceAs (Decidable (_ ∧ _))

end Decidable

-----------------------------------------------------------------------------------------
-- Where a call stands towards a row that it has not tried
-----------------------------------------------------------------------------------------

/-- The row with this position is in hand, or it stands behind the pages read so far and they
are not the last.
-/
def Poll.Ahead (jobID size position : Nat) : Poll → Prop
  | .counting page => 1 ≤ page ∧ (page - 1) * size ≤ position
  | .selecting page total => 1 ≤ page ∧ (page - 1) * size ≤ position ∧ position < total
  | .locking items page more =>
      1 ≤ page ∧ (jobID ∈ items.map CronJob.id ∨ more = true ∧ page * size ≤ position)
  | .acquiring _ items page more =>
      1 ≤ page ∧ (jobID ∈ items.map CronJob.id ∨ more = true ∧ page * size ≤ position)
  | .crashed => True
  | _ => False

/-- A row that is due and that the call has not tried yet. -/
structure Untried {β : Type*} [LinearOrder β] (rank : Nat → β) (i : Nat) (row : CronJob)
    (s : System) : Prop where
  current : ∃ r, s.store.jobs.get? row.id = some r ∧ s.store.isFetched r = true
    ∧ r.nextRunAt = row.nextRunAt
  ahead : ∃ m, s.managers[i]? = some m ∧ 1 ≤ m.batchSize
    ∧ m.poll.Ahead row.id m.batchSize (s.store.position rank row)

/-- The row stays ahead when its position changes as it may. -/
theorem Poll.Ahead.moved {poll : Poll} {jobID size position position' : Nat}
    (ahead : poll.Ahead jobID size position)
    (behind : jobID ∉ poll.inHand.map CronJob.id → poll.pagesRead * size ≤ position →
      poll.pagesRead * size ≤ position')
    (counted : poll.isSelecting = true → position' ≤ position)
    : poll.Ahead jobID size position' := by
  cases poll with
  | counting page => exact ⟨ahead.1, behind List.not_mem_nil ahead.2⟩
  | selecting page total =>
      exact ⟨ahead.1, behind List.not_mem_nil ahead.2.1, (counted rfl).trans_lt ahead.2.2⟩
  | locking items page more =>
      refine ⟨ahead.1, ?_⟩
      by_cases held : jobID ∈ items.map CronJob.id
      · exact Or.inl held
      · obtain ⟨next, reached⟩ := ahead.2.resolve_left held
        exact Or.inr ⟨next, behind held reached⟩
  | acquiring job items page more =>
      refine ⟨ahead.1, ?_⟩
      by_cases held : jobID ∈ items.map CronJob.id
      · exact Or.inl held
      · obtain ⟨next, reached⟩ := ahead.2.resolve_left held
        exact Or.inr ⟨next, behind held reached⟩
  | crashed => trivial
  | _ => exact ahead.elim

-----------------------------------------------------------------------------------------
-- What a step of the sweeping manager does to it
-----------------------------------------------------------------------------------------

namespace Manager

variable {arith : IntArith} {s s' : CronStore} {m m' : Manager} {action : Action} {event : Event}

theorem countDueCronJobs_answered {page : Nat} (counting : m.poll = .counting page)
    (taken : m.countDueCronJobs s .answered = some (s', m', event))
    : s' = s ∧ m' = { m with poll := .selecting page s.countDueCronJobs } := by
  simp only [countDueCronJobs, counting] at taken
  split at taken
  case isFalse => cases taken
  case isTrue =>
    cases taken
    exact ⟨rfl, rfl⟩

theorem selectDueCronJobs_answered {order : List Nat} {page total : Nat}
    (selecting : m.poll = .selecting page total)
    (taken : m.selectDueCronJobs s .answered order = some (s', m', event))
    : s' = s ∧ ∃ result, s.fetchDueCronJobs page m.batchSize total order = some result
      ∧ m' = { m with poll := .locking result.items page result.hasNextPage } := by
  simp only [selectDueCronJobs, selecting] at taken
  split at taken
  case isFalse => cases taken
  case isTrue =>
    simp only [Option.bind_eq_bind, Option.bind_eq_some_iff] at taken
    obtain ⟨result, fetched, taken⟩ := taken
    cases taken
    exact ⟨rfl, result, fetched, rfl⟩

/-- A step that neither tries the job nor writes a result keeps its row. -/
theorem step_keeps_row {r : CronJob} (taken : m.step arith s action = some (s', m', event))
    (quiet : action.isResult = false)
    (untried : action.isLockJob = true → ∀ job ∈ m.poll.inHand.head?, job.id ≠ r.id)
    (found : s.jobs.get? r.id = some r)
    : s'.jobs.get? r.id = some r := by
  cases step_moves taken with
  | @locked job items page more locking =>
      refine CronStore.get?_lockJob_other found (untried rfl job ?_)
      rw [locking]
      rfl
  | @lockLost job items page more locking =>
      refine CronStore.get?_lockJob_other found (untried rfl job ?_)
      rw [locking]
      rfl
  | marked | updated => cases quiet
  | _ => exact found

/-- A step of the sweep that does not try the job keeps the row ahead. -/
theorem step_ahead {β : Type*} [LinearOrder β] {rank : Nat → β} {row r : CronJob}
    (taken : m.step arith s action = some (s', m', event)) (batch : 1 ≤ m.batchSize)
    (answered : action.fetchAnswered = true) (stable : action.orderStable rank s = true)
    (untried : action.isLockJob = true → ∀ job ∈ m.poll.inHand.head?, job.id ≠ row.id)
    (found : s.jobs.get? row.id = some r) (fetched : s.isFetched r = true)
    (sameRun : r.nextRunAt = row.nextRunAt) (scannable : row.nextRunAt.isSome = true)
    (ahead : m.poll.Ahead row.id m.batchSize (s'.position rank row))
    : 1 ≤ m'.batchSize ∧ m'.poll.Ahead row.id m'.batchSize (s'.position rank row) := by
  have sameKey : r.id = row.id := KeyedTable.key_of_get? found
  have current : s.jobs.get? r.id = some r := sameKey ▸ found
  have samePlace : s.position rank r = s.position rank row :=
    CronStore.position_congr sameKey sameRun
  have step := step_moves taken
  cases step with
  | start at_poll | began at_poll | ended at_poll | woke at_poll | returned at_poll =>
      rw [at_poll] at ahead
      exact ahead.elim
  | counted counting =>
      obtain rfl := of_decide_eq_true answered
      have answer := congrArg poll (countDueCronJobs_answered counting taken).2
      cases answer
      rw [counting] at ahead
      refine ⟨batch, ahead.1, ahead.2, ?_⟩
      rw [← samePlace]
      exact CronStore.position_lt_countDueCronJobs current fetched
  | countFailed counting =>
      obtain rfl := of_decide_eq_true answered
      cases congrArg poll (countDueCronJobs_answered counting taken).2
  | @fetched _ order page total result selecting read =>
      rw [selecting] at ahead
      obtain ⟨first, reached, counted⟩ := ahead
      obtain ⟨page, rfl⟩ := Nat.exists_eq_add_of_le' first
      refine ⟨batch, first, ?_⟩
      by_cases inside : s.position rank row < (page + 1) * m.batchSize
      · rw [← samePlace] at reached inside
        have mem := CronStore.mem_fetchDueCronJobs read (of_decide_eq_true stable) current fetched
          (sameRun ▸ scannable) reached inside
        exact Or.inl (List.mem_map.mpr ⟨r, mem, sameKey⟩)
      · have behind := not_lt.mp inside
        exact Or.inr
          ⟨CronStore.fetchDueCronJobs_hasNextPage read batch (behind.trans_lt counted), behind⟩
  | selectFailed selecting =>
      obtain rfl := of_decide_eq_true answered
      obtain ⟨-, result, -, same⟩ := selectDueCronJobs_answered selecting taken
      cases congrArg poll same
  | @locked job items page more locking | @lockLost job items page more locking
  | @passedOver _ job items page more locking =>
      rw [locking] at ahead untried
      refine ⟨batch, ahead.1, ahead.2.imp_left fun held => ?_⟩
      have other : row.id ≠ job.id := (untried rfl job rfl).symm
      exact (List.mem_cons.mp held).resolve_left other
  | acquired acquiring | acquireFailed acquiring =>
      rw [acquiring] at ahead
      exact ⟨batch, ahead⟩
  | @pageEnded page more locking =>
      rw [locking] at ahead
      obtain ⟨rfl, reached⟩ := ahead.2.resolve_left List.not_mem_nil
      exact ⟨batch, Nat.le_add_left 1 page, reached⟩
  | panicked | crash => exact ⟨batch, trivial⟩
  | _ => exact ⟨batch, ahead⟩

end Manager

-----------------------------------------------------------------------------------------
-- What a step of the system does to it
-----------------------------------------------------------------------------------------

section

variable {β : Type*} [LinearOrder β] {rank : Nat → β} {arith : IntArith} {i : Nat}
  {s s' : System} {action : SystemAction} {event : Event} {row : CronJob}

/-- A step of manager `i` is a step of it on the store. -/
theorem System.own_step {own : Action} (taken : System.step arith s action = some (s', event))
    (isOwn : Observed.own i ⟨s, action, s'⟩ = some own)
    : ∃ m m', s.managers[i]? = some m ∧ s'.managers[i]? = some m'
      ∧ m.step arith s.store own = some (s'.store, m', event) := by
  cases action with
  | manager j managerAction =>
      simp only [Observed.own] at isOwn
      split at isOwn
      case isFalse => cases isOwn
      case isTrue same =>
        cases isOwn
        subst same
        obtain ⟨m, store, m', found, moved, rfl⟩ := System.manager_step taken
        have inside := (List.getElem?_eq_some_iff.mp found).1
        exact ⟨m, m', found, List.getElem?_set_self inside, moved⟩
  | _ => cases isOwn

/-- A step of somebody else leaves manager `i` as it is. -/
theorem System.other_step {m : Manager} (taken : System.step arith s action = some (s', event))
    (other : Observed.own i ⟨s, action, s'⟩ = none) (found : s.managers[i]? = some m)
    : s'.managers[i]? = some m := by
  cases action with
  | pass duration =>
      cases taken
      exact found
  | schedule =>
      simp only [System.step, System.schedule] at taken
      split at taken
      case isFalse => cases taken
      case isTrue =>
        split at taken
        · cases taken
          exact found
        · cases taken
          exact found
  | activate jobID delivery =>
      cases delivery with
      | _ =>
          cases taken
          exact found
  | deActivate jobID delivery =>
      cases delivery with
      | _ =>
          cases taken
          exact found
  | newManager name handlers loc =>
      cases taken
      rw [List.getElem?_append_left (List.getElem?_eq_some_iff.mp found).1]
      exact found
  | manager j managerAction =>
      simp only [Observed.own] at other
      split at other
      case isTrue => cases other
      case isFalse different =>
        obtain ⟨n, store, n', -, -, rfl⟩ := System.manager_step taken
        rw [List.getElem?_set_ne different]
        exact found

theorem System.now_le (taken : System.step arith s action = some (s', event))
    : s.store.now ≤ s'.store.now :=
  (System.step_board ⟨action, taken⟩).now_le

/-- An allowed step that does not try the row leaves it untried. -/
theorem Untried.step (untried : Untried rank i row s) (distinct : Function.Injective rank)
    (scannable : row.nextRunAt.isSome = true)
    (taken : System.step arith s action = some (s', event))
    (served : Observed.Served rank i ⟨s, action, s'⟩)
    (unchanged : ¬ Observed.ChangesFromOutside i row.id ⟨s, action, s'⟩)
    (quiet : Observed.Undisturbed rank i row ⟨s, action, s'⟩)
    (uncalled : ¬ Observed.Calls i row.id ⟨s, action, s'⟩)
    : Untried rank i row s' := by
  obtain ⟨⟨r, found, fetched, sameRun⟩, m, sweeper, batch, ahead⟩ := untried
  obtain ⟨keepsRow, keepsPages, keepsCount⟩ := quiet
  have sameKey : r.id = row.id := KeyedTable.key_of_get? found
  have moved : m.poll.Ahead row.id m.batchSize (s'.store.position rank row) := by
    refine ahead.moved (fun notHeld behind => ?_) (fun selecting => ?_)
    · rw [← CronStore.position_congr sameKey sameRun] at behind ⊢
      have sameFront : ∀ other, CronStore.inFront rank other r = CronStore.inFront rank other row :=
        CronStore.inFront_congr sameKey sameRun
      refine CronStore.position_kept distinct (sameKey ▸ found) fetched behind ?_
      simp only [sameFront]
      exact keepsPages m sweeper notHeld
    · exact CronStore.position_le (keepsCount m sweeper selecting)
  cases isOwn : Observed.own i ⟨s, action, s'⟩ with
  | none =>
      have same : s'.store.jobs.get? row.id = s.store.jobs.get? row.id := by
        by_contra changed
        exact unchanged ⟨isOwn, changed⟩
      exact ⟨⟨r, same.trans found, CronStore.isFetched_later (System.now_le taken) fetched, sameRun⟩,
        m, System.other_step taken isOwn sweeper, batch, moved⟩
  | some own =>
      obtain ⟨m₁, m', sweeper₁, after, step⟩ := System.own_step taken isOwn
      obtain rfl : m = m₁ := Option.some.inj (sweeper.symm.trans sweeper₁)
      have passes : own.isLockJob = true → ∀ job ∈ m.poll.inHand.head?, job.id ≠ row.id := by
        intro tries job first same
        exact uncalled ⟨by simp [isOwn, tries], m, sweeper, job, first, same⟩
      have answered := served own isOwn
      rw [Bool.and_eq_true] at answered
      refine ⟨?_, m', after,
        Manager.step_ahead step batch answered.1 answered.2 passes found fetched sameRun scannable
          moved⟩
      cases result : own.isResult with
      | true =>
          obtain ⟨r', found', kept⟩ :=
            (Option.any_eq_true _ _).mp (keepsRow (by simp [isOwn, result]))
          rw [Bool.and_eq_true, decide_eq_true_iff] at kept
          exact ⟨r', found', kept.1, kept.2⟩
      | false =>
          rw [← sameKey] at found passes ⊢
          exact ⟨r, Manager.step_keeps_row step result passes found,
            CronStore.isFetched_later (System.now_le taken) fetched, sameRun⟩

end

/-- In every run through one call of processCronJobs whose queries are answered in a stable
order, a due row that nobody else changes is tried, when it has a next run and no step disturbs
it before.
-/
theorem sweep_calls_lockJob {β : Type*} [LinearOrder β] {rank : Nat → β} {arith : IntArith}
    {i : Nat} {start s : System} {log : List Observed} {m m' : Manager} {row : CronJob}
    (distinct : Function.Injective rank) (run : Runs (Acts (watch arith)) start log s)
    (sweeper : start.managers[i]? = some m) (begins : m.poll = .counting 1)
    (batch : 1 ≤ m.batchSize) (sweeper' : s.managers[i]? = some m') (ends : m'.poll = .sleeping)
    (found : start.store.jobs.get? row.id = some row)
    (due : start.store.isFetched row = true) (scannable : row.nextRunAt.isSome = true)
    (served : ∀ e ∈ log, e.Served rank i)
    (unchanged : ∀ e ∈ log, ¬ e.ChangesFromOutside i row.id)
    (undisturbed : ∀ before e after, log = before ++ e :: after →
      (∀ x ∈ before, ¬ x.Calls i row.id) → e.Undisturbed rank i row)
    : ∃ e ∈ log, e.Calls i row.id := by
  by_contra never
  have uncalled : ∀ e ∈ log, ¬ e.Calls i row.id := fun e mem called => never ⟨e, mem, called⟩
  have quiet : ∀ e ∈ log, e.Undisturbed rank i row := by
    intro e mem
    obtain ⟨before, after, split⟩ := List.append_of_mem mem
    exact undisturbed before e after split fun x inBefore => uncalled x (by simp [split, inBefore])
  have untried : Untried rank i row s := by
    refine run.invariant (fun log s => (∀ e ∈ log, e.Served rank i
        ∧ ¬ e.ChangesFromOutside i row.id ∧ e.Undisturbed rank i row ∧ ¬ e.Calls i row.id) →
      Untried rank i row s) ?_ ?_
      fun e mem => ⟨served e mem, unchanged e mem, quiet e mem, uncalled e mem⟩
    · refine fun _ => ⟨⟨row, found, due, rfl⟩, m, sweeper, batch, ?_⟩
      rw [begins]
      exact ⟨le_rfl, Nat.zero_mul m.batchSize ▸ Nat.zero_le _⟩
    · intro log s e s' inv step allowed
      obtain ⟨action, watched⟩ := step
      obtain ⟨⟨s', event⟩, taken, same⟩ := Option.map_eq_some_iff.mp watched
      cases same
      obtain ⟨served, unchanged, quiet, uncalled⟩ := allowed _ (List.mem_append_right _ (.head _))
      have before := inv fun x mem => allowed x (List.mem_append_left _ mem)
      exact before.step distinct scannable taken served unchanged quiet uncalled
  obtain ⟨m₁, sweeper₁, -, ahead⟩ := untried.ahead
  obtain rfl : m' = m₁ := Option.some.inj (sweeper'.symm.trans sweeper₁)
  rw [ends] at ahead
  exact ahead

-----------------------------------------------------------------------------------------
-- Two due jobs and a batch of one
-----------------------------------------------------------------------------------------

/-- A manager begins a call when two jobs are due. -/
def schedulesTwoJobs : List SystemAction :=
  [ .newManager "a" ["mail", "report"] GoTime.utc, .manager 0 (.start 2 1),
    .schedule GoTime.utc 0 "mail" "* * * * *" none .answered,
    .schedule GoTime.utc 0 "report" "* * * * *" none .answered, .pass 60000000000,
    .manager 0 .loop ]

def twoJobsDue : System :=
  ((perform (System.step unbounded) (System.initial 0) schedulesTwoJobs).map Prod.fst).getD
    (System.initial 0)

def readsPage (order : List Nat) : List SystemAction :=
  [.countDueCronJobs .answered, .selectDueCronJobs .answered order].map (.manager 0)

/-- The row of the second job. -/
def reportJob : CronJob := CronStore.newJob "report" 60000000000 "* * * * *" .null 0 2

theorem Observed.own_unchanged {i jobID : Nat} {e : Observed} (isOwn : (e.own i).isSome = true)
    : ¬ e.ChangesFromOutside i jobID := by
  intro changes
  rw [changes.1] at isOwn
  cases isOwn

theorem undisturbed_of_all {β : Type*} [LinearOrder β] {rank : Nat → β} {i : Nat}
    {row : CronJob} {log : List Observed} (all : ∀ e ∈ log, e.Undisturbed rank i row)
    : ∀ before e after, log = before ++ e :: after → (∀ x ∈ before, ¬ x.Calls i row.id) →
        e.Undisturbed rank i row := by
  intro before e after h _
  subst h
  exact all e (by simp)

set_option maxRecDepth 4000 in
/-- While the first job is still executed, the second page holds the second job. -/
theorem sweep_calls_lockJob_unfinished
    : ∃ s log, perform (watch unbounded) twoJobsDue
          (readsPage [1, 2] ++ [locksJob 0, .manager 0 .acquire, .manager 0 .endPage]
            ++ readsPage [1, 2] ++ [locksJob 0, .manager 0 .acquire, .manager 0 .endPage])
          = some (s, log)
        ∧ ∃ e ∈ log, e.Calls 0 reportJob.id := by
  have performed := show perform (watch unbounded) twoJobsDue
      (readsPage [1, 2] ++ [locksJob 0, .manager 0 .acquire, .manager 0 .endPage]
        ++ readsPage [1, 2] ++ [locksJob 0, .manager 0 .acquire, .manager 0 .endPage])
    = some (_, _) from rfl
  refine ⟨_, _, performed, ?_⟩
  have found : twoJobsDue.store.jobs.get? reportJob.id = some reportJob := rfl
  refine sweep_calls_lockJob Function.injective_id (runs_of_perform performed) rfl rfl le_rfl rfl
    rfl found rfl rfl (by decide) (fun e mem => ?_) (undisturbed_of_all ?_)
  · exact Observed.own_unchanged (by revert e; decide)
  · decide

set_option maxRecDepth 4000 in
/-- The first job finishes before the second page is read. One row is left in the result set and
OFFSET 1 skips it: the call ends without trying the second job.
-/
theorem finished_job_hides_due_row
    : ∃ m events s log, perform (System.step unbounded) (System.initial 0) schedulesTwoJobs
          = some (twoJobsDue, events)
        ∧ twoJobsDue.managers[0]? = some m ∧ m.poll = .counting 1 ∧ m.batchSize = 1
        ∧ twoJobsDue.store.jobs.get? reportJob.id = some reportJob
        ∧ reportJob.isActive = true
        ∧ CronStore.isDueAt twoJobsDue.store.now reportJob = true
        ∧ perform (watch unbounded) twoJobsDue
            (readsPage [1, 2] ++ [locksJob 0] ++ marksOutcome 0
              ++ [.manager 0 (.updateJobRunTimes .answered), .manager 0 .endPage]
              ++ readsPage [2] ++ [.manager 0 .endPage])
          = some (s, log)
        ∧ (s.managers[0]?).map Manager.poll = some .sleeping
        ∧ (∀ e ∈ log, e.Served id 0 ∧ ¬ e.ChangesFromOutside 0 reportJob.id)
        ∧ ∀ e ∈ log, ¬ e.Calls 0 reportJob.id := by
  refine ⟨_, _, _, _, rfl, rfl, rfl, rfl, rfl, rfl, rfl, rfl, rfl, fun e mem => ⟨?_, ?_⟩, by decide⟩
  · revert e
    decide
  · exact Observed.own_unchanged (by revert e; decide)

end GoFire.CronManager
