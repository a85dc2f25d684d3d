import GoFire.CronManager.Manager

/-! What a step of a manager can do to the store and to the manager, said once for all
invariants.
-/

namespace GoFire.CronManager

open GoFire.State GoFire.Store GoFire.CronParser

namespace Manager

/-- The next run that an execution computes when it begins. -/
def nextRun (arith : IntArith) (s : CronStore) (m : Manager) (job : CronJob) : Int :=
  (calculateNextRun arith job.expression ⟨s.now, m.loc⟩).ns

inductive Moves (arith : IntArith) (s : CronStore) (m : Manager)
    : Action → CronStore × Manager × Event → Prop where
  | start {workerCount batchSize : Nat} (idle : m.poll = .idle)
      : Moves arith s m (.start workerCount batchSize)
          (s, { m with poll := .polling, permits := workerCount, batchSize }, .internal)
  | cancel : Moves arith s m .cancel (s, { m with cancelled := true }, .internal)
  | began (polling : m.poll = .polling) (live : m.cancelled = false)
      : Moves arith s m .loop (s, { m with poll := .counting 1 }, .internal)
  | ended (polling : m.poll = .polling) (cancelled : m.cancelled = true)
      : Moves arith s m .loop (s, { m with poll := .waiting }, .internal)
  | counted {delivery : Delivery} {page totalItems : Nat} (counting : m.poll = .counting page)
      : Moves arith s m (.countDueCronJobs delivery)
          (s, { m with poll := .selecting page totalItems }, .internal)
  | countFailed {delivery : Delivery} {page : Nat} (counting : m.poll = .counting page)
      : Moves arith s m (.countDueCronJobs delivery) (s, { m with poll := .sleeping }, .internal)
  | fetched {delivery : Delivery} {order : List Nat} {page totalItems : Nat}
      {result : PaginationResult CronJob} (selecting : m.poll = .selecting page totalItems)
      (fetched : s.fetchDueCronJobs page m.batchSize totalItems order = some result)
      : Moves arith s m (.selectDueCronJobs delivery order)
          (s, { m with poll := .locking result.items page result.hasNextPage },
            .fetched result.items)
  | selectFailed {delivery : Delivery} {order : List Nat} {page totalItems : Nat}
      (selecting : m.poll = .selecting page totalItems)
      : Moves arith s m (.selectDueCronJobs delivery order)
          (s, { m with poll := .sleeping }, .internal)
  | locked {job : CronJob} {items : List CronJob} {page : Nat} {more : Bool}
      (locking : m.poll = .locking (job :: items) page more)
      (ok : (s.lockJob job.id m.name).2 = true)
      : Moves arith s m (.lockJob .answered)
          ((s.lockJob job.id m.name).1, { m with poll := .acquiring job items page more },
            .locked job)
  | passedOver {delivery : Delivery} {job : CronJob} {items : List CronJob} {page : Nat}
      {more : Bool} (locking : m.poll = .locking (job :: items) page more)
      : Moves arith s m (.lockJob delivery)
          (s, { m with poll := .locking items page more }, .internal)
  | lockLost {job : CronJob} {items : List CronJob} {page : Nat} {more : Bool}
      (locking : m.poll = .locking (job :: items) page more)
      : Moves arith s m (.lockJob .lost)
          ((s.lockJob job.id m.name).1, { m with poll := .locking items page more }, .internal)
  | acquired {job : CronJob} {items : List CronJob} {page : Nat} {more : Bool}
      (acquiring : m.poll = .acquiring job items page more) (free : 0 < m.permits)
      (live : m.cancelled = false)
      : Moves arith s m .acquire
          (s, { m with poll := .locking items page more, permits := m.permits - 1,
                       workers := m.workers ++ [⟨job, .entered⟩] }, .internal)
  | acquireFailed {job : CronJob} {items : List CronJob} {page : Nat} {more : Bool}
      (acquiring : m.poll = .acquiring job items page more) (cancelled : m.cancelled = true)
      : Moves arith s m .acquireFailed
          (s, { m with poll := .locking items page more }, .internal)
  | pageEnded {page : Nat} {more : Bool} (locking : m.poll = .locking [] page more)
      : Moves arith s m .endPage
          (s, { m with poll := if more then .counting (page + 1) else .sleeping }, .internal)
  | woke (sleeping : m.poll = .sleeping)
      : Moves arith s m .wake (s, { m with poll := .polling }, .internal)
  | returned (waiting : m.poll = .waiting) (finished : m.workers.isEmpty = true)
      : Moves arith s m .waitDone (s, { m with poll := .returned }, .internal)
  | entered {i : Nat} {job : CronJob} {args : Args}
      (found : m.workers[i]? = some ⟨job, .entered⟩)
      : Moves arith s m (.enter i)
          (s, { m with workers := m.workers.set i
                         ⟨job, .executing args s.now (m.nextRun arith s job)⟩ }, .internal)
  | refused {i : Nat} {job : CronJob} {err : Option String}
      (found : m.workers[i]? = some ⟨job, .entered⟩)
      : Moves arith s m (.enter i)
          (s, { m with workers := m.workers.set i
                         ⟨job, .sending (jobResult job err s.now (m.nextRun arith s job))⟩ },
            .internal)
  | executed {i : Nat} {job : CronJob} {args : Args} {ranAt nextRun : Int}
      {err : Option String} (found : m.workers[i]? = some ⟨job, .executing args ranAt nextRun⟩)
      : Moves arith s m (.execute i (.returned err))
          (s, { m with workers := m.workers.set i
                         ⟨job, .sending (jobResult job err ranAt nextRun)⟩ }, .internal)
  | panicked {i : Nat}
      : Moves arith s m (.execute i .panicked) (s, m.crashed, .crashed m.processor.pending)
  | sent {i : Nat} {job : CronJob} {result : JobResult}
      (found : m.workers[i]? = some ⟨job, .sending result⟩)
      (room : m.jobResults.length < resultCapacity)
      : Moves arith s m (.send i)
          (s, { m with workers := m.workers.set i ⟨job, .finished⟩,
                       jobResults := m.jobResults ++ [result] }, .internal)
  | finished {i : Nat} {job : CronJob} (found : m.workers[i]? = some ⟨job, .finished⟩)
      : Moves arith s m (.finish i)
          (s, { m with workers := m.workers.eraseIdx i, permits := m.permits + 1 }, .internal)
  | received {result : JobResult} {rest : List JobResult}
      (receiving : m.processor = .receiving) (buffered : m.jobResults = result :: rest)
      : Moves arith s m .receive
          (s, { m with processor := .marking result, jobResults := rest }, .internal)
  | unmarked {result : JobResult} (marking : m.processor = .marking result)
      : Moves arith s m (.mark .refused) (s, { m with processor := .updating result }, .internal)
  | marked {delivery : Delivery} {result : JobResult} (marking : m.processor = .marking result)
      : Moves arith s m (.mark delivery)
          (markOutcome s result, { m with processor := .updating result }, .marked result)
  | updateRefused {result : JobResult} (updating : m.processor = .updating result)
      : Moves arith s m (.updateJobRunTimes .refused)
          (s, { m with processor := .receiving }, .updateRefused result.jobID)
  | updated {delivery : Delivery} {result : JobResult}
      (updating : m.processor = .updating result)
      : Moves arith s m (.updateJobRunTimes delivery)
          (s.updateJobRunTimes result.jobID result.ranAt result.nextRun,
            { m with processor := .receiving }, .updated result.jobID result.nextRun)
  | crash : Moves arith s m .crash (s, m.crashed, .crashed m.processor.pending)

variable {arith : IntArith} {s : CronStore} {m : Manager} {next : CronStore × Manager × Event}

theorem start_moves {workerCount batchSize : Nat}
    (h : m.start s workerCount batchSize = some next)
    : m.Moves arith s (.start workerCount batchSize) next := by
  simp only [start] at h
  split at h
  case h_2 => cases h
  case h_1 idle =>
    cases h
    exact .start idle

theorem loop_moves (h : m.loop s = some next) : m.Moves arith s .loop next := by
  simp only [loop] at h
  split at h
  case h_2 => cases h
  case h_1 polling =>
    cases h
    split
    case isTrue cancelled => exact .ended polling cancelled
    case isFalse live => exact .began polling (Bool.eq_false_iff.mpr live)

theorem countDueCronJobs_moves {delivery : Delivery}
    (h : m.countDueCronJobs s delivery = some next)
    : m.Moves arith s (.countDueCronJobs delivery) next := by
  simp only [countDueCronJobs] at h
  split at h
  case h_2 => cases h
  case h_1 counting =>
    split at h
    case isFalse => cases h
    case isTrue =>
      cases h
      split
      · exact .counted counting
      · exact .countFailed counting

theorem selectDueCronJobs_moves {delivery : Delivery} {order : List Nat}
    (h : m.selectDueCronJobs s delivery order = some next)
    : m.Moves arith s (.selectDueCronJobs delivery order) next := by
  obtain ⟨s', m', event⟩ := next
  obtain ⟨rfl, page, total, selecting, ⟨result, fetched, rfl, rfl⟩ | ⟨rfl, rfl⟩⟩ :=
    selectDueCronJobs_cases h
  · exact .fetched selecting fetched
  · exact .selectFailed selecting

theorem lockJob_moves {delivery : Delivery} (h : m.lockJob s delivery = some next)
    : m.Moves arith s (.lockJob delivery) next := by
  simp only [lockJob] at h
  split at h
  case h_2 => cases h
  case h_1 locking =>
    split at h
    case isFalse => cases h
    case isTrue =>
      cases delivery with
      | answered =>
          simp only at h
          split at h
          case isTrue ok =>
            cases h
            exact .locked locking ok
          case isFalse =>
            cases h
            exact .passedOver locking
      | refused =>
          cases h
          exact .passedOver locking
      | lost =>
          cases h
          exact .lockLost locking

theorem acquire_moves (h : m.acquire s = some next) : m.Moves arith s .acquire next := by
  simp only [acquire] at h
  split at h
  case h_2 => cases h
  case h_1 acquiring =>
    split at h
    case isFalse => cases h
    case isTrue free =>
      cases h
      rw [Bool.and_eq_true, decide_eq_true_iff, Bool.not_eq_true'] at free
      exact .acquired acquiring free.1 free.2

theorem acquireFailed_moves (h : m.acquireFailed s = some next)
    : m.Moves arith s .acquireFailed next := by
  simp only [acquireFailed] at h
  split at h
  case h_2 => cases h
  case h_1 acquiring =>
    split at h
    case isFalse => cases h
    case isTrue cancelled =>
      cases h
      exact .acquireFailed acquiring cancelled

theorem endPage_moves (h : m.endPage s = some next) : m.Moves arith s .endPage next := by
  simp only [endPage] at h
  split at h
  case h_2 => cases h
  case h_1 locking =>
    cases h
    exact .pageEnded locking

theorem wake_moves (h : m.wake s = some next) : m.Moves arith s .wake next := by
  simp only [wake] at h
  split at h
  case h_2 => cases h
  case h_1 sleeping =>
    cases h
    exact .woke sleeping

theorem waitDone_moves (h : m.waitDone s = some next) : m.Moves arith s .waitDone next := by
  simp only [waitDone] at h
  split at h
  case h_2 => cases h
  case h_1 waiting =>
    split at h
    case isFalse => cases h
    case isTrue finished =>
      cases h
      exact .returned waiting finished

theorem enter_moves {i : Nat} (h : m.enter arith s i = some next)
    : m.Moves arith s (.enter i) next := by
  simp only [enter] at h
  split at h
  case h_2 => cases h
  case h_1 found =>
    split at h
    case isFalse =>
      cases h
      exact .refused found
    case isTrue =>
      split at h
      case h_1 =>
        cases h
        exact .entered found
      case h_2 =>
        cases h
        exact .refused found

theorem execute_moves {i : Nat} {outcome : HandlerOutcome}
    (h : m.execute s i outcome = some next)
    : m.Moves arith s (.execute i outcome) next := by
  simp only [execute] at h
  split at h
  case h_2 => cases h
  case h_1 found =>
    cases outcome with
    | returned err =>
        cases h
        exact .executed found
    | panicked =>
        cases h
        exact .panicked

theorem send_moves {i : Nat} (h : m.send s i = some next)
    : m.Moves arith s (.send i) next := by
  simp only [send] at h
  split at h
  case h_2 => cases h
  case h_1 found =>
    split at h
    case isFalse => cases h
    case isTrue room =>
      cases h
      exact .sent found room

theorem finish_moves {i : Nat} (h : m.finish s i = some next)
    : m.Moves arith s (.finish i) next := by
  simp only [finish] at h
  split at h
  case h_2 => cases h
  case h_1 found =>
    cases h
    exact .finished found

theorem receive_moves (h : m.receive s = some next) : m.Moves arith s .receive next := by
  simp only [receive] at h
  split at h
  case h_2 => cases h
  case h_1 receiving buffered =>
    cases h
    exact .received receiving buffered

theorem mark_moves {delivery : Delivery} (h : m.mark s delivery = some next)
    : m.Moves arith s (.mark delivery) next := by
  simp only [mark] at h
  split at h
  case h_2 => cases h
  case h_1 marking =>
    cases delivery with
    | refused =>
        cases h
        exact .unmarked marking
    | answered =>
        cases h
        exact .marked marking
    | lost =>
        cases h
        exact .marked marking

theorem updateJobRunTimes_moves {delivery : Delivery}
    (h : m.updateJobRunTimes s delivery = some next)
    : m.Moves arith s (.updateJobRunTimes delivery) next := by
  simp only [updateJobRunTimes] at h
  split at h
  case h_2 => cases h
  case h_1 updating =>
    cases delivery with
    | refused =>
        cases h
        exact .updateRefused updating
    | answered =>
        cases h
        exact .updated updating
    | lost =>
        cases h
        exact .updated updating

theorem step_moves {action : Action} (h : m.step arith s action = some next)
    : m.Moves arith s action next := by
  cases action with
  | start => exact start_moves h
  | cancel =>
      cases h
      exact .cancel
  | loop => exact loop_moves h
  | countDueCronJobs => exact countDueCronJobs_moves h
  | selectDueCronJobs => exact selectDueCronJobs_moves h
  | lockJob => exact lockJob_moves h
  | acquire => exact acquire_moves h
  | acquireFailed => exact acquireFailed_moves h
  | endPage => exact endPage_moves h
  | wake => exact wake_moves h
  | waitDone => exact waitDone_moves h
  | enter => exact enter_moves h
  | execute => exact execute_moves h
  | send => exact send_moves h
  | finish => exact finish_moves h
  | receive => exact receive_moves h
  | mark => exact mark_moves h
  | updateJobRunTimes => exact updateJobRunTimes_moves h
  | crash =>
      cases h
      exact .crash

end Manager

/-- A manager's action in the system is a step of that manager on the store. -/
theorem System.manager_step {arith : IntArith} {s s' : System} {i : Nat} {action : Action}
    {event : Event} (h : System.step arith s (.manager i action) = some (s', event))
    : ∃ m store m', s.managers[i]? = some m ∧ m.step arith s.store action = some (store, m', event)
        ∧ s' = ⟨store, s.managers.set i m'⟩ := by
  simp only [System.step, Option.bind_eq_bind, Option.bind_eq_some_iff, Prod.exists,
    Option.pure_def, Option.some.injEq, Prod.mk.injEq] at h
  obtain ⟨m, found, store, m', e, taken, same, rfl⟩ := h
  exact ⟨m, store, m', found, taken, same.symm⟩

end GoFire.CronManager
