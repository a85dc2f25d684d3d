import GoFire.QueueManager.Manager

/-! What a step of a manager can do to the store and to the manager, said once for all
invariants.
-/

namespace GoFire.QueueManager

open GoFire.State GoFire.Store

namespace Manager

inductive Moves (s : QueueStore) (m : Manager)
    : Action → QueueStore × Manager × Event → Prop where
  | start {workerCount batchSize : Nat} (idle : m.poll = .idle)
      : Moves s m (.start workerCount batchSize)
          (s, { m with poll := .unlocking, permits := workerCount, batchSize,
                       processor := .receiving }, .internal)
  | unlocked (unlocking : m.poll = .unlocking)
      : Moves s m (.unlockStaleJobs .answered)
          (s.unlockStaleJobs (5 * GoTime.minute), { m with poll := .polling }, .unlocked)
  | unlockRefused : Moves s m (.unlockStaleJobs .refused) (s, m.crashed, .internal)
  | unlockLost
      : Moves s m (.unlockStaleJobs .lost)
          (s.unlockStaleJobs (5 * GoTime.minute), m.crashed, .unlocked)
  | cancel : Moves s m .cancel (s, { m with cancelled := true }, .internal)
  | began (polling : m.poll = .polling) (live : m.cancelled = false)
      : Moves s m .loop (s, { m with poll := .counting s.now }, .internal)
  | ended (polling : m.poll = .polling) (cancelled : m.cancelled = true)
      : Moves s m .loop (s, { m with poll := .waiting }, .internal)
  | counted {delivery : Delivery} {now : Int} {totalItems : Nat}
      (counting : m.poll = .counting now)
      : Moves s m (.countDueJobs delivery)
          (s, { m with poll := .selecting now totalItems }, .internal)
  | countFailed {delivery : Delivery} {now : Int} (counting : m.poll = .counting now)
      : Moves s m (.countDueJobs delivery) (s, { m with poll := .sleeping }, .internal)
  | fetched {delivery : Delivery} {order : List Nat} {now : Int} {totalItems : Nat}
      {result : PaginationResult EnqueuedJob} (selecting : m.poll = .selecting now totalItems)
      (fetched : s.fetchDueJobs 1 m.batchSize pollStatuses (some now) totalItems order
        = some result)
      : Moves s m (.selectDueJobs delivery order)
          (s, { m with poll := .locking result.items }, .fetched result.items)
  | selectFailed {delivery : Delivery} {order : List Nat} {now : Int} {totalItems : Nat}
      (selecting : m.poll = .selecting now totalItems)
      : Moves s m (.selectDueJobs delivery order) (s, { m with poll := .sleeping }, .internal)
  | locked {job : EnqueuedJob} {items : List EnqueuedJob}
      (locking : m.poll = .locking (job :: items)) (ok : (s.lockJob job.id m.name).2 = true)
      : Moves s m (.lockJob .answered)
          ((s.lockJob job.id m.name).1, { m with poll := .acquiring job items }, .locked job)
  | passedOver {delivery : Delivery} {job : EnqueuedJob} {items : List EnqueuedJob}
      (locking : m.poll = .locking (job :: items))
      : Moves s m (.lockJob delivery) (s, { m with poll := .locking items }, .internal)
  | lockLost {job : EnqueuedJob} {items : List EnqueuedJob}
      (locking : m.poll = .locking (job :: items))
      : Moves s m (.lockJob .lost)
          ((s.lockJob job.id m.name).1, { m with poll := .locking items }, .lockLost job.id)
  | acquired {job : EnqueuedJob} {items : List EnqueuedJob}
      (acquiring : m.poll = .acquiring job items) (free : 0 < m.permits)
      (live : m.cancelled = false)
      : Moves s m .acquire
          (s, { m with poll := .locking items, permits := m.permits - 1,
                       workers := m.workers ++ [⟨job, .entered⟩] }, .internal)
  | acquireFailed {job : EnqueuedJob} {items : List EnqueuedJob}
      (acquiring : m.poll = .acquiring job items) (cancelled : m.cancelled = true)
      : Moves s m .acquireFailed (s, { m with poll := .sleeping }, .internal)
  | batchEnded (locking : m.poll = .locking [])
      : Moves s m .endBatch (s, { m with poll := .sleeping }, .internal)
  | woke (sleeping : m.poll = .sleeping)
      : Moves s m .wake (s, { m with poll := .polling }, .internal)
  | returned (waiting : m.poll = .waiting) (finished : m.workers.isEmpty = true)
      : Moves s m .waitDone (s, { m with poll := .returned }, .internal)
  | entered {i : Nat} {job : EnqueuedJob} {args : Args}
      (found : m.workers[i]? = some ⟨job, .entered⟩)
      : Moves s m (.enter i)
          (s, { m with workers := m.workers.set i ⟨job, .executing args⟩ }, .started job)
  | refused {i : Nat} {job : EnqueuedJob} {err : Option String}
      (found : m.workers[i]? = some ⟨job, .entered⟩)
      : Moves s m (.enter i)
          (s, { m with workers := m.workers.set i ⟨job, .sending (jobResult job err)⟩ },
            .reported (jobResult job err))
  | executed {i : Nat} {job : EnqueuedJob} {args : Args} {err : Option String}
      (found : m.workers[i]? = some ⟨job, .executing args⟩)
      : Moves s m (.execute i (.returned err))
          (s, { m with workers := m.workers.set i ⟨job, .sending (jobResult job err)⟩ },
            .reported (jobResult job err))
  | panicked {i : Nat} {job : EnqueuedJob} {args : Args}
      (found : m.workers[i]? = some ⟨job, .executing args⟩)
      : Moves s m (.execute i .panicked)
          (s, { m with workers := m.workers.set i ⟨job, .finished⟩ }, .internal)
  | sent {i : Nat} {job : EnqueuedJob} {result : JobResult}
      (found : m.workers[i]? = some ⟨job, .sending result⟩)
      (room : m.jobResults.length < resultCapacity)
      : Moves s m (.send i)
          (s, { m with workers := m.workers.set i ⟨job, .finished⟩,
                       jobResults := m.jobResults ++ [result] }, .internal)
  | finished {i : Nat} {job : EnqueuedJob} (found : m.workers[i]? = some ⟨job, .finished⟩)
      : Moves s m (.finish i)
          (s, { m with workers := m.workers.eraseIdx i, permits := m.permits + 1 }, .internal)
  | foundByID {jobID : Nat} {delivery : Delivery} {job : EnqueuedJob}
      (found : s.jobs.get? jobID = some job)
      : Moves s m (.findByID jobID delivery)
          (s, { m with manual := m.manual ++ [⟨job, .entered⟩] }, .internal)
  | notFound {jobID : Nat} {delivery : Delivery}
      : Moves s m (.findByID jobID delivery) (s, m, .internal)
  | enteredManual {i : Nat} {job : EnqueuedJob} {args : Args}
      (found : m.manual[i]? = some ⟨job, .entered⟩)
      : Moves s m (.enterManual i)
          (s, { m with manual := m.manual.set i ⟨job, .executing args⟩ }, .manual job)
  | refusedManual {i : Nat} {job : EnqueuedJob} (found : m.manual[i]? = some ⟨job, .entered⟩)
      : Moves s m (.enterManual i)
          (s, { m with manual := m.manual.set i ⟨job, .finished⟩ }, .internal)
  | executedManual {i : Nat} {job : EnqueuedJob} {args : Args} {err : Option String}
      (found : m.manual[i]? = some ⟨job, .executing args⟩)
      : Moves s m (.executeManual i (.returned err))
          (s, { m with manual := m.manual.set i ⟨job, .sending (jobResult job err)⟩ },
            .reported (jobResult job err))
  | panickedManual {i : Nat} {job : EnqueuedJob} {args : Args}
      (found : m.manual[i]? = some ⟨job, .executing args⟩)
      : Moves s m (.executeManual i .panicked)
          (s, { m with manual := m.manual.set i ⟨job, .finished⟩ }, .internal)
  | sentManual {i : Nat} {job : EnqueuedJob} {result : JobResult}
      (found : m.manual[i]? = some ⟨job, .sending result⟩)
      (room : m.jobResults.length < resultCapacity)
      : Moves s m (.sendManual i)
          (s, { m with manual := m.manual.set i ⟨job, .finished⟩,
                       jobResults := m.jobResults ++ [result] }, .internal)
  | received {result : JobResult} {rest : List JobResult}
      (receiving : m.processor = .receiving) (buffered : m.jobResults = result :: rest)
      : Moves s m .receive
          (s, { m with processor := .recording result, jobResults := rest }, .internal)
  | unrecorded {result : JobResult} (recording : m.processor = .recording result)
      : Moves s m (.record .refused) (s, { m with processor := .receiving }, .internal)
  | recorded {delivery : Delivery} {result : JobResult}
      (recording : m.processor = .recording result)
      : Moves s m (.record delivery)
          (recordOutcome s result, { m with processor := .receiving }, .recorded result)
  | stopped (receiving : m.processor = .receiving) (cancelled : m.cancelled = true)
      : Moves s m .stopProcessor (s, { m with processor := .stopped }, .internal)
  | ticked (waiting : m.retryWorker = .waiting)
      : Moves s m .tick (s, { m with retryWorker := .acquiring }, .internal)
  | retryLocked {acquired : Bool} (acquiring : m.retryWorker = .acquiring)
      : Moves s m (.acquireRetryLock acquired)
          (s, { m with retryWorker := if acquired then .sweeping else .stopped }, .internal)
  | sweepFailed (sweeping : m.retryWorker = .sweeping)
      : Moves s m (.markRetryFailedJobs .refused)
          (s, { m with retryWorker := .releasing }, .internal)
  | swept {delivery : Delivery} (sweeping : m.retryWorker = .sweeping)
      : Moves s m (.markRetryFailedJobs delivery)
          (s.markRetryFailedJobs, { m with retryWorker := .releasing }, .swept)
  | retryReleased (releasing : m.retryWorker = .releasing)
      : Moves s m .releaseRetryLock (s, { m with retryWorker := .waiting }, .internal)
  | crash : Moves s m .crash (s, m.crashed, .internal)

variable {s : QueueStore} {m : Manager} {next : QueueStore × Manager × Event}

theorem start_moves {workerCount batchSize : Nat}
    (h : m.start s workerCount batchSize = some next)
    : m.Moves s (.start workerCount batchSize) next := by
  simp only [start] at h
  split at h
  case h_2 => cases h
  case h_1 idle =>
    cases h
    exact .start idle

theorem unlockStaleJobs_moves {delivery : Delivery}
    (h : m.unlockStaleJobs s delivery = some next)
    : m.Moves s (.unlockStaleJobs delivery) next := by
  simp only [unlockStaleJobs] at h
  split at h
  case h_2 => cases h
  case h_1 unlocking =>
    split at h
    case isFalse => cases h
    case isTrue =>
      cases delivery with
      | answered =>
          cases h
          exact .unlocked unlocking
      | refused =>
          cases h
          exact .unlockRefused
      | lost =>
          cases h
          exact .unlockLost

theorem loop_moves (h : m.loop s = some next) : m.Moves s .loop next := by
  simp only [loop] at h
  split at h
  case h_2 => cases h
  case h_1 polling =>
    cases h
    split
    case isTrue cancelled => exact .ended polling cancelled
    case isFalse live => exact .began polling (Bool.eq_false_iff.mpr live)

theorem countDueJobs_moves {delivery : Delivery} (h : m.countDueJobs s delivery = some next)
    : m.Moves s (.countDueJobs delivery) next := by
  simp only [countDueJobs] at h
  split at h
  case h_2 => cases h
  case h_1 counting =>
    split at h
    case isFalse => cases h
    case isTrue =>
      cases h
      split
      · exact .counted counting
      · exact .countFailed counting

theorem selectDueJobs_moves {delivery : Delivery} {order : List Nat}
    (h : m.selectDueJobs s delivery order = some next)
    : m.Moves s (.selectDueJobs delivery order) next := by
  obtain ⟨s', m', event⟩ := next
  obtain ⟨rfl, now, total, selecting, ⟨result, fetched, rfl, rfl⟩ | ⟨rfl, rfl⟩⟩ :=
    selectDueJobs_cases h
  · exact .fetched selecting fetched
  · exact .selectFailed selecting

theorem lockJob_moves {delivery : Delivery} (h : m.lockJob s delivery = some next)
    : m.Moves s (.lockJob delivery) next := by
  simp only [lockJob] at h
  split at h
  case h_2 => cases h
  case h_1 locking =>
    split at h
    case isFalse => cases h
    case isTrue =>
      cases delivery with
      | answered =>
          simp only at h
          split at h
          case isTrue ok =>
            cases h
            exact .locked locking ok
          case isFalse =>
            cases h
            exact .passedOver locking
      | refused =>
          cases h
          exact .passedOver locking
      | lost =>
          cases h
          exact .lockLost locking

theorem acquire_moves (h : m.acquire s = some next) : m.Moves s .acquire next := by
  simp only [acquire] at h
  split at h
  case h_2 => cases h
  case h_1 acquiring =>
    split at h
    case isFalse => cases h
    case isTrue free =>
      cases h
      rw [Bool.and_eq_true, decide_eq_true_iff, Bool.not_eq_true'] at free
      exact .acquired acquiring free.1 free.2

theorem acquireFailed_moves (h : m.acquireFailed s = some next)
    : m.Moves s .acquireFailed next := by
  simp only [acquireFailed] at h
  split at h
  case h_2 => cases h
  case h_1 acquiring =>
    split at h
    case isFalse => cases h
    case isTrue cancelled =>
      cases h
      exact .acquireFailed acquiring cancelled

theorem endBatch_moves (h : m.endBatch s = some next) : m.Moves s .endBatch next := by
  simp only [endBatch] at h
  split at h
  case h_2 => cases h
  case h_1 locking =>
    cases h
    exact .batchEnded locking

theorem wake_moves (h : m.wake s = some next) : m.Moves s .wake next := by
  simp only [wake] at h
  split at h
  case h_2 => cases h
  case h_1 sleeping =>
    cases h
    exact .woke sleeping

theorem waitDone_moves (h : m.waitDone s = some next) : m.Moves s .waitDone next := by
  simp only [waitDone] at h
  split at h
  case h_2 => cases h
  case h_1 waiting =>
    split at h
    case isFalse => cases h
    case isTrue finished =>
      cases h
      exact .returned waiting finished

theorem enter_moves {i : Nat} (h : m.enter s i = some next) : m.Moves s (.enter i) next := by
  simp only [enter] at h
  split at h
  case h_2 => cases h
  case h_1 found =>
    split at h
    case isFalse =>
      cases h
      exact .refused found
    case isTrue =>
      split at h
      case h_1 =>
        cases h
        exact .entered found
      case h_2 =>
        cases h
        exact .refused found

theorem execute_moves {i : Nat} {outcome : HandlerOutcome}
    (h : m.execute s i outcome = some next)
    : m.Moves s (.execute i outcome) next := by
  simp only [execute] at h
  split at h
  case h_2 => cases h
  case h_1 found =>
    cases outcome with
    | returned err =>
        cases h
        exact .executed found
    | panicked =>
        cases h
        exact .panicked found

theorem send_moves {i : Nat} (h : m.send s i = some next) : m.Moves s (.send i) next := by
  simp only [send] at h
  split at h
  case h_2 => cases h
  case h_1 found =>
    split at h
    case isFalse => cases h
    case isTrue room =>
      cases h
      exact .sent found room

theorem finish_moves {i : Nat} (h : m.finish s i = some next)
    : m.Moves s (.finish i) next := by
  simp only [finish] at h
  split at h
  case h_2 => cases h
  case h_1 found =>
    cases h
    exact .finished found

theorem findByID_moves {jobID : Nat} {delivery : Delivery}
    (h : m.findByID s jobID delivery = some next)
    : m.Moves s (.findByID jobID delivery) next := by
  simp only [findByID] at h
  split at h
  case h_1 => cases h
  case h_2 found _ =>
    cases h
    exact .foundByID found
  case h_3 =>
    cases h
    exact .notFound

theorem enterManual_moves {i : Nat} (h : m.enterManual s i = some next)
    : m.Moves s (.enterManual i) next := by
  simp only [enterManual] at h
  split at h
  case h_2 => cases h
  case h_1 found =>
    split at h
    case h_1 =>
      cases h
      exact .enteredManual found
    case h_2 =>
      cases h
      exact .refusedManual found

theorem executeManual_moves {i : Nat} {outcome : HandlerOutcome}
    (h : m.executeManual s i outcome = some next)
    : m.Moves s (.executeManual i outcome) next := by
  simp only [executeManual] at h
  split at h
  case h_2 => cases h
  case h_1 found =>
    cases outcome with
    | returned err =>
        cases h
        exact .executedManual found
    | panicked =>
        cases h
        exact .panickedManual found

theorem sendManual_moves {i : Nat} (h : m.sendManual s i = some next)
    : m.Moves s (.sendManual i) next := by
  simp only [sendManual] at h
  split at h
  case h_2 => cases h
  case h_1 found =>
    split at h
    case isFalse => cases h
    case isTrue room =>
      cases h
      exact .sentManual found room

theorem receive_moves (h : m.receive s = some next) : m.Moves s .receive next := by
  simp only [receive] at h
  split at h
  case h_2 => cases h
  case h_1 receiving buffered =>
    cases h
    exact .received receiving buffered

theorem record_moves {delivery : Delivery} (h : m.record s delivery = some next)
    : m.Moves s (.record delivery) next := by
  simp only [record] at h
  split at h
  case h_2 => cases h
  case h_1 recording =>
    split at h
    case isFalse => cases h
    case isTrue =>
      cases delivery with
      | answered =>
          cases h
          exact .recorded recording
      | refused =>
          cases h
          exact .unrecorded recording
      | lost =>
          cases h
          exact .recorded recording

theorem stopProcessor_moves (h : m.stopProcessor s = some next)
    : m.Moves s .stopProcessor next := by
  simp only [stopProcessor] at h
  split at h
  case h_2 => cases h
  case h_1 receiving =>
    split at h
    case isFalse => cases h
    case isTrue cancelled =>
      cases h
      exact .stopped receiving cancelled

theorem tick_moves (h : m.tick s = some next) : m.Moves s .tick next := by
  simp only [tick] at h
  split at h
  case h_2 => cases h
  case h_1 waiting =>
    cases h
    exact .ticked waiting

theorem acquireRetryLock_moves {acquired : Bool} (h : m.acquireRetryLock s acquired = some next)
    : m.Moves s (.acquireRetryLock acquired) next := by
  simp only [acquireRetryLock] at h
  split at h
  case h_2 => cases h
  case h_1 acquiring =>
    cases h
    exact .retryLocked acquiring

theorem markRetryFailedJobs_moves {delivery : Delivery}
    (h : m.markRetryFailedJobs s delivery = some next)
    : m.Moves s (.markRetryFailedJobs delivery) next := by
  simp only [markRetryFailedJobs] at h
  split at h
  case h_2 => cases h
  case h_1 sweeping =>
    cases delivery with
    | answered =>
        cases h
        exact .swept sweeping
    | refused =>
        cases h
        exact .sweepFailed sweeping
    | lost =>
        cases h
        exact .swept sweeping

theorem releaseRetryLock_moves (h : m.releaseRetryLock s = some next)
    : m.Moves s .releaseRetryLock next := by
  simp only [releaseRetryLock] at h
  split at h
  case h_2 => cases h
  case h_1 releasing =>
    cases h
    exact .retryReleased releasing

theorem step_moves {action : Action} (h : m.step s action = some next)
    : m.Moves s action next := by
  cases action with
  | start => exact start_moves h
  | unlockStaleJobs => exact unlockStaleJobs_moves h
  | cancel =>
      cases h
      exact .cancel
  | loop => exact loop_moves h
  | countDueJobs => exact countDueJobs_moves h
  | selectDueJobs => exact selectDueJobs_moves h
  | lockJob => exact lockJob_moves h
  | acquire => exact acquire_moves h
  | acquireFailed => exact acquireFailed_moves h
  | endBatch => exact endBatch_moves h
  | wake => exact wake_moves h
  | waitDone => exact waitDone_moves h
  | enter => exact enter_moves h
  | execute => exact execute_moves h
  | send => exact send_moves h
  | finish => exact finish_moves h
  | findByID => exact findByID_moves h
  | enterManual => exact enterManual_moves h
  | executeManual => exact executeManual_moves h
  | sendManual => exact sendManual_moves h
  | receive => exact receive_moves h
  | record => exact record_moves h
  | stopProcessor => exact stopProcessor_moves h
  | tick => exact tick_moves h
  | acquireRetryLock => exact acquireRetryLock_moves h
  | markRetryFailedJobs => exact markRetryFailedJobs_moves h
  | releaseRetryLock => exact releaseRetryLock_moves h
  | crash =>
      cases h
      exact .crash

end Manager

/-- A manager's action in the system is a step of that manager on the store. -/
theorem System.manager_step {s s' : System} {i : Nat} {action : Action} {event : Event}
    (h : System.step s (.manager i action) = some (s', event))
    : ∃ m store m', s.managers[i]? = some m ∧ m.step s.store action = some (store, m', event)
        ∧ s' = ⟨store, s.managers.set i m'⟩ := by
  simp only [System.step, Option.bind_eq_bind, Option.bind_eq_some_iff, Prod.exists,
    Option.pure_def, Option.some.injEq, Prod.mk.injEq] at h
  obtain ⟨m, found, store, m', e, taken, same, rfl⟩ := h
  exact ⟨m, store, m', found, taken, same.symm⟩

end GoFire.QueueManager
