import GoFire.Store.EnqueuedJobStore

/-! EnqueueJobsManager as a state machine. Its poll loop, job goroutines, result processor,
retry worker and manual executions take steps of their own; a step makes at most one statement
on the store or one operation on the semaphore, the wait group or the result channel.
-/

namespace GoFire.QueueManager

open GoFire.State GoFire.Store

/-- Where the goroutine of Start is. -/
inductive Poll where
  | idle
  | unlocking
  | polling
  | counting (now : Int)
  | selecting (now : Int) (totalItems : Nat)
  | locking (items : List EnqueuedJob)
  | acquiring (job : EnqueuedJob) (items : List EnqueuedJob)
  | sleeping
  | waiting
  | returned
  | crashed

/-- Where an execution of a job is. -/
inductive Stage where
  | entered
  | executing (args : Args)
  | sending (result : JobResult)
  | finished

structure Execution where
  job : EnqueuedJob
  stage : Stage

inductive Processor where
  | off
  | receiving
  | recording (result : JobResult)
  | stopped

inductive RetryWorker where
  | waiting
  | acquiring
  | sweeping
  | releasing
  | stopped

/-- `workers` are the job goroutines the wait group counts, `permits` the free weight of the
semaphore.
-/
structure Manager where
  name : String
  handlers : List String
  batchSize : Nat := 0
  permits : Nat := 0
  poll : Poll := .idle
  workers : List Execution := []
  manual : List Execution := []
  jobResults : List JobResult := []
  processor : Processor := .off
  retryWorker : RetryWorker := .waiting
  cancelled : Bool := false

/-- What an observer of the jobs sees of a step. -/
inductive Event where
  | internal
  | fetched (items : List EnqueuedJob)
  | locked (job : EnqueuedJob)
  | lockLost (jobID : Nat)
  | started (job : EnqueuedJob)
  | reported (result : JobResult)
  | recorded (result : JobResult)
  | swept
  | unlocked
  | manual (job : EnqueuedJob)

inductive Action where
  | start (workerCount batchSize : Nat)
  | unlockStaleJobs (delivery : Delivery)
  | cancel
  | loop
  | countDueJobs (delivery : Delivery)
  | selectDueJobs (delivery : Delivery) (order : List Nat)
  | lockJob (delivery : Delivery)
  | acquire
  | acquireFailed
  | endBatch
  | wake
  | waitDone
  | enter (i : Nat)
  | execute (i : Nat) (outcome : HandlerOutcome)
  | send (i : Nat)
  | finish (i : Nat)
  | findByID (jobID : Nat) (delivery : Delivery)
  | enterManual (i : Nat)
  | executeManual (i : Nat) (outcome : HandlerOutcome)
  | sendManual (i : Nat)
  | receive
  | record (delivery : Delivery)
  | stopProcessor
  | tick
  | acquireRetryLock (acquired : Bool)
  | markRetryFailedJobs (delivery : Delivery)
  | releaseRetryLock
  | crash

def errorToJobStatus (err : Option String) : JobStatus :=
  if err.isSome then .failed else .succeeded

/-- The result an execution sends; attempts count on from the row as it was fetched. -/
def jobResult (job : EnqueuedJob) (err : Option String) : JobResult :=
  { jobID := job.id, err, attempts := job.attempts + 1, maxAttempts := job.maxAttempts,
    status := errorToJobStatus err }

/-- The statuses processDueJobs asks for. -/
def pollStatuses : List JobStatus := [.queued, .retrying]

/-- The statement the result processor makes for a result. Both guards compare constants. -/
def recordOutcome (s : QueueStore) (res : JobResult) : QueueStore :=
  match res.status with
  | .succeeded =>
      if isValidTransition .processing .succeeded then s.markSuccess res.jobID else s
  | .failed =>
      if isValidTransition .processing .failed then
        s.markFailure res.jobID (res.err.getD "") res.attempts res.maxAttempts
      else s
  | _ => s

namespace Manager

/-- A statement made with a cancelled context is refused. -/
def mayDeliver (m : Manager) (delivery : Delivery) : Bool :=
  !m.cancelled || delivery = .refused

/-- The process ends: nothing the manager held in memory is left. -/
def crashed (m : Manager) : Manager :=
  { m with poll := .crashed, workers := [], manual := [], jobResults := [],
           processor := .stopped, retryWorker := .stopped, cancelled := true }

section Start

variable (s : QueueStore) (m : Manager)

/-- Start first starts the result processor. -/
def start (workerCount batchSize : Nat) : Option (QueueStore × Manager × Event) :=
  match m.poll with
  | .idle =>
      some (s, { m with poll := .unlocking, permits := workerCount, batchSize,
                        processor := .receiving }, .internal)
  | _ => none

/-- An error of UnlockStaleJobs is fatal for the process. -/
def unlockStaleJobs (delivery : Delivery) : Option (QueueStore × Manager × Event) :=
  match m.poll with
  | .unlocking =>
      if m.mayDeliver delivery then
        match delivery with
        | .answered =>
            some (s.unlockStaleJobs (5 * GoTime.minute), { m with poll := .polling }, .unlocked)
        | .refused => some (s, m.crashed, .internal)
        | .lost => some (s.unlockStaleJobs (5 * GoTime.minute), m.crashed, .unlocked)
      else none
  | _ => none

/-- Each round of the loop looks at the context first; processDueJobs begins by reading the
clock.
-/
def loop : Option (QueueStore × Manager × Event) :=
  match m.poll with
  | .polling =>
      some (s, { m with poll := if m.cancelled then .waiting else .counting s.now }, .internal)
  | _ => none

def countDueJobs (delivery : Delivery) : Option (QueueStore × Manager × Event) :=
  match m.poll with
  | .counting now =>
      if m.mayDeliver delivery then
        let total := s.countDueJobs pollStatuses (some now)
        some (s, { m with poll := if delivery = .answered then .selecting now total
                                  else .sleeping }, .internal)
      else none
  | _ => none

def selectDueJobs (delivery : Delivery) (order : List Nat)
    : Option (QueueStore × Manager × Event) :=
  match m.poll with
  | .selecting now total =>
      if m.mayDeliver delivery then
        match delivery with
        | .answered => do
            let result ← s.fetchDueJobs 1 m.batchSize pollStatuses (some now) total order
            some (s, { m with poll := .locking result.items }, .fetched result.items)
        | _ => some (s, { m with poll := .sleeping }, .internal)
      else none
  | _ => none

/-- A job that cannot be locked is passed over, also when the lock was taken but the answer
lost.
-/
def lockJob (delivery : Delivery) : Option (QueueStore × Manager × Event) :=
  match m.poll with
  | .locking (job :: items) =>
      if m.mayDeliver delivery then
        let (locked, ok) := s.lockJob job.id m.name
        match delivery with
        | .answered =>
            if ok then some (locked, { m with poll := .acquiring job items }, .locked job)
            else some (s, { m with poll := .locking items }, .internal)
        | .refused => some (s, { m with poll := .locking items }, .internal)
        | .lost => some (locked, { m with poll := .locking items }, .lockLost job.id)
      else none
  | _ => none

/-- With a permit the job gets its goroutine. -/
def acquire : Option (QueueStore × Manager × Event) :=
  match m.poll with
  | .acquiring job items =>
      if 0 < m.permits && !m.cancelled then
        some (s, { m with poll := .locking items, permits := m.permits - 1,
                          workers := m.workers ++ [⟨job, .entered⟩] }, .internal)
      else none
  | _ => none

/-- Once the context is cancelled Acquire fails, and the rest of the batch is dropped. -/
def acquireFailed : Option (QueueStore × Manager × Event) :=
  match m.poll with
  | .acquiring _ _ =>
      if m.cancelled then some (s, { m with poll := .sleeping }, .internal) else none
  | _ => none

def endBatch : Option (QueueStore × Manager × Event) :=
  match m.poll with
  | .locking [] => some (s, { m with poll := .sleeping }, .internal)
  | _ => none

def wake : Option (QueueStore × Manager × Event) :=
  match m.poll with
  | .sleeping => some (s, { m with poll := .polling }, .internal)
  | _ => none

/-- Start returns when the wait group counts no goroutine. -/
def waitDone : Option (QueueStore × Manager × Event) :=
  match m.poll with
  | .waiting =>
      if m.workers.isEmpty then some (s, { m with poll := .returned }, .internal) else none
  | _ => none

end Start

section HandleJob

variable (s : QueueStore) (m : Manager)

/-- handleJob looks up the handler and decodes the payload before it executes the job. -/
def enter (i : Nat) : Option (QueueStore × Manager × Event) :=
  match m.workers[i]? with
  | some ⟨job, .entered⟩ =>
      let moveTo (stage : Stage) := { m with workers := m.workers.set i ⟨job, stage⟩ }
      if m.handlers.contains job.name then
        match unmarshalArgs job.payload with
        | some args => some (s, moveTo (.executing args), .started job)
        | none =>
            let res := jobResult job (some "invalid payload")
            some (s, moveTo (.sending res), .reported res)
      else
        let res := jobResult job (some "handler not found")
        some (s, moveTo (.sending res), .reported res)
  | _ => none

/-- A panic is recovered and leaves no result. -/
def execute (i : Nat) (outcome : HandlerOutcome) : Option (QueueStore × Manager × Event) :=
  match m.workers[i]? with
  | some ⟨job, .executing _⟩ =>
      let moveTo (stage : Stage) := { m with workers := m.workers.set i ⟨job, stage⟩ }
      match outcome with
      | .returned err =>
          let res := jobResult job err
          some (s, moveTo (.sending res), .reported res)
      | .panicked => some (s, moveTo .finished, .internal)
  | _ => none

def send (i : Nat) : Option (QueueStore × Manager × Event) :=
  match m.workers[i]? with
  | some ⟨job, .sending res⟩ =>
      if m.jobResults.length < resultCapacity then
        some (s, { m with workers := m.workers.set i ⟨job, .finished⟩,
                          jobResults := m.jobResults ++ [res] }, .internal)
      else none
  | _ => none

/-- The deferred calls release the permit and leave the wait group. -/
def finish (i : Nat) : Option (QueueStore × Manager × Event) :=
  match m.workers[i]? with
  | some ⟨_, .finished⟩ =>
      some (s, { m with workers := m.workers.eraseIdx i, permits := m.permits + 1 }, .internal)
  | _ => none

end HandleJob

section ExecuteJobManually

variable (s : QueueStore) (m : Manager)

/-- ExecuteJobManually begins with the row that the store's FindByID returns. -/
def findByID (jobID : Nat) (delivery : Delivery) : Option (QueueStore × Manager × Event) :=
  match m.poll, delivery, s.jobs.get? jobID with
  | .crashed, _, _ => none
  | _, .answered, some job =>
      some (s, { m with manual := m.manual ++ [⟨job, .entered⟩] }, .internal)
  | _, _, _ => some (s, m, .internal)

/-- Without a handler or with a bad payload the call returns an error and no result. -/
def enterManual (i : Nat) : Option (QueueStore × Manager × Event) :=
  match m.manual[i]? with
  | some ⟨job, .entered⟩ =>
      match m.handlers.contains job.name, unmarshalArgs job.payload with
      | true, some args =>
          some (s, { m with manual := m.manual.set i ⟨job, .executing args⟩ }, .manual job)
      | _, _ => some (s, { m with manual := m.manual.set i ⟨job, .finished⟩ }, .internal)
  | _ => none

/-- A panic goes on to the caller. -/
def executeManual (i : Nat) (outcome : HandlerOutcome)
    : Option (QueueStore × Manager × Event) :=
  match m.manual[i]? with
  | some ⟨job, .executing _⟩ =>
      let moveTo (stage : Stage) := { m with manual := m.manual.set i ⟨job, stage⟩ }
      match outcome with
      | .returned err =>
          let res := jobResult job err
          some (s, moveTo (.sending res), .reported res)
      | .panicked => some (s, moveTo .finished, .internal)
  | _ => none

def sendManual (i : Nat) : Option (QueueStore × Manager × Event) :=
  match m.manual[i]? with
  | some ⟨job, .sending res⟩ =>
      if m.jobResults.length < resultCapacity then
        some (s, { m with manual := m.manual.set i ⟨job, .finished⟩,
                          jobResults := m.jobResults ++ [res] }, .internal)
      else none
  | _ => none

end ExecuteJobManually

section Background

variable (s : QueueStore) (m : Manager)

def receive : Option (QueueStore × Manager × Event) :=
  match m.processor, m.jobResults with
  | .receiving, res :: rest =>
      some (s, { m with processor := .recording res, jobResults := rest }, .internal)
  | _, _ => none

/-- An error of the statement is logged and the result is gone. -/
def record (delivery : Delivery) : Option (QueueStore × Manager × Event) :=
  match m.processor with
  | .recording res =>
      if m.mayDeliver delivery then
        let after := { m with processor := .receiving }
        match delivery with
        | .refused => some (s, after, .internal)
        | _ => some (recordOutcome s res, after, .recorded res)
      else none
  | _ => none

def stopProcessor : Option (QueueStore × Manager × Event) :=
  match m.processor with
  | .receiving =>
      if m.cancelled then some (s, { m with processor := .stopped }, .internal) else none
  | _ => none

def tick : Option (QueueStore × Manager × Event) :=
  match m.retryWorker with
  | .waiting => some (s, { m with retryWorker := .acquiring }, .internal)
  | _ => none

/-- The retry worker ends when it cannot acquire its lock. -/
def acquireRetryLock (acquired : Bool) : Option (QueueStore × Manager × Event) :=
  match m.retryWorker with
  | .acquiring =>
      some (s, { m with retryWorker := if acquired then .sweeping else .stopped }, .internal)
  | _ => none

def markRetryFailedJobs (delivery : Delivery) : Option (QueueStore × Manager × Event) :=
  match m.retryWorker with
  | .sweeping =>
      let after := { m with retryWorker := .releasing }
      match delivery with
      | .refused => some (s, after, .internal)
      | _ => some (s.markRetryFailedJobs, after, .swept)
  | _ => none

def releaseRetryLock : Option (QueueStore × Manager × Event) :=
  match m.retryWorker with
  | .releasing => some (s, { m with retryWorker := .waiting }, .internal)
  | _ => none

end Background

/-- One step of a manager on the shared store. -/
def step (s : QueueStore) (m : Manager) : Action → Option (QueueStore × Manager × Event)
  | .start workerCount batchSize => m.start s workerCount batchSize
  | .unlockStaleJobs delivery => m.unlockStaleJobs s delivery
  | .cancel => some (s, { m with cancelled := true }, .internal)
  | .loop => m.loop s
  | .countDueJobs delivery => m.countDueJobs s delivery
  | .selectDueJobs delivery order => m.selectDueJobs s delivery order
  | .lockJob delivery => m.lockJob s delivery
  | .acquire => m.acquire s
  | .acquireFailed => m.acquireFailed s
  | .endBatch => m.endBatch s
  | .wake => m.wake s
  | .waitDone => m.waitDone s
  | .enter i => m.enter s i
  | .execute i outcome => m.execute s i outcome
  | .send i => m.send s i
  | .finish i => m.finish s i
  | .findByID jobID delivery => m.findByID s jobID delivery
  | .enterManual i => m.enterManual s i
  | .executeManual i outcome => m.executeManual s i outcome
  | .sendManual i => m.sendManual s i
  | .receive => m.receive s
  | .record delivery => m.record s delivery
  | .stopProcessor => m.stopProcessor s
  | .tick => m.tick s
  | .acquireRetryLock acquired => m.acquireRetryLock s acquired
  | .markRetryFailedJobs delivery => m.markRetryFailedJobs s delivery
  | .releaseRetryLock => m.releaseRetryLock s
  | .crash => some (s, m.crashed, .internal)

/-- The select query leaves the store and ends with a batch or, on an error, with a pause. -/
theorem selectDueJobs_cases {s s' : QueueStore} {m m' : Manager} {delivery : Delivery}
    {order : List Nat} {event : Event}
    (h : m.selectDueJobs s delivery order = some (s', m', event))
    : s' = s ∧ ∃ now total, m.poll = .selecting now total
      ∧ ((∃ result, s.fetchDueJobs 1 m.batchSize pollStatuses (some now) total order = some result
          ∧ m' = { m with poll := .locking result.items } ∧ event = .fetched result.items)
        ∨ (m' = { m with poll := .sleeping } ∧ event = .internal)) := by
  simp only [selectDueJobs] at h
  split at h
  case h_2 => cases h
  case h_1 now total selecting =>
    split at h
    case isFalse => cases h
    case isTrue =>
      cases delivery with
      | answered =>
          simp only [Option.bind_eq_bind, Option.bind_eq_some_iff] at h
          obtain ⟨result, fetched, h⟩ := h
          cases h
          exact ⟨rfl, now, total, selecting, Or.inl ⟨result, fetched, rfl, rfl⟩⟩
      | refused =>
          cases h
          exact ⟨rfl, now, total, selecting, Or.inr ⟨rfl, rfl⟩⟩
      | lost =>
          cases h
          exact ⟨rfl, now, total, selecting, Or.inr ⟨rfl, rfl⟩⟩

end Manager

/-- Any number of managers over one queue store. -/
structure System where
  store : QueueStore
  managers : List Manager

inductive SystemAction where
  | pass (duration : Nat)
  | insert (jobName : String) (enqueueAt : Int) (args : Args)
  | bulkInsert (batch : List Job)
  | removeByID (jobID : Nat)
  | newManager (name : String) (handlers : List String)
  | manager (i : Nat) (action : Action)

namespace System

/-- An empty table and no manager. -/
def initial (now : Int) : System := ⟨⟨.empty, now⟩, []⟩

def step (s : System) : SystemAction → Option (System × Event)
  | .pass duration =>
      some ({ s with store := { s.store with now := s.store.now + duration } }, .internal)
  | .insert jobName enqueueAt args =>
      some ({ s with store := s.store.insert jobName enqueueAt args }, .internal)
  | .bulkInsert batch => some ({ s with store := s.store.bulkInsert batch }, .internal)
  | .removeByID jobID =>
      some ({ s with store := (s.store.removeByID jobID).1 }, .internal)
  | .newManager name handlers =>
      some ({ s with managers := s.managers ++ [{ name, handlers }] }, .internal)
  | .manager i action => do
      let m ← s.managers[i]?
      let (store, m', event) ← m.step s.store action
      return (⟨store, s.managers.set i m'⟩, event)

end System

-----------------------------------------------------------------------------------------
-- Rounds of a manager with one job in the table, for runs of the model
-----------------------------------------------------------------------------------------

def oneManager : List SystemAction := [.insert "mail" 0 none, .newManager "a" ["mail"]]

def twoManagers : List SystemAction := oneManager ++ [.newManager "b" ["mail"]]

def begins (i : Nat) : List SystemAction :=
  [.start 1 10, .unlockStaleJobs .answered].map (.manager i)

def polls (i : Nat) : List SystemAction :=
  [.loop, .countDueJobs .answered, .selectDueJobs .answered [1]].map (.manager i)

/-- The manager locks the job at the head of its batch and starts its handler. -/
def takesJob (i : Nat) : List SystemAction :=
  [.lockJob .answered, .acquire, .enter 0].map (.manager i)

/-- The handler returns and its outcome is recorded. -/
def returnsJob (i : Nat) (err : Option String) : List SystemAction :=
  [.execute 0 (.returned err), .send 0, .finish 0, .receive, .record .answered].map (.manager i)

/-- The rest of the round and a retry sweep; a minute later a failed job is due again. -/
def sweeps (i : Nat) : List SystemAction :=
  [ .endBatch, .wake, .tick, .acquireRetryLock true, .markRetryFailedJobs .answered,
    .releaseRetryLock ].map (.manager i) ++ [.pass 60000000000]

/-- A manual execution fails and its result reaches the processor. -/
def failsManually (i : Nat) : List SystemAction :=
  [ .findByID 1 .answered, .enterManual 0, .executeManual 0 (.returned (some "refused")),
    .sendManual 0, .receive ].map (.manager i)

end GoFire.QueueManager
