import GoFire.CronParser.NextRun
import GoFire.Store.CronJobStore

/-! CronJobManager as a state machine. Its poll loop, job goroutines and result processor take
steps of their own; a step makes at most one statement on the store or one operation on the
semaphore, the wait group or the result channel.
-/

namespace GoFire.CronManager

open GoFire.State GoFire.Store GoFire.CronParser

/-- Where the goroutine of Start is. `more` is HasNextPage of the page in hand. -/
inductive Poll where
  | idle
  | polling
  | counting (page : Nat)
  | selecting (page : Nat) (totalItems : Nat)
  | locking (items : List CronJob) (page : Nat) (more : Bool)
  | acquiring (job : CronJob) (items : List CronJob) (page : Nat) (more : Bool)
  | sleeping
  | waiting
  | returned
  | crashed

/-- Where an execution of a job is. -/
inductive Stage where
  | entered
  | executing (args : Args) (ranAt nextRun : Int)
  | sending (result : JobResult)
  | finished

structure Execution where
  job : CronJob
  stage : Stage

/-- The processor writes the outcome of a result first and its run times after it. -/
inductive Processor where
  | receiving
  | marking (result : JobResult)
  | updating (result : JobResult)
  | stopped

/-- `workers` are the job goroutines the wait group counts, `permits` the free weight of the
semaphore. The result processor runs from the creation of the manager on.
-/
structure Manager where
  name : String
  handlers : List String
  loc : GoTime.Location
  batchSize : Nat := 0
  permits : Nat := 0
  poll : Poll := .idle
  workers : List Execution := []
  jobResults : List JobResult := []
  processor : Processor := .receiving
  cancelled : Bool := false

/-- What an observer of the jobs sees of a step. -/
inductive Event where
  | internal
  | fetched (items : List CronJob)
  | locked (job : CronJob)
  | marked (result : JobResult)
  | updated (jobID : Nat) (nextRunAt : Int)
  | updateRefused (jobID : Nat)
  | scheduled (jobID : Nat) (nextRunAt : Int)
  | activated (jobID : Nat)
  | deactivated (jobID : Nat)
  | crashed (updating : Option Nat)

inductive Action where
  | start (workerCount batchSize : Nat)
  | cancel
  | loop
  | countDueCronJobs (delivery : Delivery)
  | selectDueCronJobs (delivery : Delivery) (order : List Nat)
  | lockJob (delivery : Delivery)
  | acquire
  | acquireFailed
  | endPage
  | wake
  | waitDone
  | enter (i : Nat)
  | execute (i : Nat) (outcome : HandlerOutcome)
  | send (i : Nat)
  | finish (i : Nat)
  | receive
  | mark (delivery : Delivery)
  | updateJobRunTimes (delivery : Delivery)
  | crash

def errorToJobStatus (err : Option String) : JobStatus :=
  if err.isSome then .failed else .succeeded

def jobResult (job : CronJob) (err : Option String) (ranAt nextRun : Int) : JobResult :=
  { jobID := job.id, err, status := errorToJobStatus err, ranAt, nextRun }

/-- The first statement the result processor makes for a result. Both guards compare
constants.
-/
def markOutcome (s : CronStore) (res : JobResult) : CronStore :=
  match res.status with
  | .succeeded =>
      if isValidTransition .processing .succeeded then s.markSuccess res.jobID else s
  | .failed =>
      if isValidTransition .processing .failed then
        s.markFailure res.jobID (res.err.getD "")
      else s
  | _ => s

def Processor.pending : Processor → Option Nat
  | .updating result => some result.jobID
  | _ => none

namespace Manager

/-- A statement made with a cancelled context is refused. -/
def mayDeliver (m : Manager) (delivery : Delivery) : Bool :=
  !m.cancelled || delivery = .refused

/-- The process ends: nothing the manager held in memory is left. -/
def crashed (m : Manager) : Manager :=
  { m with poll := .crashed, workers := [], jobResults := [], processor := .stopped,
           cancelled := true }

section Start

variable (s : CronStore) (m : Manager)

def start (workerCount batchSize : Nat) : Option (CronStore × Manager × Event) :=
  match m.poll with
  | .idle =>
      some (s, { m with poll := .polling, permits := workerCount, batchSize }, .internal)
  | _ => none

/-- Each round of the loop looks at the context and begins with the first page. -/
def loop : Option (CronStore × Manager × Event) :=
  match m.poll with
  | .polling =>
      some (s, { m with poll := if m.cancelled then .waiting else .counting 1 }, .internal)
  | _ => none

def countDueCronJobs (delivery : Delivery) : Option (CronStore × Manager × Event) :=
  match m.poll with
  | .counting page =>
      if m.mayDeliver delivery then
        let total := s.countDueCronJobs
        some (s, { m with poll := if delivery = .answered then .selecting page total
                                  else .sleeping }, .internal)
      else none
  | _ => none

def selectDueCronJobs (delivery : Delivery) (order : List Nat)
    : Option (CronStore × Manager × Event) :=
  match m.poll with
  | .selecting page total =>
      if m.mayDeliver delivery then
        match delivery with
        | .answered => do
            let result ← s.fetchDueCronJobs page m.batchSize total order
            some (s, { m with poll := .locking result.items page result.hasNextPage },
              .fetched result.items)
        | _ => some (s, { m with poll := .sleeping }, .internal)
      else none
  | _ => none

/-- A job that cannot be locked is passed over, also when the lock was taken but the answer
lost.
-/
def lockJob (delivery : Delivery) : Option (CronStore × Manager × Event) :=
  match m.poll with
  | .locking (job :: items) page more =>
      if m.mayDeliver delivery then
        let (locked, ok) := s.lockJob job.id m.name
        let passedOver := { m with poll := .locking items page more }
        match delivery with
        | .answered =>
            if ok then
              some (locked, { m with poll := .acquiring job items page more }, .locked job)
            else some (s, passedOver, .internal)
        | .refused => some (s, passedOver, .internal)
        | .lost => some (locked, passedOver, .internal)
      else none
  | _ => none

/-- With a permit the job gets its goroutine. -/
def acquire : Option (CronStore × Manager × Event) :=
  match m.poll with
  | .acquiring job items page more =>
      if 0 < m.permits && !m.cancelled then
        some (s, { m with poll := .locking items page more, permits := m.permits - 1,
                          workers := m.workers ++ [⟨job, .entered⟩] }, .internal)
      else none
  | _ => none

/-- Once the context is cancelled Acquire fails; the loop goes on with the next job. -/
def acquireFailed : Option (CronStore × Manager × Event) :=
  match m.poll with
  | .acquiring _ items page more =>
      if m.cancelled then some (s, { m with poll := .locking items page more }, .internal)
      else none
  | _ => none

def endPage : Option (CronStore × Manager × Event) :=
  match m.poll with
  | .locking [] page more =>
      some (s, { m with poll := if more then .counting (page + 1) else .sleeping }, .internal)
  | _ => none

def wake : Option (CronStore × Manager × Event) :=
  match m.poll with
  | .sleeping => some (s, { m with poll := .polling }, .internal)
  | _ => none

/-- Start returns when the wait group counts no goroutine. -/
def waitDone : Option (CronStore × Manager × Event) :=
  match m.poll with
  | .waiting =>
      if m.workers.isEmpty then some (s, { m with poll := .returned }, .internal) else none
  | _ => none

end Start

section ExecuteJob

variable (arith : IntArith) (s : CronStore) (m : Manager)

/-- executeJob reads the clock in the local zone and computes the next run from the fetched
expression before it looks up the handler.
-/
def enter (i : Nat) : Option (CronStore × Manager × Event) :=
  match m.workers[i]? with
  | some ⟨job, .entered⟩ =>
      let moveTo (stage : Stage) := { m with workers := m.workers.set i ⟨job, stage⟩ }
      let nextRun := (calculateNextRun arith job.expression ⟨s.now, m.loc⟩).ns
      if m.handlers.contains job.name then
        match unmarshalArgs job.payload with
        | some args => some (s, moveTo (.executing args s.now nextRun), .internal)
        | none =>
            let res := jobResult job (some "invalid payload") s.now nextRun
            some (s, moveTo (.sending res), .internal)
      else
        let res := jobResult job (some "handler not found") s.now nextRun
        some (s, moveTo (.sending res), .internal)
  | _ => none

/-- A panic is not recovered and ends the process. -/
def execute (i : Nat) (outcome : HandlerOutcome) : Option (CronStore × Manager × Event) :=
  match m.workers[i]? with
  | some ⟨job, .executing _ ranAt nextRun⟩ =>
      match outcome with
      | .returned err =>
          let res := jobResult job err ranAt nextRun
          some (s, { m with workers := m.workers.set i ⟨job, .sending res⟩ }, .internal)
      | .panicked => some (s, m.crashed, .crashed m.processor.pending)
  | _ => none

def send (i : Nat) : Option (CronStore × Manager × Event) :=
  match m.workers[i]? with
  | some ⟨job, .sending res⟩ =>
      if m.jobResults.length < resultCapacity then
        some (s, { m with workers := m.workers.set i ⟨job, .finished⟩,
                          jobResults := m.jobResults ++ [res] }, .internal)
      else none
  | _ => none

/-- The deferred calls leave the wait group and release the permit. -/
def finish (i : Nat) : Option (CronStore × Manager × Event) :=
  match m.workers[i]? with
  | some ⟨_, .finished⟩ =>
      some (s, { m with workers := m.workers.eraseIdx i, permits := m.permits + 1 }, .internal)
  | _ => none

end ExecuteJob

section Background

variable (s : CronStore) (m : Manager)

def receive : Option (CronStore × Manager × Event) :=
  match m.processor, m.jobResults with
  | .receiving, res :: rest =>
      some (s, { m with processor := .marking res, jobResults := rest }, .internal)
  | _, _ => none

/-- An error of the statement is logged; the run times are updated all the same. -/
def mark (delivery : Delivery) : Option (CronStore × Manager × Event) :=
  match m.processor with
  | .marking res =>
      let after := { m with processor := .updating res }
      match delivery with
      | .refused => some (s, after, .internal)
      | _ => some (markOutcome s res, after, .marked res)
  | _ => none

def updateJobRunTimes (delivery : Delivery) : Option (CronStore × Manager × Event) :=
  match m.processor with
  | .updating res =>
      let after := { m with processor := .receiving }
      match delivery with
      | .refused => some (s, after, .updateRefused res.jobID)
      | _ =>
          some (s.updateJobRunTimes res.jobID res.ranAt res.nextRun, after,
            .updated res.jobID res.nextRun)
  | _ => none

end Background

/-- One step of a manager on the shared store. -/
def step (arith : IntArith) (s : CronStore) (m : Manager)
    : Action → Option (CronStore × Manager × Event)
  | .start workerCount batchSize => m.start s workerCount batchSize
  | .cancel => some (s, { m with cancelled := true }, .internal)
  | .loop => m.loop s
  | .countDueCronJobs delivery => m.countDueCronJobs s delivery
  | .selectDueCronJobs delivery order => m.selectDueCronJobs s delivery order
  | .lockJob delivery => m.lockJob s delivery
  | .acquire => m.acquire s
  | .acquireFailed => m.acquireFailed s
  | .endPage => m.endPage s
  | .wake => m.wake s
  | .waitDone => m.waitDone s
  | .enter i => m.enter arith s i
  | .execute i outcome => m.execute s i outcome
  | .send i => m.send s i
  | .finish i => m.finish s i
  | .receive => m.receive s
  | .mark delivery => m.mark s delivery
  | .updateJobRunTimes delivery => m.updateJobRunTimes s delivery
  | .crash => some (s, m.crashed, .crashed m.processor.pending)

/-- The select query leaves the store and ends with a page or, on an error, with a pause. -/
theorem selectDueCronJobs_cases {s s' : CronStore} {m m' : Manager} {delivery : Delivery}
    {order : List Nat} {event : Event}
    (h : m.selectDueCronJobs s delivery order = some (s', m', event))
    : s' = s ∧ ∃ page total, m.poll = .selecting page total
      ∧ ((∃ result, s.fetchDueCronJobs page m.batchSize total order = some result
          ∧ m' = { m with poll := .locking result.items page result.hasNextPage }
          ∧ event = .fetched result.items)
        ∨ (m' = { m with poll := .sleeping } ∧ event = .internal)) := by
  simp only [selectDueCronJobs] at h
  split at h
  case h_2 => cases h
  case h_1 page total selecting =>
    split at h
    case isFalse => cases h
    case isTrue =>
      cases delivery with
      | answered =>
          simp only [Option.bind_eq_bind, Option.bind_eq_some_iff] at h
          obtain ⟨result, fetched, h⟩ := h
          cases h
          exact ⟨rfl, page, total, selecting, Or.inl ⟨result, fetched, rfl, rfl⟩⟩
      | refused =>
          cases h
          exact ⟨rfl, page, total, selecting, Or.inr ⟨rfl, rfl⟩⟩
      | lost =>
          cases h
          exact ⟨rfl, page, total, selecting, Or.inr ⟨rfl, rfl⟩⟩

end Manager

/-- Any number of managers over one cron store. -/
structure System where
  store : CronStore
  managers : List Manager

inductive SystemAction where
  | pass (duration : Nat)
  | schedule (loc : GoTime.Location) (readAt : Int) (jobName expression : String)
      (args : Args) (delivery : Delivery)
  | activate (jobID : Nat) (delivery : Delivery)
  | deActivate (jobID : Nat) (delivery : Delivery)
  | newManager (name : String) (handlers : List String) (loc : GoTime.Location)
  | manager (i : Nat) (action : Action)

namespace System

/-- An empty table and no manager. -/
def initial (now : Int) : System := ⟨⟨.empty, now⟩, []⟩

/-- Schedule computes the first run from the clock it read in its local zone, then makes the
statement.
-/
def schedule (arith : IntArith) (s : System) (loc : GoTime.Location) (readAt : Int)
    (jobName expression : String) (args : Args) (delivery : Delivery)
    : Option (System × Event) :=
  if readAt ≤ s.store.now then
    let scheduledAt := (calculateNextRun arith expression ⟨readAt, loc⟩).ns
    match delivery with
    | .refused => some (s, .internal)
    | _ =>
        let (store, jobID) := s.store.addOrUpdate jobName scheduledAt expression args
        some ({ s with store }, .scheduled jobID scheduledAt)
  else none

/-- DeActivate returns without an error only when its statement is answered. -/
def step (arith : IntArith) (s : System) : SystemAction → Option (System × Event)
  | .pass duration =>
      some ({ s with store := { s.store with now := s.store.now + duration } }, .internal)
  | .schedule loc readAt jobName expression args delivery =>
      s.schedule arith loc readAt jobName expression args delivery
  | .activate jobID delivery =>
      match delivery with
      | .refused => some (s, .internal)
      | _ => some ({ s with store := s.store.activate jobID }, .activated jobID)
  | .deActivate jobID delivery =>
      match delivery with
      | .refused => some (s, .internal)
      | .answered => some ({ s with store := s.store.deActivate jobID }, .deactivated jobID)
      | .lost => some ({ s with store := s.store.deActivate jobID }, .internal)
  | .newManager name handlers loc =>
      some ({ s with managers := s.managers ++ [{ name, handlers, loc }] }, .internal)
  | .manager i action => do
      let m ← s.managers[i]?
      let (store, m', event) ← m.step arith s.store action
      return (⟨store, s.managers.set i m'⟩, event)

end System

-----------------------------------------------------------------------------------------
-- Rounds of a manager with one job in the table, for runs of the model
-----------------------------------------------------------------------------------------

/-- Two managers, and a job that is due every minute. -/
def schedulesJob : List SystemAction :=
  [ .newManager "a" ["mail"] GoTime.utc, .newManager "b" ["mail"] GoTime.utc,
    .manager 0 (.start 1 10), .manager 1 (.start 1 10),
    .schedule GoTime.utc 0 "mail" "* * * * *" none .answered ]

def passesMinute : List SystemAction := [.pass 60000000000]

def polls (i : Nat) : List SystemAction :=
  [.loop, .countDueCronJobs .answered, .selectDueCronJobs .answered [1]].map (.manager i)

def locksJob (i : Nat) : SystemAction := .manager i (.lockJob .answered)

/-- The manager executes the job it locked and writes the outcome. -/
def marksOutcome (i : Nat) : List SystemAction :=
  [ .acquire, .enter 0, .execute 0 (.returned none), .send 0, .finish 0, .receive,
    .mark .answered ].map (.manager i)

/-- The manager writes the run times and ends the round. -/
def updatesRunTimes (i : Nat) : List SystemAction :=
  [.updateJobRunTimes .answered, .endPage, .wake].map (.manager i)

end GoFire.CronManager
