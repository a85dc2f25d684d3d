import GoFire.Store.EnqueuedJobStore

/-! StartQueueAndStorageSyncWorker and the consumer goroutine behind Consume. The broker forgets
a message when the consumer takes it; the worker collects the decoded jobs in a batch that
BulkInsert writes to the table.
-/

namespace GoFire.QueueSync

open GoFire.Store

/-- Where the goroutine of Consume is. It closes the channel when it stops. -/
inductive Consumer (μ : Type) where
  | off
  | waiting
  | holding (msg : μ)
  | stopped

/-- Where the goroutine of the worker is. A flush tells whether the context was cancelled when
BulkInsert was called, and whether the worker returns after it.
-/
inductive Worker where
  | starting
  | selecting
  | flushing (late leaving : Bool)
  | stopped

/-- The capacity of the channel between the goroutines. -/
def channelCapacity : Nat := 1000

def batchSize : Nat := 1000

structure System (μ : Type) where
  store : QueueStore
  cancelled : Bool := false
  consumer : Consumer μ := .off
  msgCh : List μ := []
  worker : Worker := .starting
  jobsBatch : List Job := []

inductive Event (μ : Type) where
  | internal
  | delivered (msg : μ)
  | dropped (msg : μ)
  | malformed (msg : μ)
  | leaving
  | inserted (batch : List Job)
  | insertFailed (batch : List Job)

inductive Action (μ : Type) where
  | cancel
  | consume (ok : Bool)
  | deliver (msg : μ)
  | put
  | deliveriesClosed
  | stopConsumer
  | ctxDone
  | receive
  | tick
  | bulkInsert (delivery : Delivery)

namespace System

variable {μ : Type} (decode : μ → Option Job) (s : System μ)

/-- A new worker on an empty table. -/
def initial (μ : Type) (now : Int) : System μ := { store := ⟨.empty, now⟩ }

-----------------------------------------------------------------------------------------
-- The consumer
-----------------------------------------------------------------------------------------

/-- The worker ends when Consume returns an error. -/
def consume (ok : Bool) : Option (System μ × Event μ) :=
  match s.worker, s.consumer with
  | .starting, .off =>
      if ok then some ({ s with consumer := .waiting, worker := .selecting }, .internal)
      else some ({ s with worker := .stopped }, .internal)
  | _, _ => none

def deliver (msg : μ) : Option (System μ × Event μ) :=
  match s.consumer with
  | .waiting => some ({ s with consumer := .holding msg }, .delivered msg)
  | _ => none

def put : Option (System μ × Event μ) :=
  match s.consumer with
  | .holding msg =>
      if s.msgCh.length < channelCapacity then
        some ({ s with consumer := .waiting, msgCh := s.msgCh ++ [msg] }, .internal)
      else none
  | _ => none

def deliveriesClosed : Option (System μ × Event μ) :=
  match s.consumer with
  | .waiting => some ({ s with consumer := .stopped }, .internal)
  | _ => none

/-- Once the context is cancelled either select of the consumer may end it. -/
def stopConsumer : Option (System μ × Event μ) :=
  if s.cancelled then
    match s.consumer with
    | .waiting => some ({ s with consumer := .stopped }, .internal)
    | .holding msg => some ({ s with consumer := .stopped }, .dropped msg)
    | _ => none
  else none

-----------------------------------------------------------------------------------------
-- The worker
-----------------------------------------------------------------------------------------

/-- Where the worker goes on after a flush. -/
def resume (leaving : Bool) : Worker := if leaving then .stopped else .selecting

/-- flushBatch calls BulkInsert for a batch that is not empty. -/
def flushBatch (leaving : Bool) : System μ :=
  { s with worker := if s.jobsBatch.isEmpty then resume leaving
                     else .flushing s.cancelled leaving }

def ctxDone : Option (System μ × Event μ) :=
  match s.worker with
  | .selecting => if s.cancelled then some (s.flushBatch true, .leaving) else none
  | _ => none

/-- The worker reads the channel; it is closed when the consumer has stopped and everything in
it is read.
-/
def receive : Option (System μ × Event μ) :=
  match s.worker, s.msgCh, s.consumer with
  | .selecting, msg :: rest, _ =>
      match decode msg with
      | some job =>
          let after := { s with msgCh := rest, jobsBatch := s.jobsBatch ++ [job] }
          some (if batchSize ≤ after.jobsBatch.length then after.flushBatch false else after,
            .internal)
      | none => some ({ s with msgCh := rest }, .malformed msg)
  | .selecting, [], .stopped => some (s.flushBatch true, .internal)
  | _, _, _ => none

def tick : Option (System μ × Event μ) :=
  match s.worker with
  | .selecting => some (s.flushBatch false, .internal)
  | _ => none

/-- A call with a cancelled context fails without inserting. The batch is dropped whatever the
answer is.
-/
def bulkInsert (delivery : Delivery) : Option (System μ × Event μ) :=
  match s.worker with
  | .flushing late leaving =>
      if !late || delivery = .refused then
        let after := { s with worker := resume leaving, jobsBatch := [] }
        match delivery with
        | .refused => some (after, .insertFailed s.jobsBatch)
        | _ => some ({ after with store := s.store.bulkInsert s.jobsBatch }, .inserted s.jobsBatch)
      else none
  | _ => none

/-- One step of the worker, its consumer or the context. -/
def step : Action μ → Option (System μ × Event μ)
  | .cancel => some ({ s with cancelled := true }, .internal)
  | .consume ok => s.consume ok
  | .deliver msg => s.deliver msg
  | .put => s.put
  | .deliveriesClosed => s.deliveriesClosed
  | .stopConsumer => s.stopConsumer
  | .ctxDone => s.ctxDone
  | .receive => s.receive decode
  | .tick => s.tick
  | .bulkInsert delivery => s.bulkInsert delivery

end System

end GoFire.QueueSync
