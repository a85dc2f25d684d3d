import GoFire.Foundations.TransitionSystem
import GoFire.QueueSync.WorkerSteps
import GoFire.Store.QueueRows
import Mathlib.Algebra.Order.Group.Multiset
import Mathlib.Tactic.Abel

/-! No job is lost between the broker and the table. A refused BulkInsert loses its batch, and a
cancellation loses what the consumer holds and what nobody reads any more.
-/

namespace GoFire.QueueSync

open GoFire.Store TransitionSystem

variable {μ : Type} (decode : μ → Option Job)

/-- What the table keeps of jobs. -/
abbrev Content := String × Json × Int

/-- The contents of the jobs that messages or a batch are about. -/
def jobContents (jobs : List Job) : Multiset Content := jobs.map QueueStore.jobContent

def msgContents (msgs : List μ) : Multiset Content := jobContents (msgs.filterMap decode)

/-- The message in the hand of the consumer. -/
def Consumer.hand : Consumer μ → List μ
  | .holding msg => [msg]
  | _ => []

namespace System

/-- The jobs on their way to the worker. -/
def unread (s : System μ) : Multiset Content :=
  msgContents decode s.consumer.hand + msgContents decode s.msgCh

/-- The jobs on their way to the table. -/
def pending (s : System μ) : Multiset Content := s.unread decode + jobContents s.jobsBatch

def inserted (s : System μ) : Multiset Content := s.store.jobs.rows.map QueueStore.content

end System

/-- The jobs that a step takes from the broker. -/
def Event.delivery : Event μ → Multiset Content
  | .delivered msg => msgContents decode [msg]
  | _ => 0

/-- The jobs that a step loses. -/
def Event.loss : Event μ → Multiset Content
  | .dropped msg => msgContents decode [msg]
  | .insertFailed batch => jobContents batch
  | _ => 0

theorem msgContents_cons (msg : μ) (msgs : List μ)
    : msgContents decode (msg :: msgs) = msgContents decode [msg] + msgContents decode msgs := by
  cases h : decode msg with
  | none => simp [msgContents, jobContents, h]
  | some job => simp [msgContents, jobContents, h]

theorem msgContents_append (msgs more : List μ)
    : msgContents decode (msgs ++ more) = msgContents decode msgs + msgContents decode more := by
  simp only [msgContents, jobContents, List.filterMap_append, List.map_append, Multiset.coe_add]

theorem jobContents_append (jobs more : List Job)
    : jobContents (jobs ++ more) = jobContents jobs + jobContents more := by
  simp only [jobContents, List.map_append, Multiset.coe_add]

-----------------------------------------------------------------------------------------
-- Every step balances
-----------------------------------------------------------------------------------------

/-- What is inserted or pending changes by what a step takes from the broker and loses. -/
def Balanced (s : System μ) (next : System μ × Event μ) : Prop :=
  next.1.inserted + next.1.pending decode + next.2.loss decode
    = s.inserted + s.pending decode + next.2.delivery decode

namespace System

variable {s : System μ} {next : System μ × Event μ}

/-- A step that moves nothing. -/
theorem balanced_internal {s' : System μ} (sameStore : s'.store = s.store)
    (sameHand : s'.consumer.hand = s.consumer.hand) (sameChannel : s'.msgCh = s.msgCh)
    (sameBatch : s'.jobsBatch = s.jobsBatch)
    : Balanced decode s (s', .internal) := by
  simp only [Balanced, inserted, pending, unread, sameStore, sameHand, sameChannel, sameBatch,
    Event.loss, Event.delivery]

/-- A flush moves nothing before its statement is made. -/
theorem flushBatch_balanced {s' : System μ} {leaving : Bool} {event : Event μ}
    (h : Balanced decode s (s', event))
    : Balanced decode s (s'.flushBatch leaving, event) := h

theorem read_balanced {msg : μ} {rest : List μ} {job : Job} (unread : s.msgCh = msg :: rest)
    (decoded : decode msg = some job)
    : Balanced decode s
        ({ s with msgCh := rest, jobsBatch := s.jobsBatch ++ [job] }, .internal) := by
  have content : msgContents decode [msg] = jobContents [job] := by
    simp [msgContents, decoded]
  simp only [Balanced, inserted, pending, System.unread, unread, Event.loss, Event.delivery,
    jobContents_append]
  rw [msgContents_cons decode msg rest, content]
  abel

/-- BulkInsert moves the batch to the table. -/
theorem inserted_bulkInsert (s : System μ) (worker : Worker)
    : inserted { s with store := s.store.bulkInsert s.jobsBatch, worker, jobsBatch := [] }
      = s.inserted + jobContents s.jobsBatch := by
  change (↑((s.store.bulkInsert s.jobsBatch).jobs.rows.map QueueStore.content)
      : Multiset Content) = _
  rw [QueueStore.contents_bulkInsert, ← Multiset.coe_add]
  rfl

theorem step_balanced {action : Action μ} (h : s.step decode action = some next)
    : Balanced decode s next := by
  have noMsgs : msgContents decode ([] : List μ) = 0 := rfl
  have noJobs : jobContents [] = 0 := rfl
  cases step_moves h with
  | cancel | consumeFailed => exact balanced_internal decode rfl rfl rfl rfl
  | consumed _ idle | deliveriesClosed idle | consumerStopped idle =>
      exact balanced_internal decode rfl (by rw [idle]; rfl) rfl rfl
  | delivered waiting =>
      simp only [Balanced, inserted, pending, System.unread, waiting, Consumer.hand, Event.loss,
        Event.delivery, noMsgs]
      abel
  | put holding =>
      simp only [Balanced, inserted, pending, System.unread, holding, Consumer.hand, Event.loss,
        Event.delivery, noMsgs, msgContents_append]
      abel
  | dropped holding =>
      simp only [Balanced, inserted, pending, System.unread, holding, Consumer.hand, Event.loss,
        Event.delivery, noMsgs]
      abel
  | leaving | drained | ticked => rfl
  | @malformed msg rest _ unread undecoded =>
      have nothing : msgContents decode [msg] = 0 := by
        simp [msgContents, jobContents, undecoded]
      simp only [Balanced, inserted, pending, System.unread, unread, Event.loss, Event.delivery]
      rw [msgContents_cons decode msg rest, nothing, zero_add]
  | read _ unread decoded => exact read_balanced decode unread decoded
  | filled _ unread decoded =>
      exact flushBatch_balanced decode (read_balanced decode unread decoded)
  | insertFailed =>
      simp only [Balanced, inserted, pending, System.unread, Event.loss, Event.delivery, noJobs]
      abel
  | inserted =>
      rw [Balanced, inserted_bulkInsert]
      simp only [pending, System.unread, Event.loss, Event.delivery, noJobs]
      abel

end System

/-- In every run, the delivered jobs are those inserted, those pending and those lost. -/
theorem delivered_eq {now : Int} {log : List (Event μ)} {s : System μ}
    (run : Runs (Acts (System.step decode)) (System.initial μ now) log s)
    : total (Event.delivery decode) log
      = s.inserted + s.pending decode + total (Event.loss decode) log := by
  have conserved := run.conserved (fun s => s.inserted + s.pending decode)
    (Event.delivery decode) (Event.loss decode)
    (by
      intro s event s' h
      obtain ⟨action, taken⟩ := h
      have balanced := System.step_balanced decode taken
      exact balanced)
  have empty : (System.initial μ now).inserted + (System.initial μ now).pending decode = 0 := rfl
  rw [conserved, empty, zero_add]

-----------------------------------------------------------------------------------------
-- Runs that lose nothing
-----------------------------------------------------------------------------------------

/-- The worker has begun to return. -/
def Worker.leaves : Worker → Bool
  | .flushing _ leaving => leaving
  | .stopped => true
  | _ => false

/-- No message on its way to the worker is about a job. -/
def System.drained (s : System μ) : Bool :=
  (s.consumer.hand ++ s.msgCh).all (fun msg => (decode msg).isNone)

/-- The consumer stops with no job in its hand, BulkInsert does not fail, the worker takes up a
cancellation when no job is on its way to it, and is delivered none after that.
-/
def Retains (s : System μ) : Event μ → Prop
  | .delivered msg => s.worker.leaves = true → (decode msg).isNone = true
  | .dropped msg => (decode msg).isNone = true
  | .leaving => s.drained decode = true
  | .insertFailed _ => False
  | _ => True

instance (s : System μ) : ∀ event, Decidable (Retains decode s event)
  | .delivered msg => inferInstanceAs (Decidable (_ = true → (decode msg).isNone = true))
  | .dropped msg => inferInstanceAs (Decidable ((decode msg).isNone = true))
  | .leaving => inferInstanceAs (Decidable (s.drained decode = true))
  | .insertFailed _ => isFalse id
  | .internal => isTrue trivial
  | .malformed _ => isTrue trivial
  | .inserted _ => isTrue trivial

/-- Once the worker has begun to return no job is on its way to it, and it stops with an empty
batch; nothing is there before the consumer starts.
-/
structure Settling (s : System μ) : Prop where
  drained : s.worker.leaves = true → s.drained decode = true
  flushed : s.worker = .stopped → s.jobsBatch = []
  unstarted : s.consumer = .off → s.msgCh = [] ∧ s.jobsBatch = []

namespace Settling

variable {decode} {s s' : System μ} {event : Event μ}

/-- A flush that the worker does not leave after. -/
theorem of_flush (inv : Settling decode s)
    : Settling decode (s.flushBatch false) := by
  refine ⟨fun leaves => ?_, fun stopped => ?_, inv.unstarted⟩
  · simp only [System.flushBatch] at leaves
    split at leaves
    · cases leaves
    · cases leaves
  · simp only [System.flushBatch] at stopped
    split at stopped
    · cases stopped
    · cases stopped

/-- The last flush of a worker that no job is on its way to. -/
theorem of_last_flush (inv : Settling decode s) (drained : s.drained decode = true)
    : Settling decode (s.flushBatch true) := by
  refine ⟨fun _ => drained, fun stopped => ?_, inv.unstarted⟩
  simp only [System.flushBatch] at stopped
  split at stopped
  case isTrue empty => exact List.isEmpty_iff.mp empty
  case isFalse => cases stopped

/-- A step of the consumer. -/
theorem of_consumer (inv : Settling decode s) {consumer : Consumer μ} {msgCh : List μ}
    (started : consumer ≠ .off)
    (drained : s.worker.leaves = true
      → System.drained decode { s with consumer, msgCh } = true)
    : Settling decode { s with consumer, msgCh } :=
  ⟨drained, inv.flushed, fun off => absurd off started⟩

/-- A worker that goes on reads the channel. -/
theorem of_read (inv : Settling decode s) {msg : μ} {rest : List μ} {batch : List Job}
    (selecting : s.worker = .selecting) (unread : s.msgCh = msg :: rest)
    : Settling decode { s with msgCh := rest, jobsBatch := batch } := by
  refine ⟨fun leaves => ?_, fun stopped => ?_, fun off => ?_⟩
  · simp [selecting, Worker.leaves] at leaves
  · rw [selecting] at stopped
    cases stopped
  · rw [(inv.unstarted off).1] at unread
    cases unread

/-- The statement of a flush is made. -/
theorem of_statement (inv : Settling decode s) {late leaving : Bool}
    (flushing : s.worker = .flushing late leaving) (store : QueueStore)
    : Settling decode { s with store, worker := System.resume leaving, jobsBatch := [] } := by
  refine ⟨fun leaves => ?_, fun _ => rfl, fun off => ⟨(inv.unstarted off).1, rfl⟩⟩
  cases leaving with
  | true => exact inv.drained (by rw [flushing]; rfl)
  | false => cases leaves

theorem step (inv : Settling decode s) (h : Acts (System.step decode) s event s')
    (retains : Retains decode s event)
    : Settling decode s' := by
  obtain ⟨action, h⟩ := h
  cases System.step_moves h with
  | cancel => exact ⟨inv.drained, inv.flushed, inv.unstarted⟩
  | consumed => exact ⟨Bool.noConfusion, Worker.noConfusion, fun off => by cases off⟩
  | consumeFailed _ off =>
      obtain ⟨empty, noBatch⟩ := inv.unstarted off
      refine ⟨fun _ => ?_, fun _ => noBatch, fun _ => ⟨empty, noBatch⟩⟩
      simp [System.drained, off, empty, Consumer.hand]
  | delivered waiting =>
      refine inv.of_consumer (by simp) fun leaves => ?_
      have before := inv.drained leaves
      simp only [System.drained, waiting, Consumer.hand, List.nil_append] at before
      simp only [System.drained, Consumer.hand, List.singleton_append, List.all_cons, before,
        retains leaves, Bool.and_self]
  | put holding =>
      refine inv.of_consumer (by simp) fun leaves => ?_
      have before := inv.drained leaves
      simp only [System.drained, holding, Consumer.hand, List.all_append] at before
      simp only [System.drained, Consumer.hand, List.nil_append, List.all_append]
      rw [Bool.and_comm]
      exact before
  | deliveriesClosed waiting | consumerStopped waiting =>
      refine inv.of_consumer (by simp) fun leaves => ?_
      simpa only [System.drained, waiting, Consumer.hand] using inv.drained leaves
  | dropped holding =>
      refine inv.of_consumer (by simp) fun leaves => ?_
      have before := inv.drained leaves
      simp only [System.drained, holding, Consumer.hand, List.all_append,
        Bool.and_eq_true] at before
      simpa only [System.drained, Consumer.hand, List.nil_append] using before.2
  | leaving => exact inv.of_last_flush retains
  | malformed selecting unread => exact inv.of_read selecting unread
  | read selecting unread => exact inv.of_read selecting unread
  | filled selecting unread => exact (inv.of_read selecting unread).of_flush
  | drained _ empty stopped =>
      apply inv.of_last_flush
      simp [System.drained, empty, stopped, Consumer.hand]
  | ticked => exact inv.of_flush
  | insertFailed flushing => exact inv.of_statement flushing _
  | inserted flushing => exact inv.of_statement flushing _

theorem initial (now : Int) : Settling decode (System.initial μ now) :=
  ⟨nofun, nofun, fun _ => ⟨rfl, rfl⟩⟩

/-- A worker that has stopped has nothing pending. -/
theorem pending_eq_zero (inv : Settling decode s) (stopped : s.worker = .stopped)
    : s.pending decode = 0 := by
  have drained := inv.drained (by rw [stopped]; rfl)
  have none (msgs : List μ) (undecoded : msgs.all (fun msg => (decode msg).isNone) = true)
      : msgContents decode msgs = 0 := by
    have nothing : msgs.filterMap decode = [] := by
      apply List.filterMap_eq_nil_iff.mpr
      intro msg mem
      exact Option.isNone_iff_eq_none.mp (List.all_eq_true.mp undecoded msg mem)
    rw [msgContents, nothing]
    rfl
  rw [System.drained, List.all_append, Bool.and_eq_true] at drained
  rw [System.pending, System.unread, none _ drained.1, none _ drained.2, inv.flushed stopped]
  rfl

end Settling

/-- In every run whose steps retain their jobs, the delivered jobs are those inserted and those
pending, and nothing is pending when the worker has stopped.
-/
theorem no_job_lost {now : Int} {log : List (Event μ)} {s : System μ}
    (run : Runs (Guarded (Acts (System.step decode)) (Retains decode)) (System.initial μ now) log s)
    : total (Event.delivery decode) log = s.inserted + s.pending decode
      ∧ (s.worker = .stopped → s.pending decode = 0) := by
  have unguarded : Runs (Acts (System.step decode)) (System.initial μ now) log s :=
    run.map (f := id) fun _ _ _ h => h.1
  have noLoss : total (Event.loss decode) log = 0 := by
    refine run.invariant (fun log _ => total (Event.loss decode) log = 0) rfl ?_
    intro log s event s' inv h
    obtain ⟨-, retains⟩ := h
    rw [total_append, inv, zero_add, total_cons, total_nil, add_zero]
    cases event with
    | dropped msg =>
        have undecoded := Option.isNone_iff_eq_none.mp retains
        simp [Event.loss, msgContents, jobContents, undecoded]
    | insertFailed => exact absurd retains id
    | _ => rfl
  have settling : Settling decode s := by
    refine run.invariant (fun _ s => Settling decode s) (.initial now) ?_
    intro log s event s' inv h
    exact inv.step h.1 h.2
  refine ⟨?_, settling.pending_eq_zero⟩
  rw [delivered_eq decode unguarded, noLoss, add_zero]

-----------------------------------------------------------------------------------------
-- A cancellation while a job is in the batch
-----------------------------------------------------------------------------------------

/-- The worker takes a job into its batch; here a message is what it decodes to. -/
def takesMail : List (Action (Option Job)) :=
  [.consume true, .deliver (some ⟨"mail", none, 0⟩), .put, .receive]

/-- A malformed message and a tick, then the broker closes the channel. -/
theorem no_job_lost_closed
    : ∃ s log, perform (System.step id) (System.initial _ 0)
          (takesMail ++ [ .deliver none, .put, .receive, .tick, .bulkInsert .answered,
            .deliveriesClosed, .receive ]) = some (s, log)
        ∧ s.worker = .stopped
        ∧ total (Event.delivery id) log = s.inserted + s.pending id ∧ s.pending id = 0 := by
  have performed :=
    show perform (restrict (System.step id) (Retains id)) (System.initial _ 0)
        (takesMail ++ [ .deliver none, .put, .receive, .tick, .bulkInsert .answered,
          .deliveriesClosed, .receive ])
      = some (_, _)
    from rfl
  obtain ⟨balance, settled⟩ := no_job_lost id (runs_of_perform_restrict performed)
  exact ⟨_, _, perform_of_restrict performed, rfl, balance, settled rfl⟩

/-- The context is cancelled before the next tick. The worker flushes its batch with the
cancelled context, which fails, and returns.
-/
theorem cancelled_batch_lost
    : ∃ s log, perform (System.step id) (System.initial _ 0)
          (takesMail ++ [.cancel, .ctxDone, .bulkInsert .refused]) = some (s, log)
        ∧ s.worker = .stopped
        ∧ total (Event.delivery id) log = {("mail", .null, 0)}
        ∧ s.inserted = 0 ∧ s.pending id = 0 :=
  ⟨_, _, rfl, rfl, rfl, rfl, rfl⟩

end GoFire.QueueSync
