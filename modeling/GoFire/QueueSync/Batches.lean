import GoFire.Foundations.TransitionSystem
import GoFire.QueueSync.WorkerSteps

/-! The batches of the sync worker: they hold the well-formed jobs it has read, in their order and
once each, and have between 1 and 1000 jobs.
-/

namespace GoFire.QueueSync

open GoFire.Store TransitionSystem

/-- What a step shows of the worker: the message it reads, and the batch it hands to
BulkInsert.
-/
structure Observation (μ : Type) where
  read : Option μ
  handed : Option (List Job)

namespace System

variable {μ : Type} (decode : μ → Option Job)

def readMessage (s : System μ) (action : Action μ) : Option μ :=
  match action, s.worker with
  | .receive, .selecting => s.msgCh.head?
  | _, _ => none

/-- BulkInsert is called when a flush begins. -/
def handedBatch (s s' : System μ) : Option (List Job) :=
  match s.worker, s'.worker with
  | .flushing _ _, _ => none
  | _, .flushing _ _ => some s'.jobsBatch
  | _, _ => none

/-- A step with what it shows of the worker. -/
def observe (s : System μ) (action : Action μ) : Option (System μ × Observation μ) :=
  (s.step decode action).map
    fun next => (next.1, ⟨s.readMessage action, s.handedBatch next.1⟩)

/-- The jobs that are not handed over yet. During a flush the batch belongs to BulkInsert, and is
dropped after it.
-/
def pendingBatch (s : System μ) : List Job :=
  match s.worker with
  | .flushing _ _ => []
  | _ => s.jobsBatch

/-- The sizes of the batch in hand. -/
def Sized (s : System μ) : Prop :=
  match s.worker with
  | .flushing _ _ => 1 ≤ s.jobsBatch.length ∧ s.jobsBatch.length ≤ batchSize
  | _ => s.jobsBatch.length < batchSize

variable {decode} {s s' : System μ} {action : Action μ} {shown : Observation μ}

/-- All runs of the worker can be observed. -/
theorem observed_run {start : System μ} {log : List (Event μ)}
    (run : Runs (Acts (step decode)) start log s)
    : ∃ observations, Runs (Acts (observe decode)) start observations s := by
  induction run with
  | stop => exact ⟨[], .stop⟩
  | step before last ih =>
      obtain ⟨observations, observed⟩ := ih
      obtain ⟨action, taken⟩ := last
      exact ⟨_, observed.step ⟨action, by rw [observe, taken]; rfl⟩⟩

-----------------------------------------------------------------------------------------
-- One step
-----------------------------------------------------------------------------------------

/-- A flush hands over the whole batch, or nothing of an empty one. -/
theorem flushBatch_hands {before : System μ} (selecting : before.worker = .selecting)
    (leaving : Bool)
    : (before.handedBatch (s.flushBatch leaving)).toList.flatten
        ++ (s.flushBatch leaving).pendingBatch
      = s.jobsBatch := by
  cases leaving <;> cases batch : s.jobsBatch <;>
    simp [handedBatch, pendingBatch, flushBatch, selecting, resume, batch]

theorem flushBatch_sized (leaving : Bool) (full : s.jobsBatch.length ≤ batchSize)
    : (s.flushBatch leaving).Sized := by
  cases leaving <;> cases batch : s.jobsBatch <;>
    simp_all [Sized, flushBatch, resume, batchSize]

/-- A step that leaves the worker and its batch alone hands nothing over. -/
theorem unchanged_batches (sameWorker : s'.worker = s.worker)
    (sameBatch : s'.jobsBatch = s.jobsBatch)
    : (s.handedBatch s').toList.flatten ++ s'.pendingBatch = s.pendingBatch := by
  simp only [handedBatch, pendingBatch, sameWorker, sameBatch]
  cases s.worker <;> rfl

/-- What a step hands over and keeps is what was pending and the job it reads. -/
theorem moves_batches {next : System μ × Event μ} (h : s.Moves decode action next)
    : (s.handedBatch next.1).toList.flatten ++ next.1.pendingBatch
      = s.pendingBatch ++ (s.readMessage action).toList.filterMap decode := by
  cases h with
  | cancel | delivered | put | deliveriesClosed | consumerStopped | dropped =>
      exact (unchanged_batches rfl rfl).trans (List.append_nil _).symm
  | consumed starting | consumeFailed starting =>
      simp [handedBatch, pendingBatch, readMessage, starting]
  | leaving selecting | ticked selecting =>
      rw [flushBatch_hands selecting]
      simp [pendingBatch, readMessage, selecting]
  | drained selecting empty =>
      rw [flushBatch_hands selecting]
      simp [pendingBatch, readMessage, selecting, empty]
  | malformed selecting unread undecoded =>
      simp [handedBatch, pendingBatch, readMessage, selecting, unread, undecoded]
  | read selecting unread decoded =>
      simp [handedBatch, pendingBatch, readMessage, selecting, unread, decoded]
  | filled selecting unread decoded =>
      rw [flushBatch_hands selecting]
      simp [pendingBatch, readMessage, selecting, unread, decoded]
  | @insertFailed _ leaves flushing | @inserted _ _ leaves flushing =>
      cases leaves <;> simp [handedBatch, pendingBatch, readMessage, flushing, resume]

/-- The batch in hand keeps its bounds. -/
theorem moves_sized {next : System μ × Event μ} (h : s.Moves decode action next) (sized : s.Sized)
    : next.1.Sized := by
  cases h with
  | cancel | delivered | put | deliveriesClosed | consumerStopped | dropped => exact sized
  | consumed starting | consumeFailed starting =>
      simpa [Sized, starting] using sized
  | leaving selecting | ticked selecting | drained selecting =>
      apply flushBatch_sized
      simp only [Sized, selecting] at sized
      exact sized.le
  | malformed selecting => simpa [Sized, selecting] using sized
  | read selecting _ _ collects => simpa [Sized, selecting] using collects
  | filled selecting =>
      apply flushBatch_sized
      simp only [Sized, selecting] at sized
      rw [List.length_append, List.length_singleton]
      exact sized
  | @insertFailed _ leaves | @inserted _ _ leaves =>
      cases leaves <;> simp [Sized, resume, batchSize]

/-- A batch is handed over with its bounds. -/
theorem handedBatch_sized (sized : s'.Sized) {batch : List Job}
    (handed : s.handedBatch s' = some batch)
    : 1 ≤ batch.length ∧ batch.length ≤ batchSize := by
  simp only [handedBatch] at handed
  split at handed
  case h_1 => cases handed
  case h_2 flushing _ =>
    cases handed
    simpa only [Sized, flushing] using sized
  case h_3 => cases handed

theorem pendingBatch_lt (sized : s.Sized) : s.pendingBatch.length < batchSize := by
  simp only [Sized, pendingBatch] at sized ⊢
  split
  · decide
  · split at sized
    case h_1 flushing => simp_all
    case h_2 => exact sized

/-- In every run, the batches handed to BulkInsert and the jobs still pending are the well-formed
jobs that the worker has read, in their order and once each. Every batch has between 1 and 1000
jobs, and fewer than 1000 are pending.
-/
theorem batches_of_run {store : QueueStore} {log : List (Observation μ)}
    (run : Runs (Acts (observe decode)) { store } log s)
    : (log.filterMap Observation.handed).flatten ++ s.pendingBatch
        = (log.filterMap Observation.read).filterMap decode
      ∧ (∀ batch ∈ log.filterMap Observation.handed, 1 ≤ batch.length ∧ batch.length ≤ 1000)
      ∧ s.pendingBatch.length < 1000 := by
  suffices inv : ((log.filterMap Observation.handed).flatten ++ s.pendingBatch
        = (log.filterMap Observation.read).filterMap decode
      ∧ ∀ batch ∈ log.filterMap Observation.handed, 1 ≤ batch.length ∧ batch.length ≤ batchSize)
      ∧ s.Sized from ⟨inv.1.1, inv.1.2, pendingBatch_lt inv.2⟩
  refine run.invariant (fun log s => ((log.filterMap Observation.handed).flatten ++ s.pendingBatch
        = (log.filterMap Observation.read).filterMap decode
      ∧ ∀ batch ∈ log.filterMap Observation.handed, 1 ≤ batch.length ∧ batch.length ≤ batchSize)
      ∧ s.Sized) ⟨⟨rfl, by simp⟩, Nat.zero_lt_succ _⟩ ?_
  intro log s shown s' inv last
  obtain ⟨⟨ordered, bounded⟩, sized⟩ := inv
  obtain ⟨action, observed⟩ := last
  obtain ⟨next, taken, same⟩ := Option.map_eq_some_iff.mp observed
  cases same
  have moves := step_moves taken
  have sized' := moves_sized moves sized
  have step := moves_batches moves
  refine ⟨⟨?_, ?_⟩, sized'⟩
  · have single (α : Type) (f : Observation μ → Option α) (shown : Observation μ)
        : [shown].filterMap f = (f shown).toList := by
      cases h : f shown <;> simp [h]
    rw [List.filterMap_append, List.filterMap_append, single, single, List.flatten_append,
      List.append_assoc, step, ← List.append_assoc, ordered, List.filterMap_append]
  · intro batch mem
    rw [List.filterMap_append, List.mem_append] at mem
    rcases mem with earlier | now
    · exact bounded batch earlier
    · obtain ⟨shown, isLast, handed⟩ := List.mem_filterMap.mp now
      rw [List.mem_singleton.mp isLast] at handed
      exact handedBatch_sized sized' handed

/-- A malformed message between two jobs, of which a failing flush takes the first. -/
theorem batches_of_run_flushed
    : let decode := fun msg : Nat => if msg = 0 then none else some (⟨"mail", none, msg⟩ : Job)
      ∃ s log, perform (observe decode) { store := ⟨.empty, 0⟩ }
          [ .consume true, .deliver 5, .put, .deliver 0, .put, .receive, .receive, .tick,
            .bulkInsert .refused, .deliver 7, .put, .receive ] = some (s, log)
        ∧ (log.filterMap Observation.handed).flatten ++ s.pendingBatch
          = [⟨"mail", none, 5⟩, ⟨"mail", none, 7⟩] := by
  intro decode
  have performed :=
    show perform (observe decode) { store := ⟨.empty, 0⟩ }
      [ .consume true, .deliver 5, .put, .deliver 0, .put, .receive, .receive, .tick,
        .bulkInsert .refused, .deliver 7, .put, .receive ] = some (_, _)
    from rfl
  exact ⟨_, _, performed, (batches_of_run (runs_of_perform performed)).1.trans rfl⟩

end System

end GoFire.QueueSync
