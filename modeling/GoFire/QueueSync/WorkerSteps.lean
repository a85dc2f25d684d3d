import GoFire.QueueSync.Worker

/-! What a step of the worker, its consumer or the context can do, said once for all
invariants.
-/

namespace GoFire.QueueSync

open GoFire.Store

namespace System

variable {μ : Type} (decode : μ → Option Job)

inductive Moves (s : System μ) : Action μ → System μ × Event μ → Prop where
  | cancel : Moves s .cancel ({ s with cancelled := true }, .internal)
  | consumed (starting : s.worker = .starting) (off : s.consumer = .off)
      : Moves s (.consume true)
          ({ s with consumer := .waiting, worker := .selecting }, .internal)
  | consumeFailed (starting : s.worker = .starting) (off : s.consumer = .off)
      : Moves s (.consume false) ({ s with worker := .stopped }, .internal)
  | delivered {msg : μ} (waiting : s.consumer = .waiting)
      : Moves s (.deliver msg) ({ s with consumer := .holding msg }, .delivered msg)
  | put {msg : μ} (holding : s.consumer = .holding msg)
      (room : s.msgCh.length < channelCapacity)
      : Moves s .put ({ s with consumer := .waiting, msgCh := s.msgCh ++ [msg] }, .internal)
  | deliveriesClosed (waiting : s.consumer = .waiting)
      : Moves s .deliveriesClosed ({ s with consumer := .stopped }, .internal)
  | consumerStopped (waiting : s.consumer = .waiting) (cancelled : s.cancelled = true)
      : Moves s .stopConsumer ({ s with consumer := .stopped }, .internal)
  | dropped {msg : μ} (holding : s.consumer = .holding msg) (cancelled : s.cancelled = true)
      : Moves s .stopConsumer ({ s with consumer := .stopped }, .dropped msg)
  | leaving (selecting : s.worker = .selecting) (cancelled : s.cancelled = true)
      : Moves s .ctxDone (s.flushBatch true, .leaving)
  | malformed {msg : μ} {rest : List μ} (selecting : s.worker = .selecting)
      (unread : s.msgCh = msg :: rest) (undecoded : decode msg = none)
      : Moves s .receive ({ s with msgCh := rest }, .malformed msg)
  | read {msg : μ} {rest : List μ} {job : Job} (selecting : s.worker = .selecting)
      (unread : s.msgCh = msg :: rest) (decoded : decode msg = some job)
      (collects : (s.jobsBatch ++ [job]).length < batchSize)
      : Moves s .receive
          ({ s with msgCh := rest, jobsBatch := s.jobsBatch ++ [job] }, .internal)
  | filled {msg : μ} {rest : List μ} {job : Job} (selecting : s.worker = .selecting)
      (unread : s.msgCh = msg :: rest) (decoded : decode msg = some job)
      (full : batchSize ≤ (s.jobsBatch ++ [job]).length)
      : Moves s .receive
          (flushBatch { s with msgCh := rest, jobsBatch := s.jobsBatch ++ [job] } false,
            .internal)
  | drained (selecting : s.worker = .selecting) (empty : s.msgCh = [])
      (stopped : s.consumer = .stopped)
      : Moves s .receive (s.flushBatch true, .internal)
  | ticked (selecting : s.worker = .selecting)
      : Moves s .tick (s.flushBatch false, .internal)
  | insertFailed {late leaves : Bool} (flushing : s.worker = .flushing late leaves)
      : Moves s (.bulkInsert .refused)
          ({ s with worker := resume leaves, jobsBatch := [] }, .insertFailed s.jobsBatch)
  | inserted {delivery : Delivery} {late leaves : Bool}
      (flushing : s.worker = .flushing late leaves) (live : late = false)
      : Moves s (.bulkInsert delivery)
          ({ s with store := s.store.bulkInsert s.jobsBatch, worker := resume leaves,
                    jobsBatch := [] }, .inserted s.jobsBatch)

variable {decode} {s : System μ} {next : System μ × Event μ}

theorem consume_moves {ok : Bool} (h : s.consume ok = some next)
    : s.Moves decode (.consume ok) next := by
  simp only [consume] at h
  split at h
  case h_2 => cases h
  case h_1 starting off =>
    cases ok with
    | true =>
        cases h
        exact .consumed starting off
    | false =>
        cases h
        exact .consumeFailed starting off

theorem deliver_moves {msg : μ} (h : s.deliver msg = some next)
    : s.Moves decode (.deliver msg) next := by
  simp only [deliver] at h
  split at h
  case h_2 => cases h
  case h_1 waiting =>
    cases h
    exact .delivered waiting

theorem put_moves (h : s.put = some next) : s.Moves decode .put next := by
  simp only [System.put] at h
  split at h
  case h_2 => cases h
  case h_1 holding =>
    split at h
    case isFalse => cases h
    case isTrue room =>
      cases h
      exact .put holding room

theorem deliveriesClosed_moves (h : s.deliveriesClosed = some next)
    : s.Moves decode .deliveriesClosed next := by
  simp only [System.deliveriesClosed] at h
  split at h
  case h_2 => cases h
  case h_1 waiting =>
    cases h
    exact .deliveriesClosed waiting

theorem stopConsumer_moves (h : s.stopConsumer = some next)
    : s.Moves decode .stopConsumer next := by
  simp only [stopConsumer] at h
  split at h
  case isFalse => cases h
  case isTrue cancelled =>
    split at h
    case h_1 waiting =>
      cases h
      exact .consumerStopped waiting cancelled
    case h_2 holding =>
      cases h
      exact .dropped holding cancelled
    case h_3 => cases h

theorem ctxDone_moves (h : s.ctxDone = some next) : s.Moves decode .ctxDone next := by
  simp only [ctxDone] at h
  split at h
  case h_2 => cases h
  case h_1 selecting =>
    split at h
    case isFalse => cases h
    case isTrue cancelled =>
      cases h
      exact .leaving selecting cancelled

theorem receive_moves (h : s.receive decode = some next) : s.Moves decode .receive next := by
  simp only [receive] at h
  split at h
  case h_3 => cases h
  case h_2 selecting empty stopped =>
    cases h
    exact .drained selecting empty stopped
  case h_1 selecting unread =>
    split at h
    case h_2 undecoded =>
      cases h
      exact .malformed selecting unread undecoded
    case h_1 decoded =>
      cases h
      split
      case isTrue full => exact .filled selecting unread decoded full
      case isFalse collects => exact .read selecting unread decoded (Nat.not_le.mp collects)

theorem tick_moves (h : s.tick = some next) : s.Moves decode .tick next := by
  simp only [tick] at h
  split at h
  case h_2 => cases h
  case h_1 selecting =>
    cases h
    exact .ticked selecting

theorem bulkInsert_moves {delivery : Delivery} (h : s.bulkInsert delivery = some next)
    : s.Moves decode (.bulkInsert delivery) next := by
  simp only [bulkInsert] at h
  split at h
  case h_2 => cases h
  case h_1 flushing =>
    split at h
    case isFalse => cases h
    case isTrue made =>
      cases delivery with
      | refused =>
          cases h
          exact .insertFailed flushing
      | answered =>
          cases h
          exact .inserted flushing (by simpa using made)
      | lost =>
          cases h
          exact .inserted flushing (by simpa using made)

theorem step_moves {action : Action μ} (h : s.step decode action = some next)
    : s.Moves decode action next := by
  cases action with
  | cancel =>
      cases h
      exact .cancel
  | consume => exact consume_moves h
  | deliver => exact deliver_moves h
  | put => exact put_moves h
  | deliveriesClosed => exact deliveriesClosed_moves h
  | stopConsumer => exact stopConsumer_moves h
  | ctxDone => exact ctxDone_moves h
  | receive => exact receive_moves h
  | tick => exact tick_moves h
  | bulkInsert => exact bulkInsert_moves h

end System

end GoFire.QueueSync
