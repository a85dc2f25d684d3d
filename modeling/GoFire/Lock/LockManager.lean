import GoFire.Foundations.KeyedTable
import GoFire.Foundations.SessionLocks
import GoFire.Foundations.TransitionSystem

/-! PostgresDistributedLockManager: Acquire and Release execute one statement each, on whichever
pooled connection of their process, while the locks of PostgreSQL belong to sessions.
-/

namespace GoFire.Lock

/-- A goroutine of a process. -/
structure Caller where
  process : Nat
  goroutine : Nat
  deriving DecidableEq

/-- The session of a pooled connection of a process. -/
structure Session where
  process : Nat
  connection : Nat
  deriving DecidableEq

/-- A call of Acquire or Release with the session that the pool chose for its statement. -/
structure Request where
  caller : Caller
  lockID : Int
  session : Session
  deriving DecidableEq

/-- Whether two calls are about one lock and by one caller. -/
def Request.sameHold (r x : Request) : Bool := x.caller = r.caller && x.lockID = r.lockID

/-- `holds` are the successful calls of Acquire without their successful Release, `inside` those
whose caller has not called Release yet.
-/
structure System where
  locks : SessionLocks Session Int
  holds : List (Caller × Int)
  inside : List Request

inductive Event where
  | acquired (r : Request)
  | acquireFailed (r : Request) (err : String)
  | acquireLost (r : Request) (err : String)
  | released (r : Request)
  | releaseFailed (r : Request) (err : String)
  | releaseLost (r : Request) (err : String)
  | disconnected (session : Session)

inductive Action where
  | acquire (r : Request) (delivery : Delivery) (cause : String)
  | release (r : Request) (delivery : Delivery) (cause : String)
  | disconnect (session : Session)

namespace System

def initial : System := ⟨.empty, [], []⟩

/-- pg_advisory_lock waits for other sessions; Acquire gives up after five seconds. -/
def acquire (s : System) (r : Request) (delivery : Delivery) (cause : String)
    : Option (System × Event) :=
  let err := "failed to acquire lock: " ++ cause
  match delivery with
  | .answered => do
      let locks ← s.locks.lock r.session r.lockID
      return ({ locks, holds := (r.caller, r.lockID) :: s.holds, inside := r :: s.inside },
        .acquired r)
  | .refused => some (s, .acquireFailed r err)
  | .lost => do
      let locks ← s.locks.lock r.session r.lockID
      return ({ s with locks }, .acquireLost r err)

/-- The caller leaves when it calls Release. -/
def leave (s : System) (r : Request) : List Request :=
  s.inside.eraseP r.sameHold

/-- Release does not look at the answer of pg_advisory_unlock. -/
def release (s : System) (r : Request) (delivery : Delivery) (cause : String)
    : Option (System × Event) :=
  let err := "failed to release lock: " ++ cause
  let (locks, _) := s.locks.unlock r.session r.lockID
  match delivery with
  | .answered =>
      some ({ locks, holds := s.holds.erase (r.caller, r.lockID), inside := s.leave r },
        .released r)
  | .refused => some ({ s with inside := s.leave r }, .releaseFailed r err)
  | .lost => some ({ s with locks, inside := s.leave r }, .releaseLost r err)

/-- A statement runs on a connection of the caller's own process. -/
def step (s : System) : Action → Option (System × Event)
  | .acquire r delivery cause =>
      if r.session.process = r.caller.process then s.acquire r delivery cause else none
  | .release r delivery cause =>
      if r.session.process = r.caller.process then s.release r delivery cause else none
  | .disconnect session =>
      some ({ s with locks := s.locks.close session }, .disconnected session)

/-- What a step can do, said once for all invariants. -/
inductive Moves (s : System) : Event → System → Prop where
  | acquired {r : Request} {locks : SessionLocks Session Int}
      (granted : s.locks.lock r.session r.lockID = some locks)
      : Moves s (.acquired r)
          { locks, holds := (r.caller, r.lockID) :: s.holds, inside := r :: s.inside }
  | acquireFailed (r : Request) (err : String) : Moves s (.acquireFailed r err) s
  | acquireLost {r : Request} {locks : SessionLocks Session Int} (err : String)
      (granted : s.locks.lock r.session r.lockID = some locks)
      : Moves s (.acquireLost r err) { s with locks }
  | released (r : Request)
      : Moves s (.released r)
          { locks := (s.locks.unlock r.session r.lockID).1,
            holds := s.holds.erase (r.caller, r.lockID), inside := s.leave r }
  | releaseFailed (r : Request) (err : String)
      : Moves s (.releaseFailed r err) { s with inside := s.leave r }
  | releaseLost (r : Request) (err : String)
      : Moves s (.releaseLost r err)
          { s with locks := (s.locks.unlock r.session r.lockID).1, inside := s.leave r }
  | disconnected (session : Session)
      : Moves s (.disconnected session) { s with locks := s.locks.close session }

theorem moves_of_acts {s s' : System} {event : Event}
    (h : TransitionSystem.Acts System.step s event s')
    : s.Moves event s' := by
  obtain ⟨action, h⟩ := h
  cases action with
  | acquire r delivery cause =>
      simp only [step] at h
      split at h
      case isFalse => cases h
      case isTrue =>
        cases delivery with
        | answered =>
            simp only [acquire, Option.bind_eq_bind, Option.bind_eq_some_iff] at h
            obtain ⟨locks, granted, h⟩ := h
            cases h
            exact .acquired granted
        | refused =>
            cases h
            exact .acquireFailed r _
        | lost =>
            simp only [acquire, Option.bind_eq_bind, Option.bind_eq_some_iff] at h
            obtain ⟨locks, granted, h⟩ := h
            cases h
            exact .acquireLost _ granted
  | release r delivery cause =>
      simp only [step] at h
      split at h
      case isFalse => cases h
      case isTrue =>
        cases delivery with
        | answered =>
            cases h
            exact .released r
        | refused =>
            cases h
            exact .releaseFailed r _
        | lost =>
            cases h
            exact .releaseLost r _
  | disconnect session =>
      cases h
      exact .disconnected session

/-- A successful Acquire of a caller of its own process needs a free lock only. -/
theorem acquire_of_free {s : System} {r : Request} (own : r.session.process = r.caller.process)
    (free : s.locks.Free r.session r.lockID) (cause : String)
    : ∃ s', s.step (.acquire r .answered cause) = some (s', .acquired r) := by
  obtain ⟨locks, granted⟩ := Option.isSome_iff_exists.mp (SessionLocks.lock_isSome.mpr free)
  refine ⟨⟨locks, (r.caller, r.lockID) :: s.holds, r :: s.inside⟩, ?_⟩
  simp only [step, if_pos own, acquire, granted]
  rfl

/-- An Acquire cannot succeed while another session holds the lock. -/
theorem acquire_of_taken {s : System} {r : Request}
    (taken : ¬ s.locks.Free r.session r.lockID) (cause : String)
    : s.step (.acquire r .answered cause) = none := by
  simp only [step, acquire, SessionLocks.lock, dif_neg taken]
  exact ite_self none

end System

end GoFire.Lock
