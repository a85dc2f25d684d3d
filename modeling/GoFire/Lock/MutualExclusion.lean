import GoFire.Lock.LockManager

/-! Mutual exclusion. The locks of PostgreSQL tell sessions apart but not the callers that share
a pool: a second Acquire on the session of the first succeeds.
-/

namespace GoFire.Lock

open TransitionSystem

/-- No other caller is inside the lock on the session of the request. -/
def System.OwnSession (s : System) (r : Request) : Prop :=
  ∀ x ∈ s.inside, x.lockID = r.lockID → x.session = r.session → x.caller = r.caller

/-- Acquire and Release run on no session on which another caller is inside the lock, and no
session ends under a caller that is inside.
-/
def SessionsApart (s : System) : Event → Prop
  | .acquired r => s.OwnSession r
  | .released r => s.OwnSession r
  | .releaseLost r _ => s.OwnSession r
  | .disconnected session => ∀ x ∈ s.inside, x.session ≠ session
  | _ => True

instance (s : System) (r : Request) : Decidable (s.OwnSession r) :=
  inferInstanceAs (Decidable (∀ x ∈ s.inside, _))

instance (s : System) : ∀ event, Decidable (SessionsApart s event)
  | .acquired r => inferInstanceAs (Decidable (s.OwnSession r))
  | .released r => inferInstanceAs (Decidable (s.OwnSession r))
  | .releaseLost r _ => inferInstanceAs (Decidable (s.OwnSession r))
  | .disconnected _ => inferInstanceAs (Decidable (∀ x ∈ s.inside, _))
  | .acquireFailed _ _ => isTrue trivial
  | .acquireLost _ _ => isTrue trivial
  | .releaseFailed _ _ => isTrue trivial

/-- How often callers are inside a lock by a session. -/
def System.entries (s : System) (session : Session) (lockID : Int) : Nat :=
  s.inside.countP (fun x => x.session = session && x.lockID = lockID)

/-- Whoever is inside a lock is so by a grant of its session, and callers inside one lock are the
same.
-/
structure Exclusive (s : System) : Prop where
  granted : ∀ session lockID, s.entries session lockID
    ≤ s.locks.grants.count (session, lockID)
  single : ∀ x ∈ s.inside, ∀ y ∈ s.inside, x.lockID = y.lockID → x.caller = y.caller

namespace Exclusive

variable {s s' : System} {event : Event}

theorem grant_pos (inv : Exclusive s) {x : Request} (mem : x ∈ s.inside)
    : 0 < s.locks.grants.count (x.session, x.lockID) := by
  refine Nat.lt_of_lt_of_le ?_ (inv.granted x.session x.lockID)
  exact List.countP_pos_iff.mpr ⟨x, mem, by simp⟩

/-- A step that lets nobody in and takes back no grant that an entry needs. -/
theorem of_fewer (inv : Exclusive s) {inside : List Request} (fewer : inside.Sublist s.inside)
    {locks : SessionLocks Session Int}
    (granted : ∀ session lockID,
      System.entries { s with locks, inside } session lockID
        ≤ locks.grants.count (session, lockID))
    : Exclusive { s with locks, inside } :=
  ⟨granted, fun x mem y mem' => inv.single x (fewer.subset mem) y (fewer.subset mem')⟩

/-- The entries of a lock are all by one session. -/
theorem same_session (inv : Exclusive s) {x y : Request} (mem : x ∈ s.inside)
    (mem' : y ∈ s.inside) (same : x.lockID = y.lockID)
    : x.session = y.session :=
  SessionLocks.same_session (inv.grant_pos mem) (same ▸ inv.grant_pos mem')

/-- When the caller leaves a lock by the session it is inside with, an entry of the session
goes.
-/
theorem entries_leave (inv : Exclusive s) {r : Request} (own : s.OwnSession r)
    : System.entries { s with inside := s.leave r } r.session r.lockID
      ≤ s.entries r.session r.lockID - 1 := by
  by_cases inside : ∃ x ∈ s.inside, x.session = r.session ∧ x.lockID = r.lockID
  case neg =>
    have none : s.entries r.session r.lockID = 0 := by
      refine List.countP_eq_zero.mpr fun x mem entry => inside ⟨x, mem, ?_⟩
      simpa using entry
    rw [none]
    exact Nat.le_trans List.eraseP_sublist.countP_le none.le
  case pos =>
    obtain ⟨x, mem, sameSession, sameLock⟩ := inside
    have leaves : r.sameHold x = true := by
      simp [Request.sameHold, own x mem sameLock sameSession, sameLock]
    obtain ⟨y, front, back, -, gone, whole, rest⟩ := List.exists_of_eraseP mem leaves
    simp only [Request.sameHold, Bool.and_eq_true, decide_eq_true_eq] at gone
    have yInside : y ∈ s.inside := by simp [whole]
    have yEntry : (y.session = r.session && y.lockID = r.lockID) = true := by
      simp [inv.same_session yInside mem (gone.2.trans sameLock.symm), sameSession, gone.2]
    simp only [System.entries, System.leave, rest]
    rw [whole, List.countP_append, List.countP_append, List.countP_cons, if_pos yEntry]
    omega

/-- A Release takes an entry with the grant it takes back. -/
theorem of_release (inv : Exclusive s) {r : Request} (own : s.OwnSession r)
    : Exclusive { s with locks := (s.locks.unlock r.session r.lockID).1, inside := s.leave r } := by
  apply inv.of_fewer List.eraseP_sublist
  intro session lockID
  by_cases same : (session, lockID) = (r.session, r.lockID)
  · obtain ⟨rfl, rfl⟩ := Prod.mk.inj same
    have left := inv.entries_leave own
    have before := inv.granted r.session r.lockID
    simp only [SessionLocks.unlock, SessionLocks.restrict, List.count_erase_self]
    exact left.trans (Nat.sub_le_sub_right before 1)
  · rw [SessionLocks.count_unlock_of_ne same]
    exact Nat.le_trans List.eraseP_sublist.countP_le (inv.granted session lockID)

/-- An Acquire lets its caller in beside itself only. -/
theorem of_acquire (inv : Exclusive s) {r : Request} (own : s.OwnSession r)
    {locks : SessionLocks Session Int} (granted : s.locks.lock r.session r.lockID = some locks)
    : Exclusive { locks, holds := (r.caller, r.lockID) :: s.holds, inside := r :: s.inside } := by
  have free := SessionLocks.lock_isSome.mp (Option.isSome_iff_exists.mpr ⟨locks, granted⟩)
  have beside {x : Request} (mem : x ∈ s.inside) (same : x.lockID = r.lockID)
      : x.caller = r.caller := by
    have grant := List.count_pos_iff.mp (inv.grant_pos mem)
    exact own x mem same (free _ grant same)
  refine ⟨fun session lockID => ?_, fun x mem y mem' same => ?_⟩
  · have before := inv.granted session lockID
    rw [SessionLocks.lock_grants granted, List.count_cons]
    simp only [System.entries, List.countP_cons] at before ⊢
    refine Nat.add_le_add before (le_of_eq ?_)
    simp [Prod.ext_iff]
  · rcases List.mem_cons.mp mem with rfl | old
    · rcases List.mem_cons.mp mem' with rfl | old'
      · rfl
      · exact (beside old' same.symm).symm
    · rcases List.mem_cons.mp mem' with rfl | old'
      · exact beside old same
      · exact inv.single x old y old' same

theorem step (inv : Exclusive s) (h : s.Moves event s') (apart : SessionsApart s event)
    : Exclusive s' := by
  cases h with
  | acquired granted => exact inv.of_acquire apart granted
  | acquireFailed => exact inv
  | acquireLost err granted =>
      refine inv.of_fewer (List.Sublist.refl _) fun session lockID => ?_
      rw [SessionLocks.lock_grants granted]
      exact (inv.granted session lockID).trans List.count_le_count_cons
  | released r => exact ⟨(inv.of_release apart).granted, (inv.of_release apart).single⟩
  | releaseFailed r =>
      apply inv.of_fewer List.eraseP_sublist
      intro session lockID
      exact Nat.le_trans List.eraseP_sublist.countP_le (inv.granted session lockID)
  | releaseLost r => exact inv.of_release apart
  | disconnected closed =>
      refine inv.of_fewer (List.Sublist.refl _) fun session lockID => ?_
      by_cases same : session = closed
      · have none : s.entries session lockID = 0 := by
          apply List.countP_eq_zero.mpr
          intro x mem entry
          simp only [Bool.and_eq_true, decide_eq_true_eq] at entry
          exact apart x mem (entry.1.trans same)
        exact none.le.trans (Nat.zero_le _)
      · rw [SessionLocks.count_close_of_ne same]
        exact inv.granted session lockID

theorem initial : Exclusive System.initial :=
  ⟨fun _ _ => Nat.le_refl 0, fun _ mem => absurd mem List.not_mem_nil⟩

end Exclusive

/-- In every run that keeps callers apart by their sessions, two callers that are inside a lock
are the same.
-/
theorem one_caller_inside {log : List Event} {s : System}
    (run : Runs (Guarded (Acts System.step) SessionsApart) System.initial log s)
    : ∀ x ∈ s.inside, ∀ y ∈ s.inside, x.lockID = y.lockID → x.caller = y.caller := by
  have inv : Exclusive s := by
    refine run.invariant (fun _ s => Exclusive s) .initial ?_
    intro log s event s' inv h
    exact inv.step (System.moves_of_acts h.1) h.2
  exact inv.single

-----------------------------------------------------------------------------------------
-- Two goroutines of a process and one connection
-----------------------------------------------------------------------------------------

/-- A call of a goroutine of the first process on a connection of its pool. -/
def pooled (goroutine connection : Nat) : Request := ⟨⟨1, goroutine⟩, 1, ⟨1, connection⟩⟩

/-- The lock goes from one goroutine to another on the connection they share. -/
theorem one_caller_inside_handover
    : ∃ s log, perform System.step System.initial
          [ .acquire (pooled 1 0) .answered "", .acquire (pooled 2 1) .refused "timeout",
            .release (pooled 1 0) .answered "", .acquire (pooled 2 0) .answered "" ]
          = some (s, log)
        ∧ pooled 2 0 ∈ s.inside
        ∧ ∀ x ∈ s.inside, x.lockID = 1 → x.caller = ⟨1, 2⟩ := by
  have performed :=
    show perform (restrict System.step SessionsApart) System.initial
        [ .acquire (pooled 1 0) .answered "", .acquire (pooled 2 1) .refused "timeout",
          .release (pooled 1 0) .answered "", .acquire (pooled 2 0) .answered "" ]
      = some (_, _)
    from rfl
  have single := one_caller_inside (runs_of_perform_restrict performed)
  exact ⟨_, _, perform_of_restrict performed, .head _,
    fun x mem same => single x mem (pooled 2 0) (.head _) same⟩

/-- Two goroutines of one process acquire the same lock on the connection they share. -/
theorem two_callers_inside
    : ∃ s log, perform System.step System.initial
          [.acquire (pooled 1 0) .answered "", .acquire (pooled 2 0) .answered ""] = some (s, log)
        ∧ pooled 1 0 ∈ s.inside ∧ pooled 2 0 ∈ s.inside
        ∧ (pooled 1 0).caller ≠ (pooled 2 0).caller :=
  ⟨_, _, rfl, .tail _ (.head _), .head _, by decide⟩

end GoFire.Lock
