import GoFire.Lock.LockManager

/-! Released locks are free. A Release whose statement runs on another session than its Acquire
returns no error and leaves the lock where it was.
-/

namespace GoFire.Lock

open TransitionSystem

/-- A successful Release is called by a holder of the lock, and its statement runs on a session
that holds it; no Acquire is granted and fails all the same.
-/
def ReleasesHeld (s : System) : Event → Prop
  | .released r => (r.caller, r.lockID) ∈ s.holds ∧ (r.session, r.lockID) ∈ s.locks.grants
  | .acquireLost _ _ => False
  | _ => True

instance (s : System) : ∀ event, Decidable (ReleasesHeld s event)
  | .released r => inferInstanceAs (Decidable ((r.caller, r.lockID) ∈ s.holds ∧ _))
  | .acquireLost _ _ => isFalse id
  | .acquired _ => isTrue trivial
  | .acquireFailed _ _ => isTrue trivial
  | .releaseFailed _ _ => isTrue trivial
  | .releaseLost _ _ => isTrue trivial
  | .disconnected _ => isTrue trivial

/-- How many calls of Acquire hold the lock. -/
def System.held (s : System) (lockID : Int) : Nat :=
  s.holds.countP (fun hold => hold.2 = lockID)

/-- The database grants a lock at most as often as it is held. -/
def Accounted (s : System) : Prop := ∀ lockID, s.locks.granted lockID ≤ s.held lockID

theorem Accounted.step {s s' : System} {event : Event} (inv : Accounted s)
    (h : s.Moves event s') (respected : ReleasesHeld s event)
    : Accounted s' := by
  intro lockID
  have before := inv lockID
  cases h with
  | @acquired r locks granted =>
      have held : System.held ⟨locks, (r.caller, r.lockID) :: s.holds, r :: s.inside⟩ lockID
          = s.held lockID + if r.lockID = lockID then 1 else 0 := by
        simp only [System.held, List.countP_cons, decide_eq_true_eq]
      rw [SessionLocks.granted_lock granted, held]
      exact Nat.add_le_add_right before _
  | acquireFailed => exact before
  | acquireLost => exact absurd respected id
  | released r =>
      obtain ⟨holder, owner⟩ := respected
      have held : (s.holds.erase (r.caller, r.lockID)).countP (fun hold => hold.2 = lockID)
            + (if r.lockID = lockID then 1 else 0)
          = s.held lockID := by
        rw [System.held, (List.perm_cons_erase holder).countP_eq, List.countP_cons]
        simp only [decide_eq_true_eq]
      have granted := SessionLocks.granted_unlock owner lockID
      rw [← granted, ← held] at before
      exact Nat.le_of_add_le_add_right before
  | releaseFailed => exact before
  | releaseLost => exact Nat.le_trans (SessionLocks.granted_unlock_le lockID) before
  | disconnected => exact Nat.le_trans (SessionLocks.granted_close_le lockID) before

/-- In every run whose Releases meet the lock they release, the database keeps no lock beyond
its holds, everybody can acquire a lock whose holds are all released, and Release succeeds for
holders only.
-/
theorem released_locks_free {log : List Event} {s : System}
    (run : Runs (Guarded (Acts System.step) ReleasesHeld) System.initial log s)
    : (∀ lockID, s.locks.granted lockID ≤ s.held lockID)
      ∧ (∀ r : Request, r.session.process = r.caller.process → s.held r.lockID = 0
        → ∃ s', s.step (.acquire r .answered "") = some (s', .acquired r))
      ∧ ∀ before r after, log = before ++ .released r :: after
        → ∃ t, Runs (Guarded (Acts System.step) ReleasesHeld) System.initial before t
          ∧ (r.caller, r.lockID) ∈ t.holds := by
  have inv : Accounted s := by
    refine run.invariant (fun _ s => Accounted s) (fun _ => Nat.le_refl 0) ?_
    intro log s event s' inv h
    exact inv.step (System.moves_of_acts h.1) h.2
  refine ⟨inv, fun r own unheld => ?_, ?_⟩
  · have none : s.locks.granted r.lockID = 0 := Nat.le_zero.mp (unheld ▸ inv r.lockID)
    exact System.acquire_of_free own (SessionLocks.free_of_granted_zero none r.session) ""
  · intro before r after h
    subst h
    obtain ⟨t, t', reached, taken, -⟩ := run.split
    exact ⟨t, reached, taken.2.1⟩

-----------------------------------------------------------------------------------------
-- A release on another connection
-----------------------------------------------------------------------------------------

/-- A call of the given process on its connection with the given number. -/
def request (process connection : Nat) : Request := ⟨⟨process, 0⟩, 1, ⟨process, connection⟩⟩

/-- One process acquires and releases a lock on one connection, then another acquires it. -/
theorem released_locks_free_handover
    : ∃ s log s', perform System.step System.initial
          [.acquire (request 1 0) .answered "", .release (request 1 0) .answered ""]
          = some (s, log)
        ∧ s.step (.acquire (request 2 0) .answered "") = some (s', .acquired (request 2 0)) := by
  have performed :=
    show perform (restrict System.step ReleasesHeld) System.initial
        [.acquire (request 1 0) .answered "", .release (request 1 0) .answered ""]
      = some (_, _)
    from rfl
  obtain ⟨-, free, -⟩ := released_locks_free (runs_of_perform_restrict performed)
  obtain ⟨s', acquired⟩ := free (request 2 0) rfl rfl
  exact ⟨_, _, s', perform_of_restrict performed, acquired⟩

/-- The pool runs the Release on another connection: it succeeds although that session does not
hold the lock, nobody holds the lock any more, and no process but the first can acquire it.
-/
theorem released_lock_leaks
    : ∃ s, perform System.step System.initial
          [.acquire (request 1 0) .answered "", .release (request 1 1) .answered ""]
          = some (s, [.acquired (request 1 0), .released (request 1 1)])
        ∧ s.holds = [] ∧ s.locks.granted 1 = 1
        ∧ ∀ r : Request, r.lockID = 1 → r.session.process = 2
          → s.step (.acquire r .answered "") = none := by
  refine ⟨_, rfl, rfl, rfl, fun r first second => System.acquire_of_taken ?_ ""⟩
  intro free
  have sameSession : (⟨1, 0⟩ : Session) = r.session := free (⟨1, 0⟩, 1) (.head _) first.symm
  rw [← sameSession] at second
  cases second

end GoFire.Lock
