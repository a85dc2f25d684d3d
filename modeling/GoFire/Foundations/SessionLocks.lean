import Mathlib.Algebra.Order.Group.Nat
import Mathlib.Data.List.Count

/-! Exclusive locks that belong to sessions and are counted: a session may take a lock again that
it holds, and gives it up when it has released it as often, or when it ends.
-/

/-- The grants of locks `κ` to sessions `σ`; one lock is granted to one session at a time. -/
structure SessionLocks (σ κ : Type*) where
  grants : List (σ × κ)
  exclusive : ∀ grant ∈ grants, ∀ grant' ∈ grants, grant.2 = grant'.2 → grant.1 = grant'.1

namespace SessionLocks

variable {σ κ : Type*} [DecidableEq σ] [DecidableEq κ]

def empty : SessionLocks σ κ := ⟨[], by simp⟩

/-- No other session holds the lock. -/
def Free (t : SessionLocks σ κ) (session : σ) (k : κ) : Prop :=
  ∀ grant ∈ t.grants, grant.2 = k → grant.1 = session

instance (t : SessionLocks σ κ) (session : σ) (k : κ) : Decidable (t.Free session k) :=
  inferInstanceAs (Decidable (∀ grant ∈ t.grants, _))

/-- Grants a lock to a session. -/
def lock (t : SessionLocks σ κ) (session : σ) (k : κ) : Option (SessionLocks σ κ) :=
  if free : t.Free session k then
    some
      { grants := (session, k) :: t.grants
        exclusive := by
          intro grant mem grant' mem' same
          rcases List.mem_cons.mp mem with rfl | old
          · rcases List.mem_cons.mp mem' with rfl | old'
            · rfl
            · exact (free grant' old' same.symm).symm
          · rcases List.mem_cons.mp mem' with rfl | old'
            · exact free grant old same
            · exact t.exclusive grant old grant' old' same }
  else none

/-- The grants that a release or the end of a session leaves. -/
def restrict (t : SessionLocks σ κ) (grants : List (σ × κ)) (fewer : grants.Sublist t.grants)
    : SessionLocks σ κ where
  grants := grants
  exclusive grant mem grant' mem' :=
    t.exclusive grant (fewer.subset mem) grant' (fewer.subset mem')

/-- Takes back one grant of the lock to the session, and tells whether there was one. -/
def unlock (t : SessionLocks σ κ) (session : σ) (k : κ) : SessionLocks σ κ × Bool :=
  (t.restrict (t.grants.erase (session, k)) List.erase_sublist,
    t.grants.contains (session, k))

/-- Ends a session. -/
def close (t : SessionLocks σ κ) (session : σ) : SessionLocks σ κ :=
  t.restrict (t.grants.filter (fun grant => grant.1 ≠ session)) List.filter_sublist

/-- How often a lock is granted. -/
def granted (t : SessionLocks σ κ) (k : κ) : Nat := t.grants.countP (fun grant => grant.2 = k)

variable {t t' : SessionLocks σ κ} {session : σ} {k : κ}

theorem lock_grants (h : t.lock session k = some t')
    : t'.grants = (session, k) :: t.grants := by
  simp only [lock] at h
  split at h
  case isTrue =>
    cases h
    rfl
  case isFalse => cases h

/-- The lock of a session is granted exactly when no other session holds it. -/
theorem lock_isSome : (t.lock session k).isSome = true ↔ t.Free session k := by
  rw [lock]
  split
  case isTrue free => exact iff_of_true rfl free
  case isFalse taken => exact iff_of_false (by simp) taken

omit [DecidableEq σ] in
theorem free_of_granted_zero (none : t.granted k = 0) (session : σ) : t.Free session k := by
  intro grant mem same
  rw [granted, List.countP_eq_zero] at none
  exact absurd (by simpa using same) (none grant mem)

theorem granted_lock (h : t.lock session k = some t') (k' : κ)
    : t'.granted k' = t.granted k' + if k = k' then 1 else 0 := by
  simp only [granted, lock_grants h, List.countP_cons, decide_eq_true_eq]

theorem granted_unlock (held : (session, k) ∈ t.grants) (k' : κ)
    : (t.unlock session k).1.granted k' + (if k = k' then 1 else 0) = t.granted k' := by
  simp only [granted, unlock, restrict]
  rw [(List.perm_cons_erase held).countP_eq, List.countP_cons]
  simp only [decide_eq_true_eq]

theorem granted_unlock_le (k' : κ) : (t.unlock session k).1.granted k' ≤ t.granted k' :=
  List.erase_sublist.countP_le

theorem granted_close_le (k' : κ) : (t.close session).granted k' ≤ t.granted k' :=
  List.filter_sublist.countP_le

/-- A release takes back a grant of its own session and lock only. -/
theorem count_unlock_of_ne {grant : σ × κ} (other : grant ≠ (session, k))
    : (t.unlock session k).1.grants.count grant = t.grants.count grant :=
  List.count_erase_of_ne other

theorem count_close_of_ne {session' : σ} (other : session' ≠ session)
    : (t.close session).grants.count (session', k) = t.grants.count (session', k) :=
  List.count_filter (by simpa using other)

/-- All holders of a lock are one session. -/
theorem same_session {session' : σ} (held : 0 < t.grants.count (session, k))
    (held' : 0 < t.grants.count (session', k))
    : session = session' :=
  t.exclusive _ (List.count_pos_iff.mp held) _ (List.count_pos_iff.mp held') rfl

end SessionLocks
