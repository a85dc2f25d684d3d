import GoFire.Foundations.TransitionSystem
import GoFire.Users.UserStore

/-! The bootstrap of the dashboard administrator, run by several instances at once: each looks for
the user, deletes the row of the name and inserts a new one, in statements that interleave.
-/

namespace GoFire.Users

open TransitionSystem

/-- Where a call of createDashboardAdminIfConfigured is. -/
inductive Stage where
  | called
  | finding
  | deleting
  | inserting (hash : String)
  | returned (err : Option String)
  deriving DecidableEq

/-- The table, and the calls of all instances with the same user name and password. -/
structure Bootstrap where
  store : UserStore
  calls : List Stage

inductive Event where
  | internal
  | found
  | deleted
  | inserted
  deriving DecidableEq

section Steps

variable (username password : String)

/-- What one statement of a call does to the table and to the call. -/
def Stage.step (s : UserStore) (hash : String) : Stage → Option (UserStore × Stage × Event)
  | .called =>
      if username = "" ∨ password = "" then some (s, .returned none, .internal)
      else some (s, .finding, .internal)
  | .finding =>
      match s.findByUsername username with
      | some _ => some (s, .returned none, .found)
      | none => some (s, .deleting, .internal)
  | .deleting =>
      let s := s.deleteByUsername username
      match generateFromPassword password (some hash) with
      | .ok hash => some (s, .inserting hash, .deleted)
      | .error err => some (s, .returned (some err), .deleted)
  | .inserting hash =>
      match s.insert username hash with
      | some (inserted, _) => some (inserted, .returned none, .inserted)
      | none =>
          some (s, .returned (some "pq: duplicate key value violates unique constraint"), .inserted)
  | .returned _ => none

/-- A step of the call with the given number; the hash is the one that bcrypt would return. -/
def Bootstrap.step (b : Bootstrap) (action : Nat × String) : Option (Bootstrap × Event) := do
  let stage ← b.calls[action.1]?
  let (store, stage, event) ← stage.step username password b.store action.2
  return (⟨store, b.calls.set action.1 stage⟩, event)

inductive Stage.Moves (s : UserStore) : Stage → UserStore × Stage × Event → Prop where
  | skipped (empty : username = "" ∨ password = "")
      : Moves s .called (s, .returned none, .internal)
  | began : Moves s .called (s, .finding, .internal)
  | found (taken : username ∈ s.names) : Moves s .finding (s, .returned none, .found)
  | missing (free : username ∉ s.names) : Moves s .finding (s, .deleting, .internal)
  | deleted {hash : String} (fits : password.utf8ByteSize ≤ maxPasswordBytes)
      : Moves s .deleting (s.deleteByUsername username, .inserting hash, .deleted)
  | rejected {err : String} (long : ¬ password.utf8ByteSize ≤ maxPasswordBytes)
      : Moves s .deleting (s.deleteByUsername username, .returned (some err), .deleted)
  | inserted {hash : String} {store : UserStore} {id : Nat}
      (ok : s.insert username hash = some (store, id))
      : Moves s (.inserting hash) (store, .returned none, .inserted)
  | refused {hash err : String} (taken : username ∈ s.names)
      : Moves s (.inserting hash) (s, .returned (some err), .inserted)

variable {username password} {s : UserStore} {stage : Stage} {hash : String}
  {next : UserStore × Stage × Event}

theorem Stage.step_moves (h : stage.step username password s hash = some next)
    : Moves username password s stage next := by
  cases stage with
  | called =>
      simp only [step] at h
      split at h
      case isTrue empty =>
        cases h
        exact .skipped empty
      case isFalse =>
        cases h
        exact .began
  | finding =>
      simp only [step] at h
      split at h
      case h_1 user read =>
        cases h
        exact .found (UserStore.findByUsername_isSome.mp (by rw [read]; rfl))
      case h_2 read =>
        cases h
        refine .missing fun taken => ?_
        have present := UserStore.findByUsername_isSome.mpr taken
        rw [read] at present
        cases present
  | deleting =>
      simp only [step] at h
      by_cases fits : password.utf8ByteSize ≤ maxPasswordBytes
      · obtain ⟨hashed, accepted⟩ :=
          UserStore.generateFromPassword_ok (⟨fits, rfl⟩ : UserStore.Hashes password (some hash))
        rw [accepted] at h
        cases h
        exact .deleted fits
      · obtain ⟨err, rejected⟩ := UserStore.generateFromPassword_error
          (fun hashes : UserStore.Hashes password (some hash) => fits hashes.1)
        rw [rejected] at h
        cases h
        exact .rejected fits
  | inserting hash =>
      simp only [step] at h
      split at h
      case h_1 store id ok =>
        cases h
        exact .inserted ok
      case h_2 tried =>
        cases h
        exact .refused (UserStore.insert_eq_none.mp tried)
  | returned err => cases h

/-- After a DELETE the name is free, after an INSERT it is taken, and else the table is as before.
-/
theorem Stage.Moves.names (moves : Moves username password s stage next)
    : (next.2.2 = .deleted ∧ username ∉ next.1.names)
      ∨ (next.2.2 = .inserted ∧ username ∈ next.1.names)
      ∨ (next.2.2 ≠ .deleted ∧ next.2.2 ≠ .inserted ∧ next.1 = s) := by
  cases moves with
  | deleted | rejected => exact Or.inl ⟨rfl, UserStore.not_mem_names_delete s username⟩
  | inserted ok =>
      have added := (UserStore.insert_eq_some ok).2
      refine Or.inr (Or.inl ⟨rfl, ?_⟩)
      rw [UserStore.names, added, List.filterMap_append]
      exact List.mem_append_right _ List.mem_cons_self
  | refused taken => exact Or.inr (Or.inl ⟨rfl, taken⟩)
  | _ => exact Or.inr (Or.inr ⟨Event.noConfusion, Event.noConfusion, rfl⟩)

/-- One call alone, whose statements are answered, is Create. -/
theorem Bootstrap.alone_eq_create (s : UserStore) (hash : String)
    (fits : password.utf8ByteSize ≤ maxPasswordBytes)
    : perform (Bootstrap.step username password) ⟨s, [.deleting]⟩ [(0, hash), (0, hash)]
      = some (⟨(s.create username password (some hash) .answered .answered).1, [.returned none]⟩,
          [.deleted, .inserted]) := by
  have accepted : generateFromPassword password (some hash) = .ok hash :=
    if_neg (Nat.not_lt.mpr fits)
  have free : (s.deleteByUsername username).insert username hash ≠ none :=
    fun taken => UserStore.not_mem_names_delete s username (UserStore.insert_eq_none.mp taken)
  obtain ⟨inserted, ok⟩ := Option.ne_none_iff_exists'.mp free
  simp [perform, Bootstrap.step, Stage.step, accepted, ok, UserStore.create, Delivery.apply]

end Steps

-----------------------------------------------------------------------------------------
-- All interleavings
-----------------------------------------------------------------------------------------

def Stage.Failed : Stage → Prop
  | .returned (some _) => True
  | _ => False

def Stage.Inserting : Stage → Prop
  | .inserting _ => True
  | _ => False

def Stage.Returned : Stage → Prop
  | .returned _ => True
  | _ => False

/-- The calls that meet a condition, when one that did not moves on. -/
theorem exists_mem_set {calls : List Stage} {i : Nat} {old new : Stage} {P : Stage → Prop}
    (found : calls[i]? = some old) (unmet : ¬ P old)
    : (∃ stage ∈ calls.set i new, P stage) ↔ P new ∨ ∃ stage ∈ calls, P stage := by
  obtain ⟨inside, atIndex⟩ := List.getElem?_eq_some_iff.mp found
  constructor
  · intro h
    obtain ⟨stage, mem, holds⟩ := h
    rcases List.mem_or_eq_of_mem_set mem with other | rfl
    · exact Or.inr ⟨stage, other, holds⟩
    · exact Or.inl holds
  · intro h
    rcases h with holds | ⟨stage, mem, holds⟩
    · exact ⟨new, List.mem_set inside new, holds⟩
    · obtain ⟨j, among, rfl⟩ := List.mem_iff_getElem.mp mem
      have other : i ≠ j := by
        intro same
        subst same
        exact unmet (atIndex ▸ holds)
      refine ⟨calls[j], ?_, holds⟩
      apply List.mem_of_getElem? (i := j)
      rw [List.getElem?_set_ne other, List.getElem?_eq_getElem among]

/-- What the calls did so far, by the log of their statements. -/
structure Bootstrap.Inv (username password : String) (initially : Prop) (log : List Event)
    (b : Bootstrap) : Prop where
  taken : username ∈ b.store.names
    ↔ Open (· = .inserted) (· = .deleted) log ∨ (initially ∧ .deleted ∉ log)
  deleted : (∃ stage ∈ b.calls, stage.Inserting) → .deleted ∈ log
  failed : (∃ stage ∈ b.calls, stage.Failed)
    ↔ ¬ ((password.utf8ByteSize ≤ maxPasswordBytes ∨ .deleted ∉ log)
      ∧ Separated (· = .inserted) (· = .deleted) log)
  missing : username ∉ b.store.names
    → (password.utf8ByteSize ≤ maxPasswordBytes ∨ .deleted ∉ log)
    → (∃ stage ∈ b.calls, stage.Inserting) ∨ ¬ ∃ stage ∈ b.calls, stage.Returned

variable {username password : String} {initially : Prop} {log : List Event} {b b' : Bootstrap}
  {event : Event}

theorem Bootstrap.step_moves (h : Acts (Bootstrap.step username password) b event b')
    : ∃ i stage stage', b.calls[i]? = some stage
        ∧ stage.Moves username password b.store (b'.store, stage', event)
        ∧ b'.calls = b.calls.set i stage' := by
  obtain ⟨⟨i, hash⟩, h⟩ := h
  simp only [Bootstrap.step, Option.bind_eq_bind, Option.bind_eq_some_iff, Option.pure_def,
    Option.some.injEq] at h
  obtain ⟨stage, found, ⟨store, stage', event'⟩, moved, h⟩ := h
  cases h
  exact ⟨i, stage, stage', found, Stage.step_moves moved, rfl⟩

/-- An event that is not a DELETE leaves open whether there was one. -/
theorem not_mem_append_iff (other : event ≠ .deleted)
    : .deleted ∉ log ++ [event] ↔ .deleted ∉ log := by
  simp [other.symm]

/-- An event that is not an INSERT keeps INSERTs separated. -/
theorem separated_append_iff (other : event ≠ .inserted)
    : Separated (· = .inserted) (· = .deleted) (log ++ [event])
      ↔ Separated (· = .inserted) (· = .deleted) log :=
  separated_append.trans (and_iff_left fun same => absurd same other)

section Step

variable {i : Nat} {stage stage' : Stage} {store' : UserStore}
variable (inv : b.Inv username password initially log)
variable (moves : stage.Moves username password b.store (store', stage', event))

include inv moves

theorem Bootstrap.Inv.step_taken
    : username ∈ store'.names
      ↔ Open (· = .inserted) (· = .deleted) (log ++ [event])
        ∨ (initially ∧ .deleted ∉ log ++ [event]) := by
  rcases moves.names with ⟨rfl, free⟩ | ⟨rfl, taken⟩ | ⟨unclosed, unopened, same⟩
  · refine iff_of_false free fun h => ?_
    rcases h with opened | ⟨-, none⟩
    · rcases open_append.mp opened with opening | ⟨-, unclosed⟩
      · cases opening
      · exact unclosed rfl
    · exact none (List.mem_append_right _ List.mem_cons_self)
  · exact iff_of_true taken (Or.inl (open_append.mpr (Or.inl rfl)))
  · rw [show store' = b.store from same, inv.taken, open_append, not_mem_append_iff unclosed]
    simp [unclosed, unopened]

theorem Bootstrap.Inv.step_deleted
    : (∃ stage ∈ b.calls.set i stage', stage.Inserting) → .deleted ∈ log ++ [event] := by
  intro h
  obtain ⟨other, mem, inserting⟩ := h
  rcases List.mem_or_eq_of_mem_set mem with earlier | rfl
  · exact List.mem_append_left _ (inv.deleted ⟨other, earlier, inserting⟩)
  · cases moves with
    | deleted => exact List.mem_append_right _ List.mem_cons_self
    | _ => cases inserting

/-- A call fails where a password is too long, or its INSERT follows another one directly. -/
theorem Bootstrap.Inv.step_failed (found : b.calls[i]? = some stage)
    : (∃ stage ∈ b.calls.set i stage', stage.Failed)
      ↔ ¬ ((password.utf8ByteSize ≤ maxPasswordBytes ∨ .deleted ∉ log ++ [event])
        ∧ Separated (· = .inserted) (· = .deleted) (log ++ [event])) := by
  rw [exists_mem_set found (by cases moves <;> exact id), inv.failed]
  cases moves with
  | skipped | began | found | missing =>
      rw [separated_append_iff Event.noConfusion, not_mem_append_iff Event.noConfusion]
      exact or_iff_right id
  | deleted fits =>
      rw [separated_append_iff Event.noConfusion]
      simp [fits, Stage.Failed]
  | rejected long => simp [long, Stage.Failed]
  | inserted ok =>
      have free := (UserStore.insert_eq_some ok).1
      have closed : ¬ Open (· = .inserted) (· = .deleted) log :=
        fun opened => free (inv.taken.mpr (Or.inl opened))
      rw [separated_append, not_mem_append_iff Event.noConfusion]
      simp [closed, Stage.Failed]
  | refused taken =>
      have opened : Open (· = .inserted) (· = .deleted) log := by
        rcases inv.taken.mp taken with opened | ⟨-, none⟩
        · exact opened
        · exact absurd (inv.deleted ⟨_, List.mem_of_getElem? found, trivial⟩) none
      rw [separated_append]
      simp [opened, Stage.Failed]

theorem Bootstrap.Inv.step_missing (named : username ≠ "") (secret : password ≠ "")
    (found : b.calls[i]? = some stage)
    : username ∉ store'.names
      → (password.utf8ByteSize ≤ maxPasswordBytes ∨ .deleted ∉ log ++ [event])
      → (∃ stage ∈ b.calls.set i stage', stage.Inserting)
        ∨ ¬ ∃ stage ∈ b.calls.set i stage', stage.Returned := by
  intro free possible
  have returns : (∃ stage ∈ b.calls.set i stage', stage.Returned)
      ↔ stage'.Returned ∨ ∃ stage ∈ b.calls, stage.Returned :=
    exists_mem_set found (by cases moves <;> exact id)
  cases moves with
  | skipped empty =>
      rcases empty with empty | empty
      · exact absurd empty named
      · exact absurd empty secret
  | began | missing =>
      rw [not_mem_append_iff Event.noConfusion] at possible
      rw [returns]
      rcases inv.missing free possible with waiting | none
      · exact Or.inl ((exists_mem_set found id).mpr (Or.inr waiting))
      · exact Or.inr fun h => none (h.resolve_left id)
  | found taken => exact absurd taken free
  | deleted => exact Or.inl ((exists_mem_set found id).mpr (Or.inl trivial))
  | rejected long =>
      rcases possible with fits | none
      · exact absurd fits long
      · exact absurd (List.mem_append_right _ List.mem_cons_self) none
  | inserted ok =>
      rcases Stage.Moves.names (.inserted ok : Stage.Moves username password _ _ _)
        with ⟨same, -⟩ | ⟨-, taken⟩ | ⟨-, other, -⟩
      · cases same
      · exact absurd taken free
      · exact absurd rfl other
  | refused taken => exact absurd taken free

end Step

theorem Bootstrap.Inv.step (inv : b.Inv username password initially log) (named : username ≠ "")
    (secret : password ≠ "") (h : Acts (Bootstrap.step username password) b event b')
    : b'.Inv username password initially (log ++ [event]) := by
  obtain ⟨i, stage, stage', found, moves, calls⟩ := Bootstrap.step_moves h
  refine ⟨inv.step_taken moves, ?_, ?_, ?_⟩ <;> rw [calls]
  · exact inv.step_deleted moves
  · exact inv.step_failed moves found
  · exact inv.step_missing moves named secret found

/-- No call returns an error, and when all calls have returned, exactly one row has the name. -/
def Bootstrap.Settles (username : String) (b : Bootstrap) : Prop :=
  (∀ stage ∈ b.calls, ∀ err, stage = .returned err → err = none)
  ∧ ((∀ stage ∈ b.calls, ∃ err, stage = .returned err)
    → b.store.users.affected (fun user => user.username = some username) = 1)

theorem inv_of_run {store : UserStore} {n : Nat} (named : username ≠ "") (secret : password ≠ "")
    (run : Runs (Acts (Bootstrap.step username password)) ⟨store, List.replicate n .called⟩ log b)
    : b.calls.length = n ∧ b.Inv username password (username ∈ store.names) log := by
  apply run.invariant (fun log b => b.calls.length = n
    ∧ b.Inv username password (username ∈ store.names) log)
  · have none (P : Stage → Prop) (unmet : ¬ P .called)
        : ¬ ∃ stage ∈ List.replicate n Stage.called, P stage := by
      intro h
      obtain ⟨stage, mem, holds⟩ := h
      rw [List.eq_of_mem_replicate mem] at holds
      exact unmet holds
    refine ⟨List.length_replicate, ?_, fun h => absurd h (none _ id), ?_, fun _ _ => ?_⟩
    · simp [not_open_nil]
    · exact iff_of_false (none _ id) (by simp [separated_nil])
    · exact Or.inr (none _ id)
  · intro log b event b' inv h
    refine ⟨?_, inv.2.step named secret h⟩
    obtain ⟨i, stage, stage', -, -, calls⟩ := Bootstrap.step_moves h
    rw [calls, List.length_set]
    exact inv.1

/-- In every interleaving of the calls they do so exactly when bcrypt takes the password, or no
call comes to hash it, and a DELETE lies between any two INSERTs.
-/
theorem bootstrap_settles_iff {n : Nat} (named : username ≠ "") (secret : password ≠ "")
    (some : 0 < n) (store : UserStore)
    (run : Runs (Acts (Bootstrap.step username password)) ⟨store, List.replicate n .called⟩ log b)
    : b.Settles username
      ↔ (password.utf8ByteSize ≤ maxPasswordBytes ∨ .deleted ∉ log)
        ∧ Separated (· = .inserted) (· = .deleted) log := by
  obtain ⟨length, inv⟩ := inv_of_run named secret run
  have unfailed : (∀ stage ∈ b.calls, ∀ err, stage = .returned err → err = none)
      ↔ ¬ ∃ stage ∈ b.calls, stage.Failed := by
    constructor
    · intro nil h
      obtain ⟨stage, mem, failed⟩ := h
      cases stage with
      | returned err =>
          rw [nil _ mem err rfl] at failed
          exact failed
      | _ => exact failed
    · intro nil stage mem err same
      subst same
      cases err with
      | none => rfl
      | some err => exact absurd ⟨_, mem, trivial⟩ nil
  rw [Bootstrap.Settles, unfailed, inv.failed, not_not]
  refine and_iff_left_of_imp fun condition finished => ?_
  apply UserStore.affected_of_mem_names
  by_contra free
  rcases inv.missing free condition.1 with ⟨stage, mem, inserting⟩ | none
  · obtain ⟨err, rfl⟩ := finished stage mem
    exact inserting
  · obtain ⟨stage, mem⟩ := List.exists_mem_of_length_pos (length ▸ some)
    obtain ⟨err, rfl⟩ := finished stage mem
    exact none ⟨_, mem, trivial⟩

/-- Two instances one after the other: the second one finds the user. -/
theorem bootstrap_settles_iff_inTurn
    : ∃ b log, perform (Bootstrap.step "admin" "secret")
          ⟨⟨.empty, List.nodup_nil⟩, List.replicate 2 .called⟩
          [ (0, "hash"), (0, "hash"), (0, "hash"), (0, "hash"), (1, "hash"), (1, "hash") ]
          = some (b, log)
        ∧ b.Settles "admin" ∧ Separated (· = .inserted) (· = .deleted) log := by
  have performed :=
    show perform (Bootstrap.step "admin" "secret")
        ⟨⟨.empty, List.nodup_nil⟩, List.replicate 2 .called⟩
        [ (0, "hash"), (0, "hash"), (0, "hash"), (0, "hash"), (1, "hash"), (1, "hash") ]
      = some (_, _)
    from rfl
  have exactly := bootstrap_settles_iff (by decide) (by decide) (by decide) _
    (runs_of_perform performed)
  have nil (stage : Stage) (mem : stage ∈ [.returned none, .returned none]) (err : Option String)
      (same : stage = .returned err)
      : err = none := by
    rcases List.mem_pair.mp mem with rfl | rfl <;> exact (Stage.returned.inj same).symm
  exact ⟨_, _, performed, ⟨nil, fun _ => rfl⟩, (exactly.mp ⟨nil, fun _ => rfl⟩).2⟩

/-- Two instances that both find no user: both delete, both insert, and the second INSERT fails. -/
theorem second_bootstrap_fails
    : ∃ b log, perform (Bootstrap.step "admin" "secret")
          ⟨⟨.empty, List.nodup_nil⟩, List.replicate 2 .called⟩
          [ (0, "hash"), (1, "hash"), (0, "hash"), (1, "hash"), (0, "hash"), (1, "hash"),
            (0, "hash"), (1, "hash") ] = some (b, log)
        ∧ b.calls = [.returned none,
            .returned (some "pq: duplicate key value violates unique constraint")]
        ∧ ¬ b.Settles "admin" := by
  refine ⟨_, _, rfl, rfl, fun settles => ?_⟩
  have error := settles.1 _ (List.mem_cons_of_mem _ List.mem_cons_self) _ rfl
  cases error

end GoFire.Users
