import GoFire.Foundations.TransitionSystem
import GoFire.Users.UserStore

/-! Logins against the table of users. The statements of Create and Delete may come in any order
and from any number of callers; a login depends on the last one that took effect for its name.
-/

namespace GoFire.Users

open TransitionSystem

namespace UserStore

-- bcrypt.CompareHashAndPassword, for a hash and a password.
variable (compareHashAndPassword : String → String → Bool)

/-- Find, whose query is answered. The password of a user that is found is cleared. -/
def find (s : UserStore) (username password : String) : Except String (Option User) :=
  match s.findByUsername username with
  | none => .ok none
  | some user =>
      match user.password with
      | none =>
          .error "sql: Scan error on column index 2, converting NULL to string is unsupported"
      | some hash =>
          if compareHashAndPassword hash password then .ok (some { user with password := some "" })
          else .error "user not found"

/-- Delete, whose statement is answered. -/
def delete (s : UserStore) (username : String) : UserStore × Except String Unit :=
  (s.deleteByUsername username,
    if username ∈ s.names then .ok () else .error "no user found to delete")

end UserStore

/-- The statements that change the table: the DELETE of Create and Delete, and the INSERT that
Create makes once the password is hashed.
-/
inductive Statement where
  | deleteByUsername (username : String) (delivery : Delivery)
  | insert (username password : String) (hashed : Option String) (delivery : Delivery)

/-- What a statement did. -/
inductive Change where
  | unchanged
  | deleted (username : String)
  | inserted (username hash : String)

def UserStore.step (s : UserStore) : Statement → Option (UserStore × Change)
  | .deleteByUsername username delivery =>
      match delivery with
      | .refused => some (s, .unchanged)
      | _ => some (s.deleteByUsername username, .deleted username)
  | .insert username password hashed delivery =>
      match generateFromPassword password hashed with
      | .error _ => some (s, .unchanged)
      | .ok hash =>
          match delivery, s.insert username hash with
          | .refused, _ => some (s, .unchanged)
          | _, none => some (s, .unchanged)
          | _, some (inserted, _) => some (inserted, .inserted username hash)

/-- An empty table. -/
def UserStore.initial : UserStore := ⟨.empty, List.nodup_nil⟩

/-- What a change leaves of the hash that a name had. -/
def Change.hashAfter (username : String) (before : Option String) : Change → Option String
  | .unchanged => before
  | .deleted other => if other = username then none else before
  | .inserted other hash => if other = username then some hash else before

/-- The hash that the log leaves for a name: that of its last insertion, unless a deletion
followed.
-/
def latestHash (log : List Change) (username : String) : Option String :=
  log.foldl (Change.hashAfter username) none

variable {s s' : UserStore} {username password : String} {change : Change} {log : List Change}

theorem latestHash_append (log : List Change) (change : Change) (username : String)
    : latestHash (log ++ [change]) username = change.hashAfter username (latestHash log username) := by
  rw [latestHash, List.foldl_append]
  rfl

-----------------------------------------------------------------------------------------
-- Rows by name
-----------------------------------------------------------------------------------------

theorem findByUsername_some {user : User} (found : s.findByUsername username = some user)
    : user.username = some username := by
  simpa using List.find?_some found

theorem findByUsername_delete (s : UserStore) (other username : String)
    : (s.deleteByUsername other).findByUsername username
      = if other = username then none else s.findByUsername username := by
  simp only [UserStore.findByUsername, UserStore.deleteByUsername, KeyedTable.deleteWhere,
    List.find?_filter]
  split
  case isTrue same =>
    subst same
    exact List.find?_eq_none.mpr fun user _ => by simp
  case isFalse different =>
    congr 1
    funext user
    by_cases named : user.username = some username
    · simp [named, Ne.symm different]
    · simp [named]

theorem findByUsername_insert {inserted : UserStore} {other hash : String} {id : Nat}
    (h : s.insert other hash = some (inserted, id)) (username : String)
    : inserted.findByUsername username
      = if other = username then some ⟨s.users.nextKey, some other, some hash⟩
        else s.findByUsername username := by
  obtain ⟨free, rows⟩ := UserStore.insert_eq_some h
  rw [UserStore.findByUsername, rows, List.find?_append]
  split
  case isTrue same =>
    subst same
    have absent : s.findByUsername other = none := by
      rw [← Option.not_isSome_iff_eq_none, UserStore.findByUsername_isSome]
      exact free
    rw [UserStore.findByUsername] at absent
    rw [absent]
    simp
  case isFalse different =>
    simp [UserStore.findByUsername, different]

-----------------------------------------------------------------------------------------
-- Steps
-----------------------------------------------------------------------------------------

/-- What a statement does to the table. -/
inductive UserStore.Moves (s : UserStore) : UserStore → Change → Prop
  | unchanged : s.Moves s .unchanged
  | deleted (username : String) : s.Moves (s.deleteByUsername username) (.deleted username)
  | inserted {inserted : UserStore} {username hash : String} {id : Nat}
      (ok : s.insert username hash = some (inserted, id))
      : s.Moves inserted (.inserted username hash)

theorem UserStore.step_moves {statement : Statement}
    (h : s.step statement = some (s', change))
    : s.Moves s' change := by
  cases statement with
  | deleteByUsername username delivery =>
      cases delivery with
      | refused =>
          cases h
          exact .unchanged
      | answered | lost =>
          cases h
          exact .deleted username
  | insert username password hashed delivery =>
      simp only [step] at h
      split at h
      case h_1 =>
        cases h
        exact .unchanged
      case h_2 hash hashes =>
        split at h
        case h_1 =>
          cases h
          exact .unchanged
        case h_2 =>
          cases h
          exact .unchanged
        case h_3 inserted id ok =>
          cases h
          exact .inserted ok

/-- Create alone is its two statements. -/
theorem UserStore.create_steps (s : UserStore) (username password : String)
    (hashed : Option String) (deletion insertion : Delivery)
    : ∃ changes, perform UserStore.step s
          [.deleteByUsername username deletion, .insert username password hashed insertion]
        = some ((s.create username password hashed deletion insertion).1, changes) := by
  have afterDelete : ∃ change, UserStore.step s (.deleteByUsername username deletion)
      = some (deletion.apply s (s.deleteByUsername username), change) := by
    cases deletion with
    | _ => exact ⟨_, rfl⟩
  obtain ⟨change, deleted⟩ := afterDelete
  unfold UserStore.create
  generalize deletion.apply s (s.deleteByUsername username) = afterDelete at deleted ⊢
  refine Exists.imp' (change :: ·) (fun _ => perform_cons deleted) ?_
  simp only [perform, UserStore.step]
  cases generateFromPassword password hashed with
  | error err => exact ⟨_, rfl⟩
  | ok hash =>
      cases inserted : afterDelete.insert username hash with
      | none => cases insertion <;> simp [inserted]
      | some next => cases insertion <;> simp [inserted]

/-- The hash of a name, if the table has a row for it. -/
def UserStore.hash (s : UserStore) (username : String) : Option (Option String) :=
  (s.findByUsername username).map User.password

/-- Each step changes the hashes of the table as it changes those of the log. -/
theorem UserStore.Moves.hash (moves : s.Moves s' change) {before : Option String}
    (same : s.hash username = before.map some)
    : s'.hash username = (change.hashAfter username before).map some := by
  cases moves with
  | unchanged => exact same
  | deleted other =>
      rw [UserStore.hash, findByUsername_delete, Change.hashAfter]
      split
      · rfl
      · exact same
  | inserted ok =>
      rw [UserStore.hash, findByUsername_insert ok, Change.hashAfter]
      split
      · rfl
      · exact same

theorem hash_of_run (run : Runs (Acts UserStore.step) .initial log s) (username : String)
    : s.hash username = (latestHash log username).map some := by
  refine run.invariant (fun log s => s.hash username = (latestHash log username).map some) rfl ?_
  intro log s change s' same h
  obtain ⟨statement, taken⟩ := h
  rw [latestHash_append]
  exact (UserStore.step_moves taken).hash same

theorem UserStore.find_of_no_hash {username : String} (same : s.hash username = none)
    (compareHashAndPassword : String → String → Bool) (password : String)
    : s.find compareHashAndPassword username password = .ok none := by
  rw [UserStore.hash, Option.map_eq_none_iff] at same
  simp only [UserStore.find, same]

/-- A login reads the hash of the name and nothing else. -/
theorem UserStore.find_of_hash {username hash : String} (same : s.hash username = some (some hash))
    (compareHashAndPassword : String → String → Bool) (password : String)
    : if compareHashAndPassword hash password = true then
        ∃ id, s.find compareHashAndPassword username password
          = .ok (some ⟨id, some username, some ""⟩)
      else
        s.find compareHashAndPassword username password = .error "user not found" := by
  rw [UserStore.hash, Option.map_eq_some_iff] at same
  obtain ⟨user, found, hashed⟩ := same
  have named := findByUsername_some found
  simp only [UserStore.find, found, hashed]
  split
  · exact ⟨user.id, by rw [named]⟩
  · rfl

/-- After any statements of any callers a login finds nobody for a name that was deleted last or
never inserted, and else the user exactly if the password fits the hash that was inserted last.
-/
theorem find_of_run (run : Runs (Acts UserStore.step) .initial log s)
    (compareHashAndPassword : String → String → Bool) (username password : String)
    : match latestHash log username with
      | none => s.find compareHashAndPassword username password = .ok none
      | some hash =>
          if compareHashAndPassword hash password = true then
            ∃ id, s.find compareHashAndPassword username password
              = .ok (some ⟨id, some username, some ""⟩)
          else
            s.find compareHashAndPassword username password = .error "user not found" := by
  have same := hash_of_run run username
  cases latest : latestHash log username with
  | none =>
      rw [latest] at same
      exact UserStore.find_of_no_hash same compareHashAndPassword password
  | some hash =>
      rw [latest] at same
      exact UserStore.find_of_hash same compareHashAndPassword password

/-- A second Create replaces the password of the first one. -/
theorem find_of_run_replaced
    : ∃ s log id, perform UserStore.step .initial
          [ .deleteByUsername "admin" .answered, .insert "admin" "old" (some "#old") .answered,
            .deleteByUsername "admin" .lost, .insert "admin" "new" (some "#new") .answered ]
          = some (s, log)
        ∧ s.find (fun hash password => hash = "#" ++ password) "admin" "new"
          = .ok (some ⟨id, some "admin", some ""⟩) := by
  have performed :=
    show perform UserStore.step .initial
        [ .deleteByUsername "admin" .answered, .insert "admin" "old" (some "#old") .answered,
          .deleteByUsername "admin" .lost, .insert "admin" "new" (some "#new") .answered ]
      = some (_, _)
    from rfl
  obtain ⟨id, found⟩ :=
    find_of_run (runs_of_perform performed) (fun hash password => hash = "#" ++ password)
      "admin" "new"
  exact ⟨_, _, id, performed, found⟩

end GoFire.Users
