import GoFire.Foundations.KeyedTable

/-! The store of the dashboard users. Create deletes the row of the name, hashes the password and
inserts a new row, in statements of their own.
-/

namespace GoFire.Users

/-- A row of users. -/
structure User where
  id : Nat
  username : Option String
  password : Option String

/-- The table users; no two rows have the same name. -/
structure UserStore where
  users : KeyedTable User User.id
  distinct : (users.rows.filterMap User.username).Nodup

/-- The most bytes of a password that bcrypt takes. -/
def maxPasswordBytes : Nat := 72

/-- bcrypt.GenerateFromPassword, which returns the given hash unless it fails. -/
def generateFromPassword (password : String) (hashed : Option String) : Except String String :=
  if maxPasswordBytes < password.utf8ByteSize then
    .error "bcrypt: password length exceeds 72 bytes"
  else
    match hashed with
    | some hash => .ok hash
    | none => .error "bcrypt: no salt"

namespace UserStore

/-- The names that are taken. -/
def names (s : UserStore) : List String := s.users.rows.filterMap User.username

/-- FindByUsername, whose query is answered. -/
def findByUsername (s : UserStore) (username : String) : Option User :=
  s.users.rows.find? (fun user => user.username = some username)

/-- The DELETE of Create. -/
def deleteByUsername (s : UserStore) (username : String) : UserStore where
  users := s.users.deleteWhere (fun user => user.username = some username)
  distinct := s.distinct.sublist (List.filter_sublist.filterMap User.username)

/-- The INSERT of Create; the constraint refuses a name that is taken. It returns the key. -/
def insert (s : UserStore) (username hash : String) : Option (UserStore × Nat) :=
  if free : username ∉ s.names then
    some
      ({ users := s.users.insert (fun id => ⟨id, some username, some hash⟩) (fun _ => rfl)
         distinct := by
          have appended
              : (s.users.insert (fun id => ⟨id, some username, some hash⟩)
                  (fun _ => rfl)).rows.filterMap User.username = s.names ++ [username] := by
            rw [KeyedTable.insert, List.filterMap_append]
            rfl
          rw [appended, List.nodup_append]
          refine ⟨s.distinct, List.nodup_singleton _, ?_⟩
          intro name taken new mem same
          rw [List.mem_singleton.mp mem] at same
          exact free (same ▸ taken) },
        s.users.nextKey)
  else none

/-- Create. The error of the DELETE is dropped. Every error of the server, that of a name too
long for its column too, refuses its statement.
-/
def create (s : UserStore) (username password : String) (hashed : Option String)
    (deletion insertion : Delivery)
    : UserStore × Except String Nat :=
  let s := deletion.apply s (s.deleteByUsername username)
  match generateFromPassword password hashed with
  | .error err => (s, .error err)
  | .ok hash =>
      match insertion, s.insert username hash with
      | .answered, some (inserted, id) => (inserted, .ok id)
      | .lost, some (inserted, _) => (inserted, .error "driver: bad connection")
      | .refused, _ => (s, .error "the statement failed")
      | _, none => (s, .error "pq: duplicate key value violates unique constraint")

variable {s : UserStore} {username : String}

theorem mem_names : username ∈ s.names ↔ ∃ user ∈ s.users.rows, user.username = some username :=
  List.mem_filterMap

/-- A name that is taken has exactly one row. -/
theorem affected_of_mem_names (taken : username ∈ s.names)
    : s.users.affected (fun user => user.username = some username) = 1 := by
  have once : s.names.count username = 1 := List.count_eq_one_of_mem s.distinct taken
  rw [names, List.count_filterMap] at once
  rw [KeyedTable.affected, ← once]
  exact List.countP_congr fun user _ => by simp

theorem findByUsername_isSome : (s.findByUsername username).isSome = true ↔ username ∈ s.names := by
  simp [findByUsername, mem_names]

theorem not_mem_names_delete (s : UserStore) (username : String)
    : username ∉ (s.deleteByUsername username).names := by
  rw [mem_names]
  intro h
  obtain ⟨user, mem, named⟩ := h
  have unnamed := (List.mem_filter.mp mem).2
  simp [named] at unnamed

/-- A DELETE leaves the table as it is exactly when the name is free. -/
theorem rows_delete_eq_iff
    : (s.deleteByUsername username).users.rows = s.users.rows ↔ username ∉ s.names := by
  rw [mem_names]
  show s.users.rows.filter _ = _ ↔ _
  rw [List.filter_eq_self]
  constructor
  · intro unnamed h
    obtain ⟨user, mem, named⟩ := h
    simpa [named] using unnamed user mem
  · intro free user mem
    have other : user.username ≠ some username := fun named => free ⟨user, mem, named⟩
    simp [other]

theorem insert_eq_none {hash : String} : s.insert username hash = none ↔ username ∈ s.names := by
  unfold insert
  split
  case isTrue free => simp [free]
  case isFalse taken => simpa using taken

theorem insert_eq_some {hash : String} {inserted : UserStore} {id : Nat}
    (h : s.insert username hash = some (inserted, id))
    : username ∉ s.names
      ∧ inserted.users.rows = s.users.rows ++ [⟨s.users.nextKey, some username, some hash⟩] := by
  unfold insert at h
  split at h
  case isTrue free =>
    cases h
    exact ⟨free, rfl⟩
  case isFalse => cases h

/-- The key of an inserted row is new, also to the table before a DELETE. -/
theorem rows_insert_ne {original inserted : UserStore} {hash : String} {id : Nat}
    (nextKey : s.users.nextKey = original.users.nextKey)
    (h : s.insert username hash = some (inserted, id))
    : inserted.users.rows ≠ original.users.rows := by
  intro same
  have old : (⟨s.users.nextKey, some username, some hash⟩ : User) ∈ original.users.rows := by
    rw [← same, (insert_eq_some h).2]
    exact List.mem_append_right _ List.mem_cons_self
  have below : s.users.nextKey < original.users.nextKey := original.users.below _ old
  omega

-----------------------------------------------------------------------------------------
-- Errors of Create
-----------------------------------------------------------------------------------------

/-- bcrypt takes the password and finds a salt. -/
def Hashes (password : String) (hashed : Option String) : Prop :=
  password.utf8ByteSize ≤ maxPasswordBytes ∧ hashed.isSome = true

instance (password : String) (hashed : Option String) : Decidable (Hashes password hashed) :=
  inferInstanceAs (Decidable (_ ∧ _))

theorem generateFromPassword_ok {password : String} {hashed : Option String}
    (hashes : Hashes password hashed)
    : ∃ hash, generateFromPassword password hashed = .ok hash := by
  obtain ⟨fits, salted⟩ := hashes
  obtain ⟨hash, rfl⟩ := Option.isSome_iff_exists.mp salted
  exact ⟨hash, by rw [generateFromPassword, if_neg (Nat.not_lt.mpr fits)]⟩

theorem generateFromPassword_error {password : String} {hashed : Option String}
    (fails : ¬ Hashes password hashed)
    : ∃ err, generateFromPassword password hashed = .error err := by
  unfold generateFromPassword
  split
  case isTrue => exact ⟨_, rfl⟩
  case isFalse fits =>
    cases hashed with
    | none => exact ⟨_, rfl⟩
    | some hash => exact absurd ⟨Nat.not_lt.mp fits, rfl⟩ fails

/-- Create removes a row unless the name is free or its DELETE is refused. -/
theorem rows_afterDelete_iff (s : UserStore) (username : String) (deletion : Delivery)
    : (deletion.apply s (s.deleteByUsername username)).users.rows = s.users.rows
      ↔ (username ∈ s.names → deletion = .refused) := by
  cases deletion with
  | refused => exact iff_of_true rfl fun _ => rfl
  | answered => exact rows_delete_eq_iff.trans (imp_congr_right fun _ => by simp).symm
  | lost => exact rows_delete_eq_iff.trans (imp_congr_right fun _ => by simp).symm

theorem mem_names_afterDelete (s : UserStore) (username : String) (deletion : Delivery)
    : username ∈ (deletion.apply s (s.deleteByUsername username)).names
      ↔ username ∈ s.names ∧ deletion = .refused := by
  cases deletion with
  | refused => exact (and_iff_left rfl).symm
  | answered => exact iff_of_false (not_mem_names_delete s username) (by simp)
  | lost => exact iff_of_false (not_mem_names_delete s username) (by simp)

/-- Whenever Create returns an error, the rows are as they were. -/
def ErrorKeepsRows (s : UserStore) (username password : String) (hashed : Option String)
    (deletion insertion : Delivery)
    : Prop :=
  ∀ err, (s.create username password hashed deletion insertion).2 = .error err
    → (s.create username password hashed deletion insertion).1.users.rows = s.users.rows

/-- They are exactly when the password is hashed and the INSERT answered, or when nothing is
removed, because the name is free or its DELETE refused, and the answer to the INSERT of a free
name is not lost.
-/
theorem create_errorKeepsRows_iff (s : UserStore) (username password : String)
    (hashed : Option String) (deletion insertion : Delivery)
    : ErrorKeepsRows s username password hashed deletion insertion
      ↔ (Hashes password hashed ∧ insertion = .answered)
        ∨ ((username ∈ s.names → deletion = .refused)
          ∧ ¬ (Hashes password hashed ∧ insertion = .lost ∧ username ∉ s.names)) := by
  have kept := rows_afterDelete_iff s username deletion
  have taken := mem_names_afterDelete s username deletion
  have nextKey : (deletion.apply s (s.deleteByUsername username)).users.nextKey
      = s.users.nextKey := by
    cases deletion <;> rfl
  unfold ErrorKeepsRows create
  generalize deletion.apply s (s.deleteByUsername username) = s₁ at kept taken nextKey ⊢
  by_cases hashes : Hashes password hashed
  case neg =>
    obtain ⟨err, rejected⟩ := generateFromPassword_error hashes
    simp [rejected, hashes, kept]
  case pos =>
    obtain ⟨hash, accepted⟩ := generateFromPassword_ok hashes
    simp only [accepted, hashes, true_and]
    cases tried : s₁.insert username hash with
    | none =>
        obtain ⟨old, refused⟩ := taken.mp (insert_eq_none.mp tried)
        have same := kept.mpr fun _ => refused
        cases insertion <;> simp [same, old, refused]
    | some next =>
        obtain ⟨inserted, id⟩ := next
        have free := (insert_eq_some tried).1
        cases insertion with
        | answered => simp
        | refused => simpa using kept
        | lost =>
            -- The row is there although the caller sees an error.
            have more := rows_insert_ne nextKey tried
            have lost : ¬ ((username ∈ s.names → deletion = .refused)
                ∧ ¬ username ∉ s.names) := by
              intro h
              obtain ⟨refused, present⟩ := h
              exact free (taken.mpr ⟨not_not.mp present, refused (not_not.mp present)⟩)
            simpa [more] using lost

/-- The users table with the row of the administrator. -/
def adminOnly : UserStore :=
  ⟨(KeyedTable.empty.insert (fun id => ⟨id, some "admin", some "hash"⟩) (fun _ => rfl)),
    List.nodup_singleton "admin"⟩

def longPassword : String := String.ofList (List.replicate 73 'a')

/-- A password of 73 bytes is rejected after the row of the user is gone. -/
theorem rejected_password_deletes_user
    : (adminOnly.create "admin" longPassword (some "hash") .answered .answered).2
        = .error "bcrypt: password length exceeds 72 bytes"
      ∧ adminOnly.users.rows = [⟨1, some "admin", some "hash"⟩]
      ∧ (adminOnly.create "admin" longPassword (some "hash") .answered .answered).1.users.rows = []
      ∧ ¬ ErrorKeepsRows adminOnly "admin" longPassword (some "hash") .answered .answered := by
  have rejected : (adminOnly.create "admin" longPassword (some "hash") .answered .answered).2
      = .error "bcrypt: password length exceeds 72 bytes" :=
    rfl
  refine ⟨rejected, rfl, rfl, fun keeps => ?_⟩
  exact absurd (keeps _ rejected) (List.cons_ne_nil _ _).symm

end UserStore

end GoFire.Users
