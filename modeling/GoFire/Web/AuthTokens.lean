import GoFire.CronParser.FieldCoverage
import GoFire.Foundations.Base64
import GoFire.Web.Cookies

/-! The token of the auth cookie: a user name and its keyed hash, both in base64. The dashboard
keeps no session; a token is accepted for what it says.
-/

namespace GoFire.Web

open GoFire.CronParser (Text split)

/-- A Go string as its bytes. -/
abbrev Bytes := List UInt8

-- HMAC with SHA-256: the code of a message under a key.
variable (mac : Bytes → Bytes → Bytes)

def generateAuthToken (username secretKey : Bytes) : Text :=
  Base64.encode username ++ '|' :: Base64.encode (mac secretKey username)

def isValidAuthToken (token : Text) (secretKey : Bytes) : Bool :=
  match split token '|' with
  | [first, second] =>
      match Base64.decode first with
      | none => false
      | some usernameBytes =>
          match Base64.decode second with
          | none => false
          | some expectedMac => expectedMac = mac secretKey usernameBytes
  | _ => false

/-- The cookie that handleLogin sets. -/
def authCookie (username secretKey : Bytes) : Text × Text :=
  ("auth".toList, sanitizeCookieValue (generateAuthToken mac username secretKey))

/-- isAuthenticated, for the Cookie headers of a request. -/
def isAuthenticated (lines : List Text) (secretKey : Bytes) : Bool :=
  match requestCookie lines "auth".toList with
  | none => false
  | some value => isValidAuthToken mac value secretKey

/-- The texts that stand for a user name and a code. Line breaks may stand anywhere in either
half, and the bits that its padding leaves unused are free.
-/
def Names (token : Text) (username code : Bytes) : Prop :=
  ∃ first second, token = first ++ '|' :: second
    ∧ Base64.Spells (Base64.unbroken first) username
    ∧ Base64.Spells (Base64.unbroken second) code

variable {mac} {token : Text} {username code secretKey : Bytes}

-----------------------------------------------------------------------------------------
-- What a token says
-----------------------------------------------------------------------------------------

/-- A half of a token has no bar. -/
theorem bar_not_mem {text : Text} {bytes : Bytes}
    (spells : Base64.Spells (Base64.unbroken text) bytes)
    : '|' ∉ text := by
  intro mem
  have kept : '|' ∈ Base64.unbroken text := List.mem_filter.mpr ⟨mem, by decide⟩
  exact spells.not_mem (by decide) kept

/-- A token is read as its two halves. -/
theorem names_iff_split
    : Names token username code
      ↔ ∃ first second, split token '|' = [first, second]
        ∧ Base64.decode first = some username ∧ Base64.decode second = some code := by
  constructor
  · intro names
    obtain ⟨first, second, rfl, spells, spells'⟩ := names
    exact ⟨first, second, CronParser.split_pair (bar_not_mem spells) (bar_not_mem spells'),
      Base64.decode_eq_some_iff.mpr spells, Base64.decode_eq_some_iff.mpr spells'⟩
  · intro h
    obtain ⟨first, second, halves, read, read'⟩ := h
    exact ⟨first, second, (CronParser.eq_of_split_pair halves).1,
      Base64.decode_eq_some_iff.mp read, Base64.decode_eq_some_iff.mp read'⟩

/-- A token says one thing. -/
theorem Names.unique {username' code' : Bytes} (names : Names token username code)
    (names' : Names token username' code')
    : username = username' ∧ code = code' := by
  obtain ⟨first, second, halves, read, read'⟩ := names_iff_split.mp names
  obtain ⟨first', second', halves', again, again'⟩ := names_iff_split.mp names'
  rw [halves] at halves'
  cases halves'
  rw [read] at again
  rw [read'] at again'
  exact ⟨Option.some.inj again, Option.some.inj again'⟩

theorem names_generateAuthToken (username secretKey : Bytes)
    : Names (generateAuthToken mac username secretKey) username (mac secretKey username) := by
  refine ⟨_, _, rfl, ?_, ?_⟩
  · rw [Base64.unbroken_of_spells (Base64.spells_encode _)]
    exact Base64.spells_encode _
  · rw [Base64.unbroken_of_spells (Base64.spells_encode _)]
    exact Base64.spells_encode _

/-- The tokens that are accepted under a key are the texts that stand for a user name and its
code.
-/
theorem isValidAuthToken_iff_names
    : isValidAuthToken mac token secretKey = true
      ↔ ∃ username, Names token username (mac secretKey username) := by
  simp only [names_iff_split]
  constructor
  · intro valid
    unfold isValidAuthToken at valid
    split at valid
    case h_2 => cases valid
    case h_1 first second halves =>
      split at valid
      case h_1 => cases valid
      case h_2 usernameBytes read =>
        split at valid
        case h_1 => cases valid
        case h_2 expectedMac read' =>
          rw [decide_eq_true_eq.mp valid] at read'
          exact ⟨usernameBytes, first, second, halves, read, read'⟩
  · intro h
    obtain ⟨username, first, second, halves, read, read'⟩ := h
    simp only [isValidAuthToken, halves, read, read', decide_true]

-----------------------------------------------------------------------------------------
-- The way through the browser
-----------------------------------------------------------------------------------------

/-- Every symbol of base64 may stand in a cookie's value, without quotes. -/
theorem isSymbol_cookie {c : Char} (symbol : Base64.isSymbol c = true)
    : validCookieValueByte c = true ∧ c ≠ ' ' ∧ c ≠ ',' := by
  have allowed : Base64.alphabet.all (fun c => validCookieValueByte c && c != ' ' && c != ',')
      = true := by decide
  rw [Base64.isSymbol, Bool.or_eq_true, decide_eq_true_eq, decide_eq_true_eq] at symbol
  rcases symbol with digit | rfl
  · simpa [and_assoc] using List.all_eq_true.mp allowed c digit
  · decide

theorem generateAuthToken_chars (username secretKey : Bytes)
    : ∀ c ∈ generateAuthToken mac username secretKey,
        validCookieValueByte c = true ∧ c ≠ ' ' ∧ c ≠ ',' := by
  intro c mem
  rcases List.mem_append.mp mem with first | later
  · exact isSymbol_cookie ((Base64.spells_encode _).symbols c first)
  · rcases List.mem_cons.mp later with rfl | second
    · decide
    · exact isSymbol_cookie ((Base64.spells_encode _).symbols c second)

/-- SetCookie sends the token as it is. -/
theorem authCookie_eq (username secretKey : Bytes)
    : authCookie mac username secretKey
      = ("auth".toList, generateAuthToken mac username secretKey) := by
  have chars := @generateAuthToken_chars mac username secretKey
  have kept : (generateAuthToken mac username secretKey).filter validCookieValueByte
      = generateAuthToken mac username secretKey :=
    List.filter_eq_self.mpr fun c mem => (chars c mem).1
  have noBlank : ' ' ∉ generateAuthToken mac username secretKey :=
    fun mem => (chars _ mem).2.1 rfl
  have noComma : ',' ∉ generateAuthToken mac username secretKey :=
    fun mem => (chars _ mem).2.2 rfl
  rw [authCookie, sanitizeCookieValue, kept]
  simp [noBlank, noComma]

theorem authCookie_plain (username secretKey : Bytes) : Plain (authCookie mac username secretKey) := by
  rw [authCookie_eq]
  refine ⟨show isToken "auth".toList = true by decide, fun c mem => ?_⟩
  obtain ⟨valid, other, -⟩ := generateAuthToken_chars username secretKey c mem
  exact ⟨valid, other⟩

/-- A generated token is accepted under a key exactly when the user's code is the same under it. -/
theorem isValidAuthToken_generated (username secretKey secretKey' : Bytes)
    : isValidAuthToken mac (generateAuthToken mac username secretKey) secretKey' = true
      ↔ mac secretKey username = mac secretKey' username := by
  rw [isValidAuthToken_iff_names]
  have names := @names_generateAuthToken mac username secretKey
  constructor
  · intro h
    obtain ⟨username', names'⟩ := h
    obtain ⟨rfl, same⟩ := names.unique names'
    exact same
  · intro same
    exact ⟨username, same ▸ names⟩

/-- The cookie of a login, which the browser sends among its other cookies, authenticates exactly
under the keys that give the user the same code. No other cookie of that name may come before.
-/
theorem login_cookie_authenticates (username secretKey secretKey' : Bytes)
    (before after : List (Text × Text)) (others : ∀ cookie ∈ before ++ after, Plain cookie)
    (first : ∀ cookie ∈ before, cookie.1 ≠ "auth".toList)
    : isAuthenticated mac
          [cookieHeader (before ++ authCookie mac username secretKey :: after)] secretKey' = true
      ↔ mac secretKey username = mac secretKey' username := by
  rw [← isValidAuthToken_generated]
  have plain : ∀ cookie ∈ before ++ authCookie mac username secretKey :: after, Plain cookie := by
    intro cookie mem
    rcases List.mem_append.mp mem with early | later
    · exact others cookie (List.mem_append_left _ early)
    · rcases List.mem_cons.mp later with rfl | late
      · exact authCookie_plain username secretKey
      · exact others cookie (List.mem_append_right _ late)
  have skipped : before.find? (fun cookie => cookie.1 = "auth".toList) = none :=
    List.find?_eq_none.mpr fun cookie mem => by simpa using first cookie mem
  rw [isAuthenticated, requestCookie_header plain, List.find?_append, skipped, authCookie_eq]
  simp

/-- The code of the name admin under the key secret. -/
def adminCode : Bytes :=
  [ 31, 216, 73, 186, 249, 204, 36, 195, 193, 63, 131, 0, 93, 140, 32, 114, 200, 68, 228, 38, 69,
    132, 128, 232, 233, 212, 122, 234, 114, 26, 116, 140 ]

def admin : Bytes := [97, 100, 109, 105, 110]

def secret : Bytes := [115, 101, 99, 114, 101, 116]

/-- The keyed hash where only that name and that key are hashed. -/
def adminMac : Bytes → Bytes → Bytes := fun _ _ => adminCode

example
    : generateAuthToken adminMac admin secret
      = "YWRtaW4=|H9hJuvnMJMPBP4MAXYwgcshE5CZFhIDo6dR66nIadIw=".toList := by
  decide

/-- With a message in another cookie before it. -/
theorem login_cookie_authenticates_admin
    : isAuthenticated adminMac
        [cookieHeader ([("flash".toList, "Job+removed+successfully%21".toList)]
          ++ authCookie adminMac admin secret :: [])] secret = true :=
  (login_cookie_authenticates admin secret secret
    [("flash".toList, "Job+removed+successfully%21".toList)] [] (by decide) (by decide)).mpr rfl

/-- A request is authenticated exactly when its first auth cookie stands for a user name and the
code of this name under the key.
-/
theorem isAuthenticated_iff (lines : List Text) (secretKey : Bytes)
    : isAuthenticated mac lines secretKey = true
      ↔ ∃ value username, requestCookie lines "auth".toList = some value
        ∧ Names value username (mac secretKey username) := by
  unfold isAuthenticated
  cases requestCookie lines "auth".toList with
  | none => simp
  | some value => simp [isValidAuthToken_iff_names]

end GoFire.Web
