import GoFire.Web.Dashboard

/-! The replies of the dashboard: a handler sets at most one cookie, and this is a message to the next
page or, from the login and the logout, the token.
-/

namespace GoFire.Web

open GoFire.CronParser (Text)
open GoFire.Store GoFire.Users

/-- The cookies that carry messages. -/
inductive Kind where
  | flash
  | warning
  deriving DecidableEq

def Kind.name : Kind → Text
  | .flash => "flash".toList
  | .warning => "warning".toList

structure Notice where
  kind : Kind
  message : Text
  nonempty : message ≠ []

def Notice.cookie (notice : Notice) : Text × Text := (notice.kind.name, queryEscape notice.message)

/-- The routes behind the middleware. -/
def Route.isProtected : Route → Bool
  | .login => false
  | .logout => false
  | _ => true

def Request.username (r : Request) : String := String.ofList (r.form.get "username".toList)

def Request.password (r : Request) : String := String.ofList (r.form.get "password".toList)

/-- What the handlers behind the middleware make of a new writer: at most one message, and no
redirect to the login.
-/
inductive Writer.Ordinary : Writer → Prop where
  | new : Ordinary {}
  | flash {message : Text} (nonempty : message ≠ [])
      : Ordinary (({} : Writer).setCookie "flash" (queryEscape message))
  | redirect {w : Writer} (before : Ordinary w) {location : String} (other : location ≠ "/login")
      : Ordinary (w.redirect location)
  | error {w : Writer} (before : Ordinary w) (status : Nat) (text : String)
      : Ordinary (w.error status text)
  | render {w : Writer} (before : Ordinary w) (page : String) : Ordinary (w.render page)

/-- No cookie, or one message. -/
def Told (cookies : List (Text × Text)) : Prop :=
  cookies = [] ∨ ∃ notice : Notice, cookies = [notice.cookie]

theorem told_notice (kind : Kind) {message : Text} (nonempty : message ≠ [])
    : Told [(kind.name, sanitizeCookieValue (queryEscape message))] := by
  refine Or.inr ⟨⟨kind, message, nonempty⟩, ?_⟩
  rw [sanitizeCookieValue_queryEscape]
  rfl

/-- A message has no bar. -/
theorem Told.no_bar {cookies : List (Text × Text)} (told : Told cookies)
    : ∀ cookie ∈ cookies, '|' ∉ cookie.2 := by
  intro cookie mem bar
  rcases told with rfl | ⟨notice, rfl⟩
  · exact absurd mem List.not_mem_nil
  · rw [List.mem_singleton.mp mem] at bar
    exact (queryEscape_char bar).2.2.2 rfl

/-- A header is the one sent before or a new one with the cookies set so far. -/
theorem Writer.writeHeader_cases (w : Writer) (status : Nat) (location : Option String)
    {header : Header} (sent : (w.writeHeader status location).header = some header)
    : w.header = some header ∨ header = ⟨status, location, w.cookies⟩ := by
  unfold writeHeader at sent
  split at sent
  case h_1 => exact Or.inl sent
  case h_2 =>
    cases sent
    exact Or.inr rfl

theorem Writer.writeHeader_cookies (w : Writer) (status : Nat) (location : Option String)
    : (w.writeHeader status location).cookies = w.cookies := by
  unfold writeHeader
  split <;> rfl

/-- By induction on what was written. -/
theorem Writer.Ordinary.cookies {w : Writer} (ordinary : w.Ordinary) : Told w.cookies := by
  induction ordinary with
  | new => exact Or.inl rfl
  | flash nonempty => exact told_notice .flash nonempty
  | redirect before other ih =>
      rw [Writer.redirect, writeHeader_cookies]
      exact ih
  | error before status text ih =>
      rw [Writer.error, writeHeader_cookies]
      exact ih
  | render before page ih =>
      rw [Writer.render, writeHeader_cookies]
      exact ih

theorem Writer.Ordinary.header {w : Writer} (ordinary : w.Ordinary) {header : Header}
    (sent : w.header = some header)
    : header.location ≠ some "/login" ∧ Told header.cookies := by
  induction ordinary with
  | new => cases sent
  | flash nonempty => cases sent
  | redirect before other ih =>
      rcases writeHeader_cases _ _ _ sent with old | rfl
      · exact ih old
      · exact ⟨fun same => other (Option.some.inj same), before.cookies⟩
  | error before status text ih =>
      rcases writeHeader_cases _ _ _ sent with old | rfl
      · exact ih old
      · exact ⟨nofun, before.cookies⟩
  | render before page ih =>
      rcases writeHeader_cases _ _ _ sent with old | rfl
      · exact ih old
      · exact ⟨nofun, before.cookies⟩

-----------------------------------------------------------------------------------------
-- Handlers behind the middleware
-----------------------------------------------------------------------------------------

section Handlers

variable (stores : Stores) (r : Request) (answers : Answers)

theorem handleDashboardAction_ordinary
    : (handleDashboardAction stores r answers {}).2.1.Ordinary := by
  simp only [handleDashboardAction]
  split
  case isTrue => exact .new
  case isFalse =>
    split
    case isFalse => exact (Writer.Ordinary.flash (by decide)).redirect (by decide)
    case isTrue =>
      split
      case h_1 => exact .new
      case h_2 =>
        split
        case h_1 => exact .new
        case h_2 => exact (Writer.Ordinary.flash (by decide)).redirect (by decide)

theorem handleEnqueued_ordinary : (handleEnqueued stores r answers {}).2.Ordinary := by
  have acted := handleDashboardAction_ordinary stores r answers
  unfold handleEnqueued
  split
  case h_1 same =>
    rw [same] at acted
    exact acted.error _ _
  case h_2 same =>
    rw [same] at acted
    dsimp only
    split
    case isTrue => exact acted.render _
    case isFalse => exact acted.error _ _

theorem handleCronJobs_ordinary : (handleCronJobs answers {}).2.Ordinary := by
  simp only [handleCronJobs]
  split
  case isTrue => exact Writer.Ordinary.new.render _
  case isFalse => exact Writer.Ordinary.new.error _ _

theorem handleChangeCronJobStatus_ordinary : (handleChangeCronJobStatus r {}).2.Ordinary := by
  simp only [handleChangeCronJobStatus]
  split
  case isTrue => exact Writer.Ordinary.new.error _ _
  case isFalse =>
    split
    case isTrue => exact Writer.Ordinary.new.error _ _
    case isFalse =>
      split
      case isTrue => exact Writer.Ordinary.new.error _ _
      case isFalse =>
        split
        case h_1 => exact Writer.Ordinary.new.error _ _
        case h_2 =>
          split
          case isTrue => exact (Writer.Ordinary.flash (by decide)).redirect (by decide)
          case isFalse => exact (Writer.Ordinary.flash (by decide)).redirect (by decide)

theorem handleCharts_ordinary : (handleCharts r answers {}).2.Ordinary := by
  simp only [handleCharts]
  split
  case isFalse => exact Writer.Ordinary.new.render _
  case isTrue =>
    dsimp only
    split
    case isTrue => exact Writer.Ordinary.new.error _ _
    case isFalse =>
      split
      case isTrue => exact Writer.Ordinary.new.error _ _
      case isFalse => exact Writer.Ordinary.new.render _

theorem handleIndex_ordinary (mac : Bytes → Bytes → Bytes) (h : Handler)
    : (handleIndex mac h r {}).2.Ordinary := by
  simp only [handleIndex]
  split
  case isTrue => exact Writer.Ordinary.new.redirect (by decide)
  case isFalse => exact Writer.Ordinary.new.redirect (by decide)

end Handlers

variable {mac : Bytes → Bytes → Bytes} {h : Handler}
  {compareHashAndPassword : String → String → Bool} {stores : Stores} {r : Request}
  {answers : Answers} {header : Header}

/-- A protected route has an ordinary handler behind the middleware. -/
theorem serve_behind (behind : r.route.isProtected = true)
    : ∃ next : Option JobStatement × Writer, next.2.Ordinary
        ∧ h.serve mac compareHashAndPassword stores r answers = authMiddleware mac h r {} next := by
  unfold Handler.serve
  cases route : r.route with
  | enqueued => exact ⟨_, handleEnqueued_ordinary stores r answers, rfl⟩
  | cronJobs => exact ⟨_, handleCronJobs_ordinary answers, rfl⟩
  | changeCronJobStatus => exact ⟨_, handleChangeCronJobStatus_ordinary r, rfl⟩
  | charts => exact ⟨_, handleCharts_ordinary r answers, rfl⟩
  | index => exact ⟨_, handleIndex_ordinary r mac h, rfl⟩
  | login | logout =>
      rw [route] at behind
      cases behind

/-- Behind the middleware a request that is not authenticated gets a redirect to the login and
makes no statement; every other one gets an ordinary reply.
-/
theorem serve_protected {w : Writer} {statement : Option JobStatement} (auth : h.useAuth = true)
    (behind : r.route.isProtected = true)
    (served : h.serve mac compareHashAndPassword stores r answers = (statement, w))
    : (isAuthenticated mac r.cookieLines h.secretKey = true ∧ w.Ordinary)
      ∨ (isAuthenticated mac r.cookieLines h.secretKey = false ∧ statement = none
        ∧ w = Writer.redirect {} "/login") := by
  obtain ⟨next, ordinary, same⟩ := serve_behind behind
  rw [served, authMiddleware, auth, Bool.true_and] at same
  cases authenticated : isAuthenticated mac r.cookieLines h.secretKey with
  | true =>
      rw [authenticated] at same
      obtain rfl : (statement, w) = next := same
      exact Or.inl ⟨rfl, ordinary⟩
  | false =>
      rw [authenticated] at same
      cases same
      exact Or.inr ⟨rfl, rfl, rfl⟩

-----------------------------------------------------------------------------------------
-- Logins and all routes
-----------------------------------------------------------------------------------------

/-- A login tells a warning, or hands out the token of the user it found. -/
theorem handleLogin_header
    (sent : (handleLogin mac h compareHashAndPassword stores r answers {}).header = some header)
    : Told header.cookies
      ∨ (r.method = .post ∧ header.cookies = [authCookie mac (bytesOf r.username) h.secretKey]
        ∧ ∃ user, stores.userStore.find compareHashAndPassword r.username r.password
          = .ok (some user)) := by
  have refused
      : Told [("warning".toList,
          sanitizeCookieValue (queryEscape "invalid username or password".toList))] :=
    told_notice .warning (by decide)
  unfold handleLogin at sent
  cases method : r.method with
  | get | other =>
      rw [method] at sent
      cases sent
      exact Or.inl (Or.inl rfl)
  | post =>
      rw [method] at sent
      dsimp only at sent
      cases queried : answers.query with
      | false =>
          rw [queried] at sent
          cases sent
          exact Or.inl refused
      | true =>
          rw [queried, if_pos rfl] at sent
          split at sent
          case h_1 =>
            cases sent
            exact Or.inl refused
          case h_2 =>
            cases sent
            exact Or.inl refused
          case h_3 user found =>
            cases sent
            exact Or.inr ⟨rfl, rfl, user, found⟩

/-- Every reply tells at most one message, or it sets the auth cookie. -/
theorem serve_header
    (sent : (h.serve mac compareHashAndPassword stores r answers).2.header = some header)
    : Told header.cookies ∨ ∃ value, header.cookies = [("auth".toList, value)] := by
  cases behind : r.route.isProtected with
  | true =>
      obtain ⟨next, ordinary, same⟩ := serve_behind behind
      rw [same, authMiddleware] at sent
      split at sent
      case isTrue =>
        cases sent
        exact Or.inl (Or.inl rfl)
      case isFalse => exact Or.inl (ordinary.header sent).2
  | false =>
      unfold Handler.serve at sent
      cases route : r.route with
      | login =>
          rw [route] at sent
          rcases handleLogin_header sent with told | ⟨-, token, -⟩
          · exact Or.inl told
          · exact Or.inr ⟨_, token⟩
      | logout =>
          rw [route] at sent
          cases sent
          exact Or.inr ⟨_, rfl⟩
      | _ =>
          rw [route] at behind
          cases behind

/-- A value without a bar stands for no name. -/
theorem not_names {value : Text} (absent : '|' ∉ value) (username code : Bytes)
    : ¬ Names value username code := by
  intro names
  obtain ⟨first, second, rfl, -⟩ := names
  exact absent (List.mem_append_right _ List.mem_cons_self)

/-- Only a login hands out a token that stands for a name, and this is the name of its user. -/
theorem serve_issues {w : Writer} {statement : Option JobStatement} {cookie : Text × Text}
    {username code : Bytes} (auth : h.useAuth = true)
    (served : h.serve mac compareHashAndPassword stores r answers = (statement, w))
    (sent : w.header = some header) (mem : cookie ∈ header.cookies)
    (names : Names cookie.2 username code)
    : r.route = .login ∧ r.method = .post ∧ bytesOf r.username = username
      ∧ code = mac h.secretKey username
      ∧ ∃ user, stores.userStore.find compareHashAndPassword r.username r.password
        = .ok (some user) := by
  cases behind : r.route.isProtected with
  | true =>
      rcases serve_protected auth behind served with ⟨-, ordinary⟩ | ⟨-, -, rfl⟩
      · exact absurd names (not_names ((ordinary.header sent).2.no_bar cookie mem) _ _)
      · cases sent
        exact absurd mem List.not_mem_nil
  | false =>
      unfold Handler.serve at served
      cases route : r.route with
      | login =>
          rw [route] at served
          cases served
          rcases handleLogin_header sent with told | ⟨method, token, found⟩
          · exact absurd names (not_names (told.no_bar cookie mem) _ _)
          · rw [token, List.mem_singleton] at mem
            subst mem
            rw [authCookie_eq] at names
            obtain ⟨rfl, rfl⟩ := names.unique (names_generateAuthToken _ _)
            exact ⟨rfl, method, rfl, rfl, found⟩
      | logout =>
          rw [route] at served
          cases served
          cases sent
          obtain rfl := List.mem_singleton.mp mem
          exact absurd names (not_names (by decide) _ _)
      | _ =>
          rw [route] at behind
          cases behind

end GoFire.Web
