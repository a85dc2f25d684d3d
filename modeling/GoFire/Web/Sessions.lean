import GoFire.Web.Replies

/-! The dashboard over a run: requests of any clients, the statements on the users and what the rest
of the program does to the jobs, in any order. The dashboard remembers no login; who gets through
is decided by what its replies have handed out.
-/

namespace GoFire.Web

open GoFire.CronParser (Text)
open GoFire.Store GoFire.Users TransitionSystem

/-- A request, the statement that its handler made, and the reply. -/
structure Exchange where
  request : Request
  statement : Option JobStatement
  reply : Writer

inductive Event where
  | exchanged (exchange : Exchange)
  | users (change : Change)
  | jobs

inductive Action where
  | request (r : Request) (answers : Answers)
  | users (statement : Statement)
  | jobs (queue : QueueStore) (cron : CronStore)

variable (mac : Bytes → Bytes → Bytes) (h : Handler)
  (compareHashAndPassword : String → String → Bool)

/-- One request, one statement on the users, or any change of the jobs by others. -/
def Stores.step (stores : Stores) : Action → Option (Stores × Event)
  | .request r answers =>
      let (statement, reply) := h.serve mac compareHashAndPassword stores r answers
      let after :=
        match statement with
        | none => stores
        | some change => answers.statement.apply stores (change.apply stores)
      some (after, .exchanged ⟨r, statement, reply⟩)
  | .users statement =>
      (stores.userStore.step statement).map fun next =>
        ({ stores with userStore := next.1 }, .users next.2)
  | .jobs queue cron =>
      some ({ stores with enqueuedJobStore := queue, cronJobStore := cron }, .jobs)

/-- No users yet. -/
def Stores.initial (queue : QueueStore) (cron : CronStore) : Stores := ⟨queue, cron, .initial⟩

def Event.change : Event → Option Change
  | .users change => some change
  | _ => none

/-- The changes of the table of users in a log. -/
def changes (log : List Event) : List Change := log.filterMap Event.change

/-- The user sent a password that fitted the hash the table had for the name. -/
def LoggedIn (log : List Event) (username : String) : Prop :=
  ∃ before exchange after hash, log = before ++ .exchanged exchange :: after
    ∧ exchange.request.route = .login ∧ exchange.request.method = .post
    ∧ exchange.request.username = username
    ∧ latestHash (changes before) username = some hash
    ∧ compareHashAndPassword hash exchange.request.password = true

/-- A reply handed out a cookie that stands for the name and the code. -/
def Issued (log : List Event) (username code : Bytes) : Prop :=
  ∃ exchange header cookie, .exchanged exchange ∈ log ∧ exchange.reply.header = some header
    ∧ cookie ∈ header.cookies ∧ Names cookie.2 username code

/-- The auth cookie of a request stands for the name and the code. -/
def Request.Presents (r : Request) (username code : Bytes) : Prop :=
  ∃ value, requestCookie r.cookieLines "auth".toList = some value ∧ Names value username code

/-- Nobody makes up a code: one that is right for a name under the key has been handed out by a
reply before a request presents it.
-/
def Unforged (log : List Event) : Prop :=
  ∀ before exchange after, log = before ++ .exchanged exchange :: after
    → ∀ username, exchange.request.Presents username (mac h.secretKey username)
      → ∃ username', Issued before username' (mac h.secretKey username)

/-- No name that a request presents has the code of another name that a reply has handed out. -/
def Apart (log : List Event) : Prop :=
  ∀ exchange username username' code code', .exchanged exchange ∈ log
    → exchange.request.Presents username code → Issued log username' code'
    → mac h.secretKey username = mac h.secretKey username' → username = username'

/-- The reply is not that of the middleware. -/
def Exchange.Served (exchange : Exchange) : Prop :=
  exchange.reply.header.bind Header.location ≠ some "/login"

variable {mac h compareHashAndPassword}

-----------------------------------------------------------------------------------------
-- Runs
-----------------------------------------------------------------------------------------

variable {queue : QueueStore} {cron : CronStore} {log : List Event} {s s' : Stores}

theorem JobStatement.apply_userStore (statement : JobStatement) (stores : Stores)
    (delivery : Delivery)
    : (delivery.apply stores (statement.apply stores)).userStore = stores.userStore := by
  have same : (statement.apply stores).userStore = stores.userStore := by
    cases statement with
    | _ =>
        simp only [JobStatement.apply]
        split <;> rfl
  cases delivery with
  | refused => rfl
  | answered | lost => exact same

/-- What a step is: an exchange whose handler saw the stores, a statement on the users, or a change
of the jobs only.
-/
theorem step_cases {event : Event} (taken : Acts (Stores.step mac h compareHashAndPassword) s event s')
    : (∃ exchange answers, event = .exchanged exchange ∧ s'.userStore = s.userStore
        ∧ (exchange.statement = none → s' = s)
        ∧ h.serve mac compareHashAndPassword s exchange.request answers
          = (exchange.statement, exchange.reply))
      ∨ (∃ change, event = .users change ∧ Acts UserStore.step s.userStore change s'.userStore)
      ∨ (event = .jobs ∧ s'.userStore = s.userStore) := by
  obtain ⟨action, taken⟩ := taken
  cases action with
  | request r answers =>
      simp only [Stores.step] at taken
      cases taken
      refine Or.inl ⟨_, answers, rfl, ?_, fun none => ?_, rfl⟩
      · split
        · rfl
        · exact JobStatement.apply_userStore _ _ _
      · dsimp only at none
        rw [none]
  | users statement =>
      simp only [Stores.step, Option.map_eq_some_iff] at taken
      obtain ⟨next, moved, same⟩ := taken
      cases same
      exact Or.inr (Or.inl ⟨next.2, rfl, statement, moved⟩)
  | jobs queue cron =>
      cases taken
      exact Or.inr (Or.inr ⟨rfl, rfl⟩)

/-- The table of users goes through the changes of the log. -/
theorem users_run
    (run : Runs (Acts (Stores.step mac h compareHashAndPassword)) (.initial queue cron) log s)
    : Runs (Acts UserStore.step) .initial (changes log) s.userStore := by
  refine run.invariant
    (fun log s => Runs (Acts UserStore.step) .initial (changes log) s.userStore) .stop ?_
  intro log s event s' before taken
  rcases step_cases taken with ⟨exchange, answers, rfl, same, -, -⟩ | ⟨change, rfl, moved⟩
    | ⟨rfl, same⟩
  · rw [changes, List.filterMap_append, same]
    exact (List.append_nil (changes log)).symm ▸ before
  · rw [changes, List.filterMap_append]
    exact before.step moved
  · rw [changes, List.filterMap_append, same]
    exact (List.append_nil (changes log)).symm ▸ before

/-- A token is handed out only to a user that logged in, and with the code of its name. -/
theorem logged_in_of_issued (auth : h.useAuth = true)
    (run : Runs (Acts (Stores.step mac h compareHashAndPassword)) (.initial queue cron) log s)
    {username code : Bytes} (issued : Issued log username code)
    : code = mac h.secretKey username
      ∧ ∃ name, bytesOf name = username ∧ LoggedIn compareHashAndPassword log name := by
  obtain ⟨exchange, header, cookie, logged, sent, mem, names⟩ := issued
  obtain ⟨before, after, rfl⟩ := List.append_of_mem logged
  obtain ⟨t, t', earlier, taken, -⟩ := run.split
  rcases step_cases taken with ⟨exchange', answers, same, -, -, served⟩ | ⟨change, same, -⟩
    | ⟨same, -⟩
  case inr.inl => cases same
  case inr.inr => cases same
  cases same
  obtain ⟨route, method, named, code, user, found⟩ := serve_issues auth served sent mem names
  refine ⟨code, exchange.request.username, named, ?_⟩
  have same := hash_of_run (users_run earlier) exchange.request.username
  cases latest : latestHash (changes before) exchange.request.username with
  | none =>
      rw [latest] at same
      rw [UserStore.find_of_no_hash same] at found
      cases found
  | some hash =>
      rw [latest] at same
      have looked :=
        UserStore.find_of_hash same compareHashAndPassword exchange.request.password
      rw [found] at looked
      split at looked
      case isFalse => cases looked
      case isTrue fits => exact ⟨before, exchange, after, hash, rfl, route, method, rfl, latest, fits⟩

/-- What a reply from behind the middleware shows of the request. -/
theorem served_iff_authenticated {exchange : Exchange} {stores : Stores} {answers : Answers}
    (auth : h.useAuth = true) (behind : exchange.request.route.isProtected = true)
    (served : h.serve mac compareHashAndPassword stores exchange.request answers
      = (exchange.statement, exchange.reply))
    : exchange.Served ↔ isAuthenticated mac exchange.request.cookieLines h.secretKey = true := by
  rw [Exchange.Served]
  rcases serve_protected auth behind served with ⟨yes, ordinary⟩ | ⟨no, -, same⟩
  · refine iff_of_true (fun location => ?_) yes
    obtain ⟨header, sent, redirected⟩ := Option.bind_eq_some_iff.mp location
    exact (ordinary.header sent).1 redirected
  · refine iff_of_false (fun other => other ?_) (by rw [no]; exact Bool.false_ne_true)
    rw [same]
    rfl

/-- A request that is authenticated presents the code of its name, and this code was handed out
with the name.
-/
theorem presents_issued (auth : h.useAuth = true)
    (run : Runs (Acts (Stores.step mac h compareHashAndPassword)) (.initial queue cron) log s)
    (unforged : Unforged mac h log) (apart : Apart mac h log) {before after : List Event}
    {exchange : Exchange} (whole : log = before ++ .exchanged exchange :: after)
    (authenticated : isAuthenticated mac exchange.request.cookieLines h.secretKey = true)
    : ∃ username, exchange.request.Presents username (mac h.secretKey username)
        ∧ Issued before username (mac h.secretKey username) := by
  obtain ⟨value, username, presented, names⟩ := (isAuthenticated_iff _ _).mp authenticated
  have presents : exchange.request.Presents username (mac h.secretKey username) :=
    ⟨value, presented, names⟩
  obtain ⟨username', issued⟩ := unforged before exchange after whole username presents
  obtain ⟨t, -, earlier, -, -⟩ := (whole ▸ run).split
  obtain ⟨code, -⟩ := logged_in_of_issued auth earlier issued
  have logged : .exchanged exchange ∈ log := by simp [whole]
  have issuedLater : Issued log username' (mac h.secretKey username) := by
    obtain ⟨other, header, cookie, mem, rest⟩ := issued
    exact ⟨other, header, cookie, by rw [whole]; exact List.mem_append_left _ mem, rest⟩
  obtain rfl := apart exchange username username' _ _ logged presents issuedLater code
  exact ⟨username, presents, issued⟩

/-- In every run without forged codes a request gets behind the middleware exactly when its auth
cookie says what the cookie of an earlier login said, whatever happened in between.
-/
theorem served_iff_issued (auth : h.useAuth = true)
    (run : Runs (Acts (Stores.step mac h compareHashAndPassword)) (.initial queue cron) log s)
    (unforged : Unforged mac h log) (apart : Apart mac h log) {before after : List Event}
    {exchange : Exchange} (whole : log = before ++ .exchanged exchange :: after)
    (behind : exchange.request.route.isProtected = true)
    : exchange.Served
      ↔ ∃ username code, exchange.request.Presents username code
          ∧ Issued before username code := by
  obtain ⟨t, t', earlier, taken, -⟩ := (whole ▸ run).split
  rcases step_cases taken with ⟨exchange', answers, same, -, -, served⟩ | ⟨change, same, -⟩
    | ⟨same, -⟩
  case inr.inl => cases same
  case inr.inr => cases same
  cases same
  rw [served_iff_authenticated auth behind served]
  constructor
  · intro authenticated
    obtain ⟨username, presents, issued⟩ := presents_issued auth run unforged apart whole authenticated
    exact ⟨username, _, presents, issued⟩
  · intro h'
    obtain ⟨username, code, ⟨value, presented, names⟩, issued⟩ := h'
    obtain ⟨rfl, -⟩ := logged_in_of_issued auth earlier issued
    exact (isAuthenticated_iff _ _).mpr ⟨value, username, presented, names⟩

-----------------------------------------------------------------------------------------
-- A login and a removal
-----------------------------------------------------------------------------------------

def adminHandler : Handler := ⟨secret, true⟩

/-- bcrypt, where a hash is the password behind a sign. -/
def comparesSigned (hash password : String) : Bool := hash = "#" ++ password

def loginRequest : Request where
  route := .login
  method := .post
  query := []
  form := [("username".toList, "admin".toList), ("password".toList, "pass".toList)]
  cookieLines := []

/-- The removal of the job with key 1, with the token of the login. -/
def removeRequest : Request where
  route := .enqueued
  method := .get
  query := []
  form := [("action".toList, "remove".toList), ("id".toList, "1".toList)]
  cookieLines := [cookieHeader [("auth".toList, generateAuthToken adminMac admin secret)]]

def answered : Answers := ⟨.answered, true, true⟩

/-- The user is created and logs in. -/
def logsIn : List Action :=
  [.users (.insert "admin" "pass" (some "#pass") .answered), .request loginRequest answered]

/-- A table with one job. -/
def oneJob : QueueStore := QueueStore.insert ⟨.empty, 0⟩ "mail" 0 none

theorem removeRequest_cookie
    : requestCookie removeRequest.cookieLines "auth".toList
      = some (generateAuthToken adminMac admin secret) :=
  rfl

theorem removeRequest_presents {username code : Bytes}
    (presents : removeRequest.Presents username code)
    : username = admin ∧ code = adminCode := by
  obtain ⟨value, presented, names⟩ := presents
  rw [removeRequest_cookie] at presented
  obtain rfl := Option.some.inj presented
  exact names.unique (names_generateAuthToken admin secret)

theorem login_issues {login : Exchange}
    (sent : login.reply.header
      = some ⟨303, some "/charts", [authCookie adminMac admin secret]⟩)
    : Issued [.users (.inserted "admin" "#pass"), .exchanged login] admin adminCode := by
  refine ⟨login, _, authCookie adminMac admin secret,
    List.mem_cons_of_mem _ (List.mem_singleton_self _), sent, List.mem_singleton_self _, ?_⟩
  rw [authCookie_eq]
  exact names_generateAuthToken admin secret

/-- The log of the login and one more exchange. -/
def loginAnd (login exchange : Exchange) : List Event :=
  [.users (.inserted "admin" "#pass"), .exchanged login] ++ [.exchanged exchange]

theorem removal_unforged {login exchange : Exchange} (first : login.request = loginRequest)
    (issued : Issued [.users (.inserted "admin" "#pass"), .exchanged login] admin adminCode)
    : Unforged adminMac adminHandler (loginAnd login exchange) := by
  intro before other after whole username presents
  cases before with
  | nil => cases whole
  | cons earliest before =>
      cases before with
      | nil =>
          cases whole
          obtain ⟨value, presented, -⟩ := presents
          rw [first] at presented
          cases presented
      | cons earlier before =>
          cases before with
          | nil =>
              cases whole
              exact ⟨admin, issued⟩
          | cons early before => simp [loginAnd] at whole

theorem removal_apart {login exchange : Exchange} {s : Stores} (first : login.request = loginRequest)
    (second : exchange.request = removeRequest)
    (run : Runs (Acts (Stores.step adminMac adminHandler comparesSigned))
      (.initial oneJob ⟨.empty, 0⟩) (loginAnd login exchange) s)
    : Apart adminMac adminHandler (loginAnd login exchange) := by
  intro other username username' code code' logged presents issued _
  have named : username = admin := by
    rcases (by simpa [loginAnd] using logged : other = login ∨ other = exchange) with rfl | rfl
    · obtain ⟨value, presented, -⟩ := presents
      rw [first] at presented
      cases presented
    · exact (removeRequest_presents (second ▸ presents)).1
  obtain ⟨-, name, same, before, other, after, hash, whole, route, -, sent, -⟩ :=
    logged_in_of_issued (show adminHandler.useAuth = true from rfl) run issued
  have logged : .exchanged other ∈ loginAnd login exchange := by simp [whole]
  rcases (by simpa [loginAnd] using logged : other = login ∨ other = exchange) with rfl | rfl
  · rw [named, ← same, ← sent, first]
    rfl
  · rw [second] at route
    cases route

/-- The removal is served. -/
theorem served_iff_issued_removal
    : ∃ s login exchange, perform (Stores.step adminMac adminHandler comparesSigned)
          (.initial oneJob ⟨.empty, 0⟩) (logsIn ++ [.request removeRequest answered])
          = some (s, loginAnd login exchange)
        ∧ exchange.Served := by
  have performed :=
    show perform (Stores.step adminMac adminHandler comparesSigned)
        (.initial oneJob ⟨.empty, 0⟩) (logsIn ++ [.request removeRequest answered])
      = some (_, loginAnd _ _)
    from rfl
  have run := runs_of_perform performed
  refine ⟨_, _, _, performed, ?_⟩
  exact (served_iff_issued rfl run (removal_unforged rfl (login_issues rfl))
    (removal_apart rfl rfl run) rfl rfl).mpr
      ⟨admin, adminCode, ⟨_, removeRequest_cookie, names_generateAuthToken admin secret⟩,
        login_issues rfl⟩

/-- A request changes the jobs only with the token of a user that logged in before, with the
password of that time.
-/
theorem jobs_changed_after_login (auth : h.useAuth = true)
    {before : List Event} {t t' : Stores} {exchange : Exchange}
    (run : Runs (Acts (Stores.step mac h compareHashAndPassword)) (.initial queue cron) before t)
    (taken : Acts (Stores.step mac h compareHashAndPassword) t (.exchanged exchange) t')
    (unforged : Unforged mac h (before ++ [.exchanged exchange]))
    (apart : Apart mac h (before ++ [.exchanged exchange]))
    (changed : t'.enqueuedJobStore ≠ t.enqueuedJobStore ∨ t'.cronJobStore ≠ t.cronJobStore)
    : ∃ name, LoggedIn compareHashAndPassword before name
        ∧ exchange.request.Presents (bytesOf name) (mac h.secretKey (bytesOf name)) := by
  rcases step_cases taken with ⟨exchange', answers, same, -, idle, served⟩ | ⟨change, same, -⟩
    | ⟨same, -⟩
  case inr.inl => cases same
  case inr.inr => cases same
  cases same
  have made : exchange.statement ≠ none := by
    intro none
    rw [idle none] at changed
    exact changed.elim (fun h => h rfl) fun h => h rfl
  have behind : exchange.request.route.isProtected = true := by
    by_contra open_
    refine made ?_
    unfold Handler.serve at served
    cases route : exchange.request.route with
    | login | logout =>
        rw [route] at served
        exact (congrArg Prod.fst served).symm
    | _ => exact absurd (by rw [route]; rfl) open_
  rcases serve_protected auth behind served with ⟨authenticated, -⟩ | ⟨-, none, -⟩
  case inr => exact absurd none made
  obtain ⟨username, presents, issued⟩ :=
    presents_issued auth (run.step taken) unforged apart rfl authenticated
  obtain ⟨-, name, rfl, loggedIn⟩ := logged_in_of_issued auth run issued
  exact ⟨name, loggedIn, presents⟩

/-- The removal leaves no job. -/
theorem jobs_changed_after_login_removal
    : ∃ t log, perform (Stores.step adminMac adminHandler comparesSigned)
          (.initial oneJob ⟨.empty, 0⟩) logsIn = some (t, log)
        ∧ ∃ name, LoggedIn comparesSigned log name
          ∧ removeRequest.Presents (bytesOf name) (adminMac secret (bytesOf name)) := by
  have performed :=
    show perform (Stores.step adminMac adminHandler comparesSigned)
        (.initial oneJob ⟨.empty, 0⟩) logsIn
      = some (_, _)
    from rfl
  have run := runs_of_perform performed
  refine ⟨_, _, performed, ?_⟩
  refine jobs_changed_after_login rfl run ⟨.request removeRequest answered, rfl⟩
    (removal_unforged rfl (login_issues rfl)) ?_ (Or.inl fun same => ?_)
  · exact removal_apart rfl rfl (run.step ⟨.request removeRequest answered, rfl⟩)
  · cases congrArg (fun store => store.jobs.rows.length) same

end GoFire.Web
