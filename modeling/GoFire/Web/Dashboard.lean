import GoFire.Store.CronJobStore
import GoFire.Store.EnqueuedJobStore
import GoFire.Users.Credentials
import GoFire.Web.AuthTokens
import GoFire.Web.FlashMessages
import GoFire.Web.PageNumbers

/-! The handlers of the dashboard: what each of them does to the tables for a request and what it
sends. The contents of the pages are left to their queries.
-/

namespace GoFire.Web

open GoFire.CronParser (Text)
open GoFire.Store GoFire.Users

inductive Method where
  | get
  | post
  | other
  deriving DecidableEq

inductive Route where
  | enqueued
  | cronJobs
  | changeCronJobStatus
  | charts
  | index
  | login
  | logout
  deriving DecidableEq

/-- `form` is what FormValue reads and `parses` whether ParseForm succeeds. -/
structure Request where
  route : Route
  method : Method
  query : Values
  form : Values
  parses : Bool := true
  cookieLines : List Text

/-- What the client receives: the header of the first WriteHeader and the cookies set before it. -/
structure Header where
  status : Nat
  location : Option String
  cookies : List (Text × Text)

/-- A ResponseWriter: the cookies set so far, the header once it is sent, and what follows it. -/
structure Writer where
  cookies : List (Text × Text) := []
  header : Option Header := none
  body : List String := []

namespace Writer

def setCookie (w : Writer) (name : String) (value : Text) : Writer :=
  { w with cookies := w.cookies ++ [(name.toList, sanitizeCookieValue value)] }

/-- A second header is superfluous and not sent. -/
def writeHeader (w : Writer) (status : Nat) (location : Option String) : Writer :=
  match w.header with
  | some _ => w
  | none => { w with header := some ⟨status, location, w.cookies⟩ }

def redirect (w : Writer) (location : String) : Writer := w.writeHeader 303 (some location)

def error (w : Writer) (status : Nat) (text : String) : Writer :=
  let w := w.writeHeader status none
  { w with body := w.body ++ [text] }

/-- A page is sent with status 200 unless a header was sent before. -/
def render (w : Writer) (page : String) : Writer :=
  let w := w.writeHeader 200 none
  { w with body := w.body ++ [page] }

end Writer

/-- The statements that a handler makes to change the jobs. -/
inductive JobStatement where
  | removeByID (jobID : Int)
  | activate (jobID : Int)
  | deActivate (jobID : Int)

/-- What the database answers to a request: to its statement, and whether its queries succeed. -/
structure Answers where
  statement : Delivery
  query : Bool
  secondQuery : Bool

/-- The stores behind the dashboard. -/
structure Stores where
  enqueuedJobStore : QueueStore
  cronJobStore : CronStore
  userStore : UserStore

/-- HttpRouteHandler without its stores. -/
structure Handler where
  secretKey : Bytes
  useAuth : Bool

/-- A Go string as its bytes. -/
def bytesOf (text : String) : Bytes := text.toByteArray.data.toList

/-- strings.TrimSpace. -/
def trimSpace (text : Text) : Text :=
  ((text.dropWhile CronParser.isSpace).reverse.dropWhile CronParser.isSpace).reverse

/-- The numbers that can be the key of a row. -/
def IsKey (jobID : Int) : Prop := 0 ≤ jobID ∧ jobID < 2 ^ 31

instance (jobID : Int) : Decidable (IsKey jobID) := inferInstanceAs (Decidable (_ ∧ _))

/-- A statement for another number meets no row. -/
def JobStatement.apply (stores : Stores) : JobStatement → Stores
  | .removeByID jobID =>
      if IsKey jobID then
        { stores with
          enqueuedJobStore := (stores.enqueuedJobStore.removeByID jobID.toNat).1 }
      else stores
  | .activate jobID =>
      if IsKey jobID then
        { stores with cronJobStore := stores.cronJobStore.activate jobID.toNat }
      else stores
  | .deActivate jobID =>
      if IsKey jobID then
        { stores with cronJobStore := stores.cronJobStore.deActivate jobID.toNat }
      else stores

/-- The error of RemoveByID, if there is one. -/
def removeError (stores : Stores) (jobID : Int) (delivery : Delivery) : Option String :=
  let failed := "failed to delete job " ++ toString jobID ++ ": "
  match delivery with
  | .refused => some (failed ++ "the statement failed")
  | .lost => some (failed ++ "driver: bad connection")
  | .answered =>
      if jobID < -2 ^ 31 ∨ 2 ^ 31 ≤ jobID then
        some (failed ++ "pq: value is out of range for type integer")
      else if IsKey jobID ∧ (stores.enqueuedJobStore.removeByID jobID.toNat).2 = true then none
      else some ("no job found with id " ++ toString jobID)

section Handlers

variable (stores : Stores) (r : Request) (answers : Answers) (w : Writer)

/-- handleDashboardAction, with the error that it returns. The redirect it sends does not end the
request.
-/
def handleDashboardAction : Option JobStatement × Writer × Option String :=
  let action := trimSpace (r.form.get "action".toList)
  if action = [] then (none, w, none)
  else
    let redirected :=
      (w.setCookie "flash" (queryEscape "Job removed successfully!".toList)).redirect "/enqueued"
    if action = "remove".toList then
      match parseInt (r.form.get "id".toList) with
      | none => (none, w, some "invalid job id")
      | some jobID =>
          match removeError stores jobID answers.statement with
          | some err => (some (.removeByID jobID), w, some ("failed to remove job: " ++ err))
          | none => (some (.removeByID jobID), redirected, none)
    else (none, redirected, none)

def handleEnqueued : Option JobStatement × Writer :=
  match handleDashboardAction stores r answers w with
  | (statement, w, some err) => (statement, w.error 400 err)
  | (statement, w, none) =>
      (statement,
        if answers.query then w.render "enqueued" else w.error 500 "Failed to fetch jobs")

def handleCronJobs : Option JobStatement × Writer :=
  (none, if answers.query then w.render "cron" else w.error 500 "Failed to fetch jobs")

/-- The errors of Activate and DeActivate are dropped. -/
def handleChangeCronJobStatus : Option JobStatement × Writer :=
  if r.method ≠ .post then (none, w.error 405 "Method Not Allowed")
  else if !r.parses then (none, w.error 400 "Bad Request")
  else
    let action := r.form.get "action".toList
    let idStr := r.form.get "id".toList
    if idStr = [] ∨ (action ≠ "activate".toList ∧ action ≠ "deactivate".toList) then
      (none, w.error 400 "Invalid Parameters")
    else
      match parseInt idStr with
      | none => (none, w.error 400 "Invalid ID")
      | some id =>
          let flash := fun message : String =>
            (w.setCookie "flash" (queryEscape message.toList)).redirect "/cron-jobs"
          if action = "activate".toList then
            (some (.activate id), flash "Job activated successfully!")
          else (some (.deActivate id), flash "Job deactivated successfully!")

def handleCharts : Option JobStatement × Writer :=
  if r.query.get "loadCharts".toList ≠ [] then
    (none,
      if !answers.query then w.error 500 "Failed to get enqueued jobs"
      else if !answers.secondQuery then w.error 500 "Failed to get cron jobs"
      else w.render "json")
  else (none, w.render "charts")

end Handlers

section Authenticated

variable (mac : Bytes → Bytes → Bytes) (h : Handler)

def handleIndex (r : Request) (w : Writer) : Option JobStatement × Writer :=
  (none,
    if isAuthenticated mac r.cookieLines h.secretKey then w.redirect "charts"
    else w.redirect "login")

/-- After an error of Find the handler goes on; the header of its first redirect is sent. -/
def handleLogin (compareHashAndPassword : String → String → Bool) (stores : Stores) (r : Request)
    (answers : Answers) (w : Writer)
    : Writer :=
  match r.method with
  | .get => w.render "login"
  | .other => w.error 405 "Method Not Allowed"
  | .post =>
      let username := String.ofList (r.form.get "username".toList)
      let password := String.ofList (r.form.get "password".toList)
      let refuse := fun (w : Writer) =>
        (w.setCookie "warning" (queryEscape "invalid username or password".toList)).redirect
          "/login"
      if answers.query then
        match stores.userStore.find compareHashAndPassword username password with
        | .error _ => refuse (refuse w)
        | .ok none => refuse w
        | .ok (some _) =>
            { w with cookies := w.cookies ++ [authCookie mac (bytesOf username) h.secretKey] }.redirect
              "/charts"
      else refuse (refuse w)

def handleLogout (w : Writer) : Writer := (w.setCookie "auth" []).redirect "/login"

/-- authMiddleware. -/
def authMiddleware (r : Request) (w : Writer) (next : Option JobStatement × Writer)
    : Option JobStatement × Writer :=
  if h.useAuth && !isAuthenticated mac r.cookieLines h.secretKey then
    (none, w.redirect "/login")
  else next

/-- The handler of a route: the statement it makes, and what it sends. -/
def Handler.serve (compareHashAndPassword : String → String → Bool) (stores : Stores)
    (r : Request) (answers : Answers)
    : Option JobStatement × Writer :=
  match r.route with
  | .enqueued => authMiddleware mac h r {} (handleEnqueued stores r answers {})
  | .cronJobs => authMiddleware mac h r {} (handleCronJobs answers {})
  | .changeCronJobStatus => authMiddleware mac h r {} (handleChangeCronJobStatus r {})
  | .charts => authMiddleware mac h r {} (handleCharts r answers {})
  | .index => authMiddleware mac h r {} (handleIndex mac h r {})
  | .login => (none, handleLogin mac h compareHashAndPassword stores r answers {})
  | .logout => (none, handleLogout {})

end Authenticated

end GoFire.Web
