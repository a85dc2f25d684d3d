import GoFire.Web.Sessions

/-! A browser at the dashboard: its replies leave messages in cookies, and the script of the next page
shows them. The script takes the success message away; it never takes the warning away.
-/

namespace GoFire.Web

open GoFire.CronParser (Text)
open GoFire.Store GoFire.Users TransitionSystem

/-- The cookies for the dashboard's host that scripts can read. A name has one. -/
structure Jar where
  cookies : List (Text × Text)
  nodup : (cookies.map Prod.fst).Nodup

namespace Jar

def empty : Jar := ⟨[], List.nodup_nil⟩

/-- The value of the cookie with a name. -/
def find (jar : Jar) (name : Text) : Option Text :=
  (jar.cookies.find? (fun cookie => cookie.1 = name)).map Prod.snd

theorem map_replace (cookies : List (Text × Text)) (cookie : Text × Text)
    : (cookies.map fun old => if old.1 = cookie.1 then cookie else old).map Prod.fst
      = cookies.map Prod.fst := by
  rw [List.map_map]
  refine List.map_congr_left fun old _ => ?_
  by_cases same : old.1 = cookie.1
  · simp [same]
  · simp [same]

/-- A cookie takes the place of the one with its name. -/
def set (jar : Jar) (cookie : Text × Text) : Jar :=
  if known : cookie.1 ∈ jar.cookies.map Prod.fst then
    { cookies := jar.cookies.map fun old => if old.1 = cookie.1 then cookie else old
      nodup := by
        rw [map_replace]
        exact jar.nodup }
  else
    { cookies := jar.cookies ++ [cookie]
      nodup := by
        rw [List.map_append, List.nodup_append_comm]
        exact List.nodup_cons.mpr ⟨known, jar.nodup⟩ }

def remove (jar : Jar) (name : Text) : Jar where
  cookies := jar.cookies.filter fun cookie => cookie.1 ≠ name
  nodup := jar.nodup.sublist (List.filter_sublist.map Prod.fst)

/-- The cookies of a reply; the auth cookie is hidden from scripts. -/
def receive (jar : Jar) (header : Option Header) : Jar :=
  ((header.map Header.cookies).getD []).foldl
    (fun jar cookie => if cookie.1 = "auth".toList then jar else jar.set cookie) jar

end Jar

/-- What the script of a page shows. -/
structure Shown where
  success : Option Text
  warning : Option Text

/-- In a condition of JavaScript an empty text is false. -/
def truthy (text : Option Text) : Option Text := text.filter fun text => !text.isEmpty

/-- The second half of the listener of scripts.js, which takes the flash cookie away once more. -/
def showWarning (success : Option Text) (jar : Jar) : Shown × Jar :=
  match truthy (getCookie (documentCookie jar.cookies) "warning".toList) with
  | none => (⟨success, none⟩, jar)
  | some warningMessage =>
      match decodeURIComponent warningMessage with
      | none => (⟨success, none⟩, jar)
      | some text => (⟨success, some text⟩, jar.remove "flash".toList)

/-- The listener on DOMContentLoaded of scripts.js. It ends where decodeURIComponent throws. -/
def contentLoaded (jar : Jar) : Shown × Jar :=
  match truthy (getCookie (documentCookie jar.cookies) "flash".toList) with
  | none => showWarning none jar
  | some flashMessage =>
      match decodeURIComponent flashMessage with
      | none => (⟨none, none⟩, jar)
      | some text => showWarning (some text) (jar.remove "flash".toList)

/-- The dashboard, and the cookies of one of its browsers. -/
structure Visit where
  stores : Stores
  jar : Jar

inductive BrowserEvent where
  | others (event : Event)
  | replied (exchange : Exchange)
  | cookie (cookie : Text × Text)
  | expired (name : Text)
  | loaded (shown : Shown)

inductive BrowserAction where
  | others (action : Action)
  | request (r : Request) (answers : Answers)
  | cookie (cookie : Text × Text)
  | expire (name : Text)
  | load

section Steps

variable (mac : Bytes → Bytes → Bytes) (h : Handler)
  (compareHashAndPassword : String → String → Bool)

/-- Other pages on the host set cookies with names of their own. -/
def Visit.step (s : Visit) : BrowserAction → Option (Visit × BrowserEvent)
  | .others action =>
      (s.stores.step mac h compareHashAndPassword action).map fun next =>
        ({ s with stores := next.1 }, .others next.2)
  | .request r answers =>
      match s.stores.step mac h compareHashAndPassword (.request r answers) with
      | some (stores, .exchanged exchange) =>
          some (⟨stores, s.jar.receive exchange.reply.header⟩, .replied exchange)
      | _ => none
  | .cookie cookie =>
      if Plain cookie ∧ cookie.1 ≠ Kind.flash.name ∧ cookie.1 ≠ Kind.warning.name then
        some ({ s with jar := s.jar.set cookie }, .cookie cookie)
      else none
  | .expire name => some ({ s with jar := s.jar.remove name }, .expired name)
  | .load =>
      let (shown, jar) := contentLoaded s.jar
      some ({ s with jar }, .loaded shown)

end Steps

/-- No users yet, and no cookies. -/
def Visit.initial (queue : QueueStore) (cron : CronStore) : Visit :=
  ⟨.initial queue cron, .empty⟩

/-- A reply to the browser sets the cookie of a message. -/
def BrowserEvent.Tells (kind : Kind) (message : Text) (event : BrowserEvent) : Prop :=
  ∃ exchange header, event = .replied exchange ∧ exchange.reply.header = some header
    ∧ header.cookies = [(kind.name, queryEscape message)]

/-- What ends a message: another one of its kind, the end of its cookie, and for a success message
the first page that loads.
-/
def BrowserEvent.Ends (kind : Kind) (event : BrowserEvent) : Prop :=
  (∃ message, event.Tells kind message) ∨ event = .expired kind.name
    ∨ (kind = .flash ∧ ∃ shown, event = .loaded shown)

/-- The message was told and is not over. -/
def Pending (log : List BrowserEvent) (kind : Kind) (message : Text) : Prop :=
  Open (BrowserEvent.Tells kind message) (BrowserEvent.Ends kind) log

-----------------------------------------------------------------------------------------
-- Cookies of a jar
-----------------------------------------------------------------------------------------

namespace Jar

variable {jar : Jar} {cookie : Text × Text} {name : Text}

/-- By induction on the cookies. -/
theorem find?_replace (cookies : List (Text × Text)) (cookie : Text × Text) (name : Text)
    : (cookies.map fun old => if old.1 = cookie.1 then cookie else old).find?
          (fun other => other.1 = name)
      = if cookie.1 = name ∧ cookie.1 ∈ cookies.map Prod.fst then some cookie
        else cookies.find? (fun other => other.1 = name) := by
  induction cookies with
  | nil => simp
  | cons old rest ih =>
      rw [List.map_cons]
      by_cases same : old.1 = cookie.1
      · rw [if_pos same]
        by_cases named : cookie.1 = name
        · simp [same, named]
        · rw [List.find?_cons_of_neg (by simpa using named), ih, if_neg (fun h => named h.1),
            if_neg (fun h => named h.1), List.find?_cons_of_neg (by simpa [same] using named)]
      · rw [if_neg same]
        have names : cookie.1 ∈ (old :: rest).map Prod.fst ↔ cookie.1 ∈ rest.map Prod.fst := by
          rw [List.map_cons, List.mem_cons, or_iff_right (Ne.symm same)]
        by_cases found : old.1 = name
        · have other : cookie.1 ≠ name := fun named => same (found.trans named.symm)
          rw [List.find?_cons_of_pos (by simpa using found), if_neg (fun h => other h.1),
            List.find?_cons_of_pos (by simpa using found)]
        · rw [List.find?_cons_of_neg (by simpa using found), ih,
            List.find?_cons_of_neg (by simpa using found)]
          simp only [names]

theorem find_set (jar : Jar) (cookie : Text × Text) (name : Text)
    : (jar.set cookie).find name = if cookie.1 = name then some cookie.2 else jar.find name := by
  unfold set find
  by_cases known : cookie.1 ∈ jar.cookies.map Prod.fst
  · rw [dif_pos known, find?_replace]
    by_cases named : cookie.1 = name
    · rw [if_pos ⟨named, known⟩, if_pos named]
      rfl
    · rw [if_neg (fun h => named h.1), if_neg named]
  · rw [dif_neg known, List.find?_append]
    by_cases named : cookie.1 = name
    · have absent : jar.cookies.find? (fun other => other.1 = name) = none := by
        rw [List.find?_eq_none]
        intro other mem same
        exact known (named ▸ of_decide_eq_true same ▸ List.mem_map_of_mem mem)
      simp [absent, named]
    · simp [named]

theorem find_remove (jar : Jar) (removed name : Text)
    : (jar.remove removed).find name = if removed = name then none else jar.find name := by
  unfold remove find
  rw [List.find?_filter]
  by_cases named : removed = name
  · rw [if_pos named, Option.map_eq_none_iff, List.find?_eq_none]
    intro cookie _
    simp [named]
  · rw [if_neg named]
    congr 2
    funext cookie
    by_cases same : cookie.1 = name
    · simp [same, Ne.symm named]
    · simp [same]

/-- Nothing is removed where the name has no cookie. -/
theorem remove_of_find_none (none : jar.find name = none) : jar.remove name = jar := by
  have kept : jar.cookies.filter (fun cookie => cookie.1 ≠ name) = jar.cookies := by
    rw [find, Option.map_eq_none_iff, List.find?_eq_none] at none
    exact List.filter_eq_self.mpr fun cookie mem => by simpa using none cookie mem
  unfold remove
  congr

/-- All cookies are sent back as they are. -/
def Tidy (jar : Jar) : Prop := ∀ cookie ∈ jar.cookies, Plain cookie

theorem Tidy.set (tidy : jar.Tidy) (plain : Plain cookie) : (jar.set cookie).Tidy := by
  intro other mem
  unfold Jar.set at mem
  split at mem
  case isTrue =>
    obtain ⟨old, inJar, rfl⟩ := List.mem_map.mp mem
    split
    · exact plain
    · exact tidy old inJar
  case isFalse =>
    rcases List.mem_append.mp mem with old | new
    · exact tidy other old
    · rw [List.mem_singleton.mp new]
      exact plain

theorem Tidy.remove (tidy : jar.Tidy) (name : Text) : (jar.remove name).Tidy :=
  fun cookie mem => tidy cookie (List.mem_of_mem_filter mem)

/-- What getCookie finds in the jar. -/
theorem getCookie_eq (tidy : jar.Tidy) (noEquals : '=' ∉ name)
    : getCookie (documentCookie jar.cookies) name = (jar.find name).map spaced := by
  rw [getCookie_documentCookie tidy jar.nodup noEquals, find, Option.map_map]
  rfl

end Jar

-----------------------------------------------------------------------------------------
-- What a page shows
-----------------------------------------------------------------------------------------

theorem queryEscape_inj {message message' : Text}
    : queryEscape message = queryEscape message' ↔ message = message' := by
  constructor
  · intro same
    have read := decodeURIComponent_queryEscape message
    rw [same, decodeURIComponent_queryEscape] at read
    exact (Option.some.inj read).symm
  · exact congrArg queryEscape

theorem truthy_queryEscape {message : Text} (nonempty : message ≠ [])
    : truthy (some (spaced (queryEscape message))) = some (spaced (queryEscape message)) := by
  have filled : spaced (queryEscape message) ≠ [] := by
    intro empty
    have read := decodeURIComponent_queryEscape message
    rw [empty] at read
    exact nonempty (Option.some.inj read).symm
  simp [truthy, Option.filter, filled]

/-- The jar holds at most this message of the kind. -/
def Jar.Holds (jar : Jar) (kind : Kind) (held : Option Text) : Prop :=
  jar.find kind.name = held.map queryEscape ∧ ∀ message, held = some message → message ≠ []

variable {jar : Jar} {success warning : Option Text}

theorem Jar.Holds.truthy {kind : Kind} {held : Option Text} (tidy : jar.Tidy)
    (holds : jar.Holds kind held)
    : Web.truthy (getCookie (documentCookie jar.cookies) kind.name)
      = held.map fun message => spaced (queryEscape message) := by
  have noEquals : '=' ∉ kind.name := by
    cases kind with
    | flash | warning => decide
  rw [Jar.getCookie_eq tidy noEquals, holds.1]
  cases held with
  | none => rfl
  | some message => exact truthy_queryEscape (holds.2 message rfl)

theorem showWarning_eq (tidy : jar.Tidy) (holds : jar.Holds .warning warning)
    (absent : jar.find Kind.flash.name = none)
    : showWarning success jar = (⟨success, warning⟩, jar) := by
  have found := holds.truthy tidy
  unfold showWarning
  rw [show "warning".toList = Kind.warning.name from rfl, found]
  cases warning with
  | none => rfl
  | some message =>
      simp only [Option.map_some, decodeURIComponent_queryEscape]
      exact congrArg _ (Jar.remove_of_find_none absent)

/-- The script shows the messages that the jar holds, and takes the success message away. -/
theorem contentLoaded_eq (tidy : jar.Tidy) (flash : jar.Holds .flash success)
    (warned : jar.Holds .warning warning)
    : contentLoaded jar = (⟨success, warning⟩, jar.remove Kind.flash.name) := by
  have found := flash.truthy tidy
  have absent : (jar.remove Kind.flash.name).find Kind.flash.name = none := by
    rw [Jar.find_remove, if_pos rfl]
  have warned' : (jar.remove Kind.flash.name).Holds .warning warning := by
    refine ⟨?_, warned.2⟩
    rw [Jar.find_remove, if_neg (by decide)]
    exact warned.1
  unfold contentLoaded
  rw [show "flash".toList = Kind.flash.name from rfl, found]
  cases success with
  | none =>
      have same := Jar.remove_of_find_none flash.1
      rw [same] at warned' absent ⊢
      exact showWarning_eq tidy warned' absent
  | some message =>
      simp only [Option.map_some, decodeURIComponent_queryEscape]
      exact showWarning_eq (tidy.remove _) warned' absent

-----------------------------------------------------------------------------------------
-- Runs
-----------------------------------------------------------------------------------------

theorem Kind.name_token (kind : Kind) : isToken kind.name = true := by
  cases kind with
  | flash | warning => decide

theorem Kind.name_inj {kind kind' : Kind} (same : kind.name = kind'.name) : kind = kind' := by
  cases kind with
  | flash | warning => cases kind' with
    | flash | warning => first | rfl | exact absurd same (by decide)

theorem Kind.name_ne_auth (kind : Kind) : kind.name ≠ "auth".toList := by
  cases kind with
  | flash | warning => decide

/-- What an event does to the cookie of a kind. -/
inductive Changes (kind : Kind) (before : Jar) (event : BrowserEvent) (after : Jar) : Prop where
  | kept (same : after.find kind.name = before.find kind.name) (silent : ¬ event.Ends kind)
  | ended (gone : after.find kind.name = none) (finished : event.Ends kind)
      (silent : ∀ message, ¬ event.Tells kind message)
  | told {message : Text} (nonempty : message ≠ [])
      (found : after.find kind.name = some (queryEscape message))
      (tells : event.Tells kind message)

/-- The messages of a reply are one. -/
theorem BrowserEvent.Tells.unique {event : BrowserEvent} {kind kind' : Kind} {message message' : Text}
    (tells : event.Tells kind message) (tells' : event.Tells kind' message')
    : kind = kind' ∧ message = message' := by
  obtain ⟨exchange, header, rfl, sent, told⟩ := tells
  obtain ⟨exchange', header', same, sent', told'⟩ := tells'
  cases same
  cases sent.symm.trans sent'
  obtain ⟨names, messages⟩ := Prod.mk.inj (List.singleton_inj.mp (told.symm.trans told'))
  exact ⟨Kind.name_inj names, queryEscape_inj.mp messages⟩

section Events

variable {kind : Kind} {message : Text}

theorem not_tells_of_other {event : BrowserEvent} (other : ∀ exchange, event ≠ .replied exchange)
    : ¬ event.Tells kind message := by
  intro tells
  obtain ⟨exchange, -, same, -⟩ := tells
  exact other exchange same

/-- An event that is no reply ends a message only by its cookie or by a page that loads. -/
theorem not_ends_of_other {event : BrowserEvent} (other : ∀ exchange, event ≠ .replied exchange)
    (kept : event ≠ .expired kind.name) (unloaded : kind = .flash → ∀ shown, event ≠ .loaded shown)
    : ¬ event.Ends kind := by
  intro ends
  rcases ends with ⟨message, tells⟩ | expired | ⟨flash, shown, loaded⟩
  · exact not_tells_of_other other tells
  · exact kept expired
  · exact unloaded flash shown loaded

/-- A reply whose cookies are those of no message. -/
theorem not_ends_replied {exchange : Exchange}
    (silent : ∀ header, exchange.reply.header = some header
      → ∀ message, header.cookies ≠ [(kind.name, queryEscape message)])
    : ¬ (BrowserEvent.replied exchange).Ends kind := by
  intro ends
  rcases ends with ⟨message, exchange', header, same, sent, told⟩ | expired | ⟨-, shown, loaded⟩
  · cases same
    exact silent header sent message told
  · cases expired
  · cases loaded

end Events

section Runs

variable {mac : Bytes → Bytes → Bytes} {h : Handler}
  {compareHashAndPassword : String → String → Bool} {queue : QueueStore} {cron : CronStore}
  {log : List BrowserEvent} {s s' : Visit} {event : BrowserEvent}

/-- The cookies of a reply leave the jar as it is, or put one message into it. -/
theorem receive_changes {stores : Stores} {r : Request} {answers : Answers} (exchange : Exchange)
    (served : h.serve mac compareHashAndPassword stores r answers
      = (exchange.statement, exchange.reply)) (tidy : jar.Tidy)
    : (jar.receive exchange.reply.header).Tidy
      ∧ ∀ kind, Changes kind jar (.replied exchange) (jar.receive exchange.reply.header) := by
  cases sent : exchange.reply.header with
  | none =>
      refine ⟨tidy, fun kind => .kept rfl (not_ends_replied fun header other => ?_)⟩
      cases sent.symm.trans other
  | some header =>
      have sent' : (h.serve mac compareHashAndPassword stores r answers).2.header = some header := by
        rw [served]
        exact sent
      have silent {kind : Kind} (none : ∀ message, header.cookies ≠ [(kind.name, queryEscape message)])
          : ¬ (BrowserEvent.replied exchange).Ends kind := by
        refine not_ends_replied fun other same => ?_
        cases sent.symm.trans same
        exact none
      rcases serve_header sent' with (empty | ⟨notice, told⟩) | ⟨value, token⟩
      · have same : jar.receive (some header) = jar := by simp [Jar.receive, empty]
        rw [same]
        exact ⟨tidy, fun kind => .kept rfl (silent fun message => by simp [empty])⟩
      · have set : jar.receive (some header) = jar.set notice.cookie := by
          simp only [Jar.receive, told, Option.map_some, Option.getD_some, List.foldl_cons,
            List.foldl_nil]
          exact if_neg notice.kind.name_ne_auth
        have plain : Plain notice.cookie := plain_queryEscape notice.kind.name_token notice.message
        rw [set]
        refine ⟨tidy.set plain, fun kind => ?_⟩
        by_cases same : notice.kind = kind
        · subst same
          refine .told notice.nonempty ?_ ⟨exchange, header, rfl, sent, told⟩
          rw [Jar.find_set]
          exact if_pos rfl
        · refine .kept ?_ (silent fun message other => ?_)
          · rw [Jar.find_set]
            exact if_neg fun names => same (Kind.name_inj names)
          · rw [told] at other
            exact same (Kind.name_inj (congrArg Prod.fst (List.singleton_inj.mp other)))
      · have same : jar.receive (some header) = jar := by simp [Jar.receive, token]
        rw [same]
        refine ⟨tidy, fun kind => .kept rfl (silent fun message other => ?_)⟩
        rw [token] at other
        exact kind.name_ne_auth (congrArg Prod.fst (List.singleton_inj.mp other)).symm

/-- The jar holds what is pending. -/
structure Follows (log : List BrowserEvent) (jar : Jar) : Prop where
  tidy : jar.Tidy
  held : ∀ kind, ∃ held, jar.Holds kind held
    ∧ ∀ message, held = some message ↔ Pending log kind message

theorem Follows.empty : Follows [] .empty where
  tidy _ mem := absurd mem List.not_mem_nil
  held _ := by
    refine ⟨none, ⟨rfl, fun _ none => by cases none⟩, fun message => ?_⟩
    exact iff_of_false (fun none => by cases none) (not_open_nil _ _)

/-- An event changes what is pending as it changes the jar. -/
theorem Follows.append (follows : Follows log jar) {after : Jar} (tidy : after.Tidy)
    (changes : ∀ kind, Changes kind jar event after)
    : Follows (log ++ [event]) after where
  tidy := tidy
  held kind := by
    obtain ⟨held, holds, pending⟩ := follows.held kind
    rcases changes kind with ⟨same, silent⟩ | ⟨gone, finished, silent⟩ | ⟨nonempty, found, tells⟩
    · refine ⟨held, ⟨same.trans holds.1, holds.2⟩, fun message => ?_⟩
      have untold : ¬ event.Tells kind message := fun tells => silent (Or.inl ⟨message, tells⟩)
      rw [Pending, open_append, or_iff_right untold, and_iff_left silent]
      exact pending message
    · refine ⟨none, ⟨gone, fun _ none => by cases none⟩, fun message => ?_⟩
      refine iff_of_false (fun none => by cases none) ?_
      rw [Pending, open_append, or_iff_right (silent message), not_and_not_right]
      exact fun _ => finished
    · rename_i message
      refine ⟨some message, ⟨found, fun _ same => Option.some.inj same ▸ nonempty⟩, fun other => ?_⟩
      have finished : event.Ends kind := Or.inl ⟨message, tells⟩
      rw [Pending, open_append, or_iff_left (fun h => h.2 finished)]
      constructor
      · intro same
        cases same
        exact tells
      · intro tells'
        rw [(tells.unique tells').2]

theorem Follows.step (follows : Follows log s.jar)
    (taken : Acts (Visit.step mac h compareHashAndPassword) s event s')
    : Follows (log ++ [event]) s'.jar := by
  obtain ⟨action, taken⟩ := taken
  cases action with
  | others action =>
      simp only [Visit.step, Option.map_eq_some_iff] at taken
      obtain ⟨next, -, same⟩ := taken
      cases same
      refine follows.append follows.tidy fun kind => .kept rfl ?_
      exact not_ends_of_other (fun _ same => by cases same) (fun same => by cases same)
        fun _ _ same => by cases same
  | request r answers =>
      simp only [Visit.step, Stores.step] at taken
      cases taken
      obtain ⟨tidy, changes⟩ := receive_changes ⟨r, _, _⟩ rfl follows.tidy
      exact follows.append tidy changes
  | cookie cookie =>
      simp only [Visit.step] at taken
      split at taken
      case isFalse => cases taken
      case isTrue allowed =>
        cases taken
        obtain ⟨plain, notFlash, notWarning⟩ := allowed
        refine follows.append (follows.tidy.set plain) fun kind => .kept ?_ ?_
        · have other : cookie.1 ≠ kind.name := by
            cases kind with
            | flash => exact notFlash
            | warning => exact notWarning
          rw [Jar.find_set, if_neg other]
        · exact not_ends_of_other (fun _ same => by cases same) (fun same => by cases same)
            fun _ _ same => by cases same
  | expire name =>
      cases taken
      refine follows.append (follows.tidy.remove name) fun kind => ?_
      by_cases named : name = kind.name
      · subst named
        refine .ended ?_ (Or.inr (Or.inl rfl)) fun message => ?_
        · rw [Jar.find_remove, if_pos rfl]
        · exact not_tells_of_other fun _ same => by cases same
      · refine .kept ?_ ?_
        · rw [Jar.find_remove, if_neg named]
        · exact not_ends_of_other (fun _ same => by cases same)
            (fun same => named (BrowserEvent.expired.inj same)) fun _ _ same => by cases same
  | load =>
      obtain ⟨success, flash, -⟩ := follows.held .flash
      obtain ⟨warning, warned, -⟩ := follows.held .warning
      simp only [Visit.step, contentLoaded_eq follows.tidy flash warned] at taken
      cases taken
      refine follows.append (follows.tidy.remove _) fun kind => ?_
      cases kind with
      | flash =>
          refine .ended ?_ (Or.inr (Or.inr ⟨rfl, _, rfl⟩)) fun message => ?_
          · rw [Jar.find_remove, if_pos rfl]
          · exact not_tells_of_other fun _ same => by cases same
      | warning =>
          refine .kept ?_ ?_
          · rw [Jar.find_remove, if_neg (by decide)]
          · exact not_ends_of_other (fun _ same => by cases same) (fun same => by cases same)
              fun flash => by cases flash

theorem follows_of_run
    (run : Runs (Acts (Visit.step mac h compareHashAndPassword)) (.initial queue cron) log s)
    : Follows log s.jar :=
  run.invariant (fun log s => Follows log s.jar) .empty fun _ _ _ _ follows taken =>
    follows.step taken

end Runs

/-- A dashboard without logins. -/
def openHandler : Handler := ⟨secret, false⟩

end GoFire.Web
