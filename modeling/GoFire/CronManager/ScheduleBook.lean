import GoFire.CronManager.ManagerSteps
import GoFire.CronParser.Int64Fields
import GoFire.Foundations.TransitionSystem
import GoFire.Store.CronJobNames

/-! The table of cron jobs as its clients know it: what is scheduled under each name. The calls of
the clients alone make up this book, in any run of any number of managers.
-/

namespace GoFire.CronManager

open GoFire.State GoFire.Store GoFire.CronParser TransitionSystem

/-- What is scheduled under a name. -/
structure Schedule where
  key : Nat
  expression : String
  payload : Json
  isActive : Bool
  createdAt : Int

abbrev Book := String → Option Schedule

/-- A call of a client that took effect. A call of Schedule has the key that it returned and the
time of the clock.
-/
inductive Command where
  | other
  | addOrUpdate (jobName expression : String) (payload : Json) (key : Nat) (now : Int)
  | changeActivate (key : Nat) (isActive : Bool)

/-- A name that is new gets a schedule that is active; a name that is taken keeps all but its
expression and its arguments.
-/
def Schedule.updated (key : Nat) (expression : String) (payload : Json) (createdAt : Int)
    : Option Schedule → Schedule
  | none => { key, expression, payload, isActive := true, createdAt }
  | some old => { old with expression, payload }

def Schedule.switched (key : Nat) (isActive : Bool) (schedule : Schedule) : Schedule :=
  if schedule.key = key then { schedule with isActive } else schedule

def Book.obey (book : Book) : Command → Book
  | .other => book
  | .addOrUpdate jobName expression payload key now =>
      fun name =>
        if name = jobName then some (.updated key expression payload now (book jobName))
        else book name
  | .changeActivate key isActive => fun name => (book name).map (.switched key isActive)

theorem Book.obey_addOrUpdate (book : Book) (jobName expression : String) (payload : Json)
    (key : Nat) (now : Int) (name : String)
    : book.obey (.addOrUpdate jobName expression payload key now) name
      = if name = jobName then some (.updated key expression payload now (book jobName))
        else book name :=
  rfl

/-- The call behind an action and what it showed. -/
def SystemAction.command (s : System) : SystemAction → Event → Command
  | .schedule _ _ jobName expression args _, .scheduled jobID _ =>
      .addOrUpdate jobName expression (marshalArgs args) jobID s.store.now
  | .activate jobID .answered, _ => .changeActivate jobID true
  | .activate jobID .lost, _ => .changeActivate jobID true
  | .deActivate jobID .answered, _ => .changeActivate jobID false
  | .deActivate jobID .lost, _ => .changeActivate jobID false
  | _, _ => .other

/-- The steps of the system with the calls behind them. -/
def System.obey (arith : IntArith) (s : System) (action : SystemAction)
    : Option (System × Command) :=
  (s.step arith action).map fun next => (next.1, action.command s next.2)

def schedule (row : CronJob) : Schedule :=
  { key := row.id, expression := row.expression, payload := row.payload,
    isActive := row.isActive, createdAt := row.createdAt }

/-- The book of a table. -/
def book (s : CronStore) : Book := fun name => (s.jobs.lookup CronJob.name name).map schedule

-----------------------------------------------------------------------------------------
-- Statements
-----------------------------------------------------------------------------------------

/-- A store whose book is as before, with the names and the keys that it had. -/
structure Kept (s s' : CronStore) : Prop where
  book : book s' = book s
  distinct : s.jobs.Distinct CronJob.name → s'.jobs.Distinct CronJob.name

namespace Kept

variable (s : CronStore) (jobID : Nat)

theorem refl : Kept s s := ⟨rfl, id⟩

/-- An UPDATE that sets no column of the book. -/
theorem of_update (cond : CronJob → Bool) {set : CronJob → CronJob}
    (keyed : ∀ row, (set row).id = row.id) (named : ∀ row, (set row).name = row.name)
    (kept : ∀ row, schedule (set row) = schedule row)
    : Kept s { s with jobs := s.jobs.update cond set keyed } :=
  ⟨funext fun _ => KeyedTable.lookup_update_kept cond keyed named kept,
    fun distinct => distinct.update cond keyed named⟩

theorem of_lockJob (lockedBy : String) : Kept s (s.lockJob jobID lockedBy).1 :=
  of_update s _ (by intro; rfl) (by intro; rfl) (by intro; rfl)

theorem of_updateJobRunTimes (lastRunAt nextRunAt : Int)
    : Kept s (s.updateJobRunTimes jobID lastRunAt nextRunAt) :=
  of_update s _ (by intro; rfl) (by intro; rfl) (by intro; rfl)

theorem of_markSuccess : Kept s (s.markSuccess jobID) :=
  of_update s _ (by intro; rfl) (by intro; rfl) (by intro; rfl)

theorem of_markFailure (errMsg : String) : Kept s (s.markFailure jobID errMsg) :=
  of_update s _ (by intro; rfl) (by intro; rfl) (by intro; rfl)

theorem of_markOutcome (result : JobResult) : Kept s (markOutcome s result) := by
  unfold markOutcome
  split
  case h_1 =>
    split
    case isTrue => exact of_markSuccess s _
    case isFalse => exact refl s
  case h_2 =>
    split
    case isTrue => exact of_markFailure s _ _
    case isFalse => exact refl s
  case h_3 => exact refl s

end Kept

/-- No step of a manager is seen in the book. -/
theorem Manager.step_kept {arith : IntArith} {s s' : CronStore} {m m' : Manager} {event : Event}
    {action : Action} (h : m.step arith s action = some (s', m', event))
    : Kept s s' := by
  cases step_moves h with
  | locked | lockLost => exact .of_lockJob s _ _
  | marked => exact .of_markOutcome s _
  | updated => exact .of_updateJobRunTimes s _ _ _
  | _ => exact .refl s

/-- AddOrUpdate writes the schedule of its name, and returns the key of that schedule. -/
theorem book_addOrUpdate (s : CronStore) (jobName : String) (scheduledAt : Int)
    (expression : String) (args : Args)
    : book (s.addOrUpdate jobName scheduledAt expression args).1
        = (book s).obey (.addOrUpdate jobName expression (marshalArgs args)
            (s.addOrUpdate jobName scheduledAt expression args).2 s.now)
      ∧ (book (s.addOrUpdate jobName scheduledAt expression args).1 jobName).map Schedule.key
        = some (s.addOrUpdate jobName scheduledAt expression args).2
      ∧ (s.jobs.Distinct CronJob.name
        → (s.addOrUpdate jobName scheduledAt expression args).1.jobs.Distinct CronJob.name) := by
  obtain ⟨written, keyed⟩ := s.lookup_written jobName scheduledAt expression args
  have row : schedule (s.written jobName scheduledAt expression args)
      = .updated (s.addOrUpdate jobName scheduledAt expression args).2 expression (marshalArgs args)
          s.now (book s jobName) := by
    rw [keyed, book]
    unfold CronStore.written
    cases s.jobs.lookup CronJob.name jobName with
    | some old => rfl
    | none => rfl
  refine ⟨funext fun name => ?_, ?_, fun distinct => CronStore.distinct_addOrUpdate distinct _ _ _ _⟩
  · rw [Book.obey_addOrUpdate, book, written]
    split
    · exact congrArg some row
    · rfl
  · rw [book, written, if_pos rfl, keyed]
    rfl

theorem book_changeActivate (s : CronStore) (jobID : Nat) (isActive : Bool)
    : book (s.changeActivate jobID isActive) = (book s).obey (.changeActivate jobID isActive)
      ∧ (s.jobs.Distinct CronJob.name
        → (s.changeActivate jobID isActive).jobs.Distinct CronJob.name) := by
  refine ⟨funext fun name => ?_,
    fun distinct => distinct.update _ (by intro; rfl) (by intro; rfl)⟩
  refine (congrArg (Option.map schedule)
    (KeyedTable.lookup_update _ (by intro; rfl) (by intro; rfl))).trans ?_
  change _ = ((s.jobs.lookup CronJob.name name).map schedule).map (Schedule.switched jobID isActive)
  rw [Option.map_map, Option.map_map]
  congr 1
  funext row
  by_cases same : row.id = jobID
  · simp [Schedule.switched, schedule, same]
  · simp [Schedule.switched, schedule, same]

-----------------------------------------------------------------------------------------
-- Runs
-----------------------------------------------------------------------------------------

/-- The schedule of a name has the key. -/
def Book.Has (book : Book) (name : String) (key : Nat) : Prop :=
  (book name).map Schedule.key = some key

/-- No call changes the key of a schedule. -/
theorem Book.Has.obey {book : Book} {name : String} {key : Nat} (has : book.Has name key)
    (command : Command)
    : (book.obey command).Has name key := by
  obtain ⟨schedule, found, rfl⟩ := Option.map_eq_some_iff.mp has
  cases command with
  | other => exact has
  | addOrUpdate jobName expression payload key now =>
      rw [Has, obey_addOrUpdate]
      split
      case isFalse => exact has
      case isTrue same =>
        rw [← same, found]
        rfl
  | changeActivate key isActive =>
      rw [Has, show book.obey (.changeActivate key isActive) name
        = (book name).map (Schedule.switched key isActive) from rfl, found]
      simp only [Option.map_some, Schedule.switched]
      split <;> rfl

/-- Two names of a table's book have different keys. -/
theorem eq_of_has {s : CronStore} {name name' : String} {key : Nat} (has : (book s).Has name key)
    (has' : (book s).Has name' key)
    : name = name' := by
  have row {name : String} (has : (book s).Has name key)
      : ∃ row ∈ s.jobs.rows, row.name = name ∧ row.id = key := by
    obtain ⟨entry, found, keyed⟩ := Option.map_eq_some_iff.mp has
    obtain ⟨row, looked, rfl⟩ := Option.map_eq_some_iff.mp found
    exact ⟨row, (KeyedTable.mem_of_lookup looked).1, (KeyedTable.mem_of_lookup looked).2, keyed⟩
  obtain ⟨first, mem, rfl, keyed⟩ := row has
  obtain ⟨second, mem', rfl, keyed'⟩ := row has'
  rw [KeyedTable.eq_of_key mem mem' (keyed.trans keyed'.symm)]

/-- What a step does to the book of the table. -/
structure Obeys (s : CronStore) (command : Command) (s' : CronStore) : Prop where
  book : book s' = (book s).obey command
  distinct : s.jobs.Distinct CronJob.name → s'.jobs.Distinct CronJob.name
  keyed : ∀ jobName expression payload key now,
    command = .addOrUpdate jobName expression payload key now
      → (CronManager.book s').Has jobName key

theorem Kept.obeys {s s' : CronStore} (kept : Kept s s') : Obeys s .other s' :=
  ⟨kept.book, kept.distinct, nofun⟩

theorem obeys_changeActivate (s : CronStore) (jobID : Nat) (isActive : Bool)
    : Obeys s (.changeActivate jobID isActive) (s.changeActivate jobID isActive) :=
  ⟨(book_changeActivate s jobID isActive).1, (book_changeActivate s jobID isActive).2, nofun⟩

theorem obeys_addOrUpdate (s : CronStore) (jobName : String) (scheduledAt : Int)
    (expression : String) (args : Args)
    : Obeys s
        (.addOrUpdate jobName expression (marshalArgs args)
          (s.addOrUpdate jobName scheduledAt expression args).2 s.now)
        (s.addOrUpdate jobName scheduledAt expression args).1 := by
  obtain ⟨written, keyed, distinct⟩ := book_addOrUpdate s jobName scheduledAt expression args
  refine ⟨written, distinct, ?_⟩
  intro jobName expression payload key now same
  cases same
  exact keyed

/-- A step changes the book as the call behind it does. -/
theorem System.obeys_step {arith : IntArith} {s s' : System} {command : Command}
    (h : Acts (System.obey arith) s command s')
    : Obeys s.store command s'.store := by
  obtain ⟨action, h⟩ := h
  simp only [System.obey, Option.map_eq_some_iff] at h
  obtain ⟨⟨next, event⟩, taken, same⟩ := h
  cases same
  cases action with
  | pass duration =>
      cases taken
      exact ⟨rfl, id, nofun⟩
  | newManager name handlers loc =>
      cases taken
      exact (Kept.refl s.store).obeys
  | manager i action =>
      obtain ⟨m, store, m', found, moved, rfl⟩ := System.manager_step taken
      exact (Manager.step_kept moved).obeys
  | activate jobID delivery =>
      cases delivery with
      | refused =>
          cases taken
          exact (Kept.refl s.store).obeys
      | answered | lost =>
          cases taken
          exact obeys_changeActivate _ _ _
  | deActivate jobID delivery =>
      cases delivery with
      | refused =>
          cases taken
          exact (Kept.refl s.store).obeys
      | answered | lost =>
          cases taken
          exact obeys_changeActivate _ _ _
  | schedule loc readAt jobName expression args delivery =>
      simp only [System.step, System.schedule] at taken
      split at taken
      case isFalse => cases taken
      case isTrue =>
        cases delivery with
        | refused =>
            cases taken
            exact (Kept.refl s.store).obeys
        | answered | lost =>
            cases taken
            exact obeys_addOrUpdate _ _ _ _ _

/-- In every run the book of the table is what the calls of the clients make of an empty book, and
no two rows have the same name. Nothing that the managers do is seen in it.
-/
theorem System.book_of_run {arith : IntArith} {now : Int} {commands : List Command} {s : System}
    (run : Runs (Acts (System.obey arith)) (System.initial now) commands s)
    : book s.store = commands.foldl Book.obey (fun _ => none)
      ∧ s.store.jobs.Distinct CronJob.name := by
  refine run.invariant (fun commands s => book s.store = commands.foldl Book.obey (fun _ => none)
    ∧ s.store.jobs.Distinct CronJob.name) ⟨rfl, List.nodup_nil⟩ ?_
  intro commands s command s' inv h
  have obeys := System.obeys_step h
  exact ⟨by rw [List.foldl_append, obeys.book, inv.1]; rfl, obeys.distinct inv.2⟩

/-- A job is scheduled, switched off, locked by a manager and scheduled anew. -/
def reschedulesJob : List SystemAction :=
  schedulesJob ++ [.deActivate 1 .answered] ++ polls 0 ++ [locksJob 0]
    ++ [.schedule GoTime.utc 0 "mail" "0 * * * *" none .lost]

def rescheduleCommands : List Command :=
  [ .other, .other, .other, .other, .addOrUpdate "mail" "* * * * *" (marshalArgs none) 1 0,
    .changeActivate 1 false, .other, .other, .other, .other,
    .addOrUpdate "mail" "0 * * * *" (marshalArgs none) 1 0 ]

/-- It keeps its key and stays switched off. -/
theorem System.book_of_run_rescheduled
    : ∃ s, perform (System.obey int64) (System.initial 0) reschedulesJob
          = some (s, rescheduleCommands)
        ∧ book s.store "mail" = some ⟨1, "0 * * * *", marshalArgs none, false, 0⟩ := by
  have performed :=
    show perform (System.obey int64) (System.initial 0) reschedulesJob
      = some (_, rescheduleCommands)
    from rfl
  refine ⟨_, performed, ?_⟩
  rw [(System.book_of_run (runs_of_perform performed)).1]
  rfl

/-- Every call of Schedule in the log returned the key that its name has ever since. -/
theorem System.has_of_run {arith : IntArith} {now : Int} {commands : List Command} {s : System}
    (run : Runs (Acts (System.obey arith)) (System.initial now) commands s) {jobName : String}
    {expression : String} {payload : Json} {key : Nat} {at_ : Int}
    (called : .addOrUpdate jobName expression payload key at_ ∈ commands)
    : (book s.store).Has jobName key := by
  refine run.invariant (fun commands s => ∀ jobName expression payload key now,
    .addOrUpdate jobName expression payload key now ∈ commands → (book s.store).Has jobName key)
    (fun _ _ _ _ _ mem => absurd mem List.not_mem_nil) ?_ _ _ _ _ _ called
  intro commands s command s' inv h jobName expression payload key now mem
  have obeys := System.obeys_step h
  rcases List.mem_append.mp mem with old | new
  · rw [obeys.book]
    exact (inv _ _ _ _ _ old).obey command
  · exact obeys.keyed _ _ _ _ _ (List.mem_singleton.mp new).symm

/-- In every run two calls of Schedule return the same key exactly when they are for the same name,
however often and from wherever it is scheduled, and whatever happens in between.
-/
theorem System.same_key_iff {arith : IntArith} {now : Int} {commands : List Command} {s : System}
    (run : Runs (Acts (System.obey arith)) (System.initial now) commands s)
    {jobName jobName' expression expression' : String} {payload payload' : Json} {key key' : Nat}
    {at_ at' : Int} (first : .addOrUpdate jobName expression payload key at_ ∈ commands)
    (second : .addOrUpdate jobName' expression' payload' key' at' ∈ commands)
    : key = key' ↔ jobName = jobName' := by
  have has := System.has_of_run run first
  have has' := System.has_of_run run second
  constructor
  · rintro rfl
    exact eq_of_has has has'
  · rintro rfl
    exact Option.some.inj (has.symm.trans has')

/-- Both calls for the job return the same key. -/
theorem System.same_key_iff_rescheduled
    : ∃ s, perform (System.obey int64) (System.initial 0) reschedulesJob
          = some (s, rescheduleCommands)
        ∧ ((1 : Nat) = 1 ↔ "mail" = "mail") := by
  have performed :=
    show perform (System.obey int64) (System.initial 0) reschedulesJob
      = some (_, rescheduleCommands)
    from rfl
  refine ⟨_, performed, ?_⟩
  exact System.same_key_iff (runs_of_perform performed)
    (show .addOrUpdate "mail" "* * * * *" (marshalArgs none) 1 0 ∈ rescheduleCommands
      by simp [rescheduleCommands])
    (show .addOrUpdate "mail" "0 * * * *" (marshalArgs none) 1 0 ∈ rescheduleCommands
      by simp [rescheduleCommands])

end GoFire.CronManager
