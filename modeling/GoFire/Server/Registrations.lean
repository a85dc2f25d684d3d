import GoFire.Server.Stages

/-! The registrations of the servers of one container. A server that starts has registered all handlers
of its configuration itself, so only one server of a configuration with handlers starts.
-/

namespace GoFire.Server

open TransitionSystem

variable {F : Type}

/-- The handlers that a call has not registered yet. -/
def CallStage.rest : CallStage F → List (MethodHandler F)
  | .registering rest => rest
  | _ => []

def CallStage.isFailed : CallStage F → Bool
  | .failed _ => true
  | _ => false

variable {s s' : System F} {event : Event} {log : List Event} {useQueueWriter : Bool}

/-- What a call has registered: the first of its handlers, each under a name of its own. -/
structure Call.Registered (log : List Event) (jh : JobHandler F) (server : Nat) (call : Call F)
    (handled : List (MethodHandler F)) : Prop where
  whole : call.handlers = handled ++ call.stage.rest
  distinct : (handled.map MethodHandler.jobName).Nodup
  logged : ∀ handler ∈ handled, .registered server handler.jobName ∈ log
  kept : ∀ handler ∈ handled, jh.find handler.jobName = some handler.func

/-- The log explains the registered names, and each call its part of them. -/
structure System.Registered (log : List Event) (s : System F) : Prop where
  names : ∀ name, name ∈ s.shared.jobHandler.names ↔ ∃ server, .registered server name ∈ log
  owner : ∀ {name server server'}, .registered server name ∈ log → .registered server' name ∈ log
    → server = server'
  configured : ∀ {server : Nat} {call : Call F}, s.calls[server]? = some call
    → call.handlers <+: s.handlers
  calls : ∀ {server : Nat} {call : Call F}, s.calls[server]? = some call
    → call.stage.isFailed = false
    → ∃ handled, call.Registered log s.shared.jobHandler server handled

theorem registerHandler_keeps (handlers : List (MethodHandler F)) (jobName : String)
    (func : Option F)
    : handlers <+: (registerHandler handlers jobName func).1 := by
  unfold registerHandler
  split
  case h_1 =>
    split
    case isTrue => exact List.prefix_rfl
    case isFalse => exact List.prefix_append _ _
  case h_2 => exact List.prefix_rfl

namespace Call.Registered

variable {jh jh' : JobHandler F} {server : Nat} {call : Call F} {handled : List (MethodHandler F)}

/-- A registration that is kept is kept under a new name. -/
theorem find_register {name other : String} {handler func : F} (found : jh.find other = some func)
    (ok : jh.register name handler = .ok jh')
    : jh'.find other = some func := by
  have fresh := (JobHandler.register_ok ok).1
  rw [JobHandler.find_register ok, if_neg, found]
  rintro rfl
  exact fresh (JobHandler.find_isSome.mp (by rw [found]; rfl))

theorem later (registered : call.Registered log jh server handled) (event : Event)
    : call.Registered (log ++ [event]) jh server handled :=
  { registered with
    logged := fun handler mem => List.mem_append_left _ (registered.logged handler mem) }

/-- A registration by another call. -/
theorem other {name : String} {func : F} (registered : call.Registered log jh server handled)
    (ok : jh.register name func = .ok jh')
    : call.Registered log jh' server handled :=
  { registered with kept := fun handler mem => find_register (registered.kept handler mem) ok }

/-- The next registration of a call. -/
theorem next {handler : MethodHandler F} {rest : List (MethodHandler F)}
    (registered : call.Registered log jh server handled)
    (stage : call.stage = .registering (handler :: rest))
    (ok : jh.register handler.jobName handler.func = .ok jh')
    : Call.Registered (log ++ [.registered server handler.jobName]) jh' server
        { call with stage := .registering rest } (handled ++ [handler]) where
  whole := by
    have whole := registered.whole
    rw [stage] at whole
    rw [whole]
    simp [CallStage.rest]
  distinct := by
    rw [List.map_append, List.nodup_append_comm]
    refine List.nodup_cons.mpr ⟨fun mem => ?_, registered.distinct⟩
    obtain ⟨earlier, inHandled, same⟩ := List.mem_map.mp mem
    refine (JobHandler.register_ok ok).1 (JobHandler.find_isSome.mp ?_)
    rw [← same, registered.kept earlier inHandled]
    rfl
  logged other mem := by
    rcases List.mem_append.mp mem with old | new
    · exact List.mem_append_left _ (registered.logged other old)
    · rw [List.mem_singleton.mp new]
      exact List.mem_append_right _ (List.mem_singleton_self _)
  kept other mem := by
    rcases List.mem_append.mp mem with old | new
    · exact find_register (registered.kept other old) ok
    · rw [List.mem_singleton.mp new, JobHandler.find_register ok, if_pos rfl]

end Call.Registered

/-- A step of a call registers a name, or leaves the registered names as they are. -/
theorem Call.Moves.registers {shared shared' : Shared F} {server : Nat} {call : Call F}
    {stage : CallStage F} {event : Event}
    (moves : call.Moves shared server (shared', stage, event))
    : (∃ handler rest, call.stage = .registering (handler :: rest) ∧ stage = .registering rest
        ∧ event = .registered server handler.jobName
        ∧ shared.jobHandler.register handler.jobName handler.func = .ok shared'.jobHandler)
      ∨ (shared'.jobHandler = shared.jobHandler ∧ (∀ other name, event ≠ .registered other name)
        ∧ (stage.isFailed = false → call.stage.isFailed = false ∧ stage.rest = call.stage.rest)) := by
  cases moves with
  | registered found ok => exact Or.inl ⟨_, _, found, rfl, rfl, ok⟩
  | failed found => exact Or.inr ⟨rfl, fun _ _ same => (by cases same), fun same => (by cases same)⟩
  | derived found | assigned found | added found | launched found | used found | returned found
  | done found | fatal found | sync found | stopSync found =>
      refine Or.inr ⟨rfl, fun _ _ same => (by cases same), fun _ => ?_⟩
      rw [found]
      exact ⟨rfl, rfl⟩

namespace System.Registered

theorem initial (useQueueWriter : Bool) : (System.initial useQueueWriter : System F).Registered [] where
  names name := by simp [System.initial, JobHandler.names, JobHandler.empty]
  owner mem := absurd mem List.not_mem_nil
  configured none := by simp [System.initial] at none
  calls none := by simp [System.initial] at none

/-- A step that registers nothing. -/
theorem silent (registered : s.Registered log)
    (unregistered : ∀ server name, event ≠ .registered server name)
    (same : s'.shared.jobHandler = s.shared.jobHandler)
    (configured : ∀ {server : Nat} {call : Call F}, s'.calls[server]? = some call
      → call.handlers <+: s'.handlers)
    (calls : ∀ {server : Nat} {call : Call F}, s'.calls[server]? = some call
      → call.stage.isFailed = false
      → ∃ handled, call.Registered log s.shared.jobHandler server handled)
    : s'.Registered (log ++ [event]) := by
  have mem_append {server : Nat} {name : String}
      : .registered server name ∈ log ++ [event] ↔ .registered server name ∈ log := by
    rw [List.mem_append, List.mem_singleton, or_iff_left (unregistered server name).symm]
  refine ⟨fun name => ?_, fun mem mem' => ?_, configured, fun found ok => ?_⟩
  · rw [same, registered.names]
    simp only [mem_append]
  · exact registered.owner (mem_append.mp mem) (mem_append.mp mem')
  · obtain ⟨handled, before⟩ := calls found ok
    exact ⟨handled, same ▸ before.later event⟩

theorem step (registered : s.Registered log) (h : s.Moves event s')
    : s'.Registered (log ++ [event]) := by
  cases h with
  | handlerAdded =>
      refine registered.silent (fun _ _ same => by cases same) rfl (fun found => ?_)
        fun found => registered.calls found
      exact (registered.configured found).trans (registerHandler_keeps _ _ _)
  | background | parentCancelled | exitCalled =>
      exact registered.silent (fun _ _ same => by cases same) rfl
        (fun found => registered.configured found) fun found => registered.calls found
  | exit _ moved =>
      cases moved with
      | _ =>
          exact registered.silent (fun _ _ same => by cases same) rfl
            (fun found => registered.configured found) fun found => registered.calls found
  | called parent =>
      refine registered.silent (fun _ _ same => by cases same) rfl (fun found => ?_)
        fun found ok => ?_
      · rcases getElem?_concat_cases found with old | ⟨-, rfl⟩
        · exact registered.configured old
        · exact List.prefix_rfl
      · rcases getElem?_concat_cases found with old | ⟨-, rfl⟩
        · exact registered.calls old ok
        · exact ⟨[], rfl, List.nodup_nil, fun _ mem => absurd mem List.not_mem_nil,
            fun _ mem => absurd mem List.not_mem_nil⟩
  | @call server call shared stage event found moved =>
      have configured {other : Nat} {call' : Call F}
          (found' : (s.calls.set server { call with stage })[other]? = some call')
          : call'.handlers <+: s.handlers := by
        rcases getElem?_set_cases found' with ⟨-, old⟩ | ⟨-, rfl⟩
        · exact registered.configured old
        · have kept := registered.configured found
          exact kept
      rcases moved.registers with ⟨handler, rest, before, rfl, rfl, ok⟩ | ⟨same, silent, kept⟩
      · have fresh := (JobHandler.register_ok ok).1
        obtain ⟨handled, mine⟩ := registered.calls found (by rw [before]; rfl)
        refine ⟨fun name => ?_, fun mem mem' => ?_, configured, fun found' live => ?_⟩
        · rw [JobHandler.register_names ok, List.mem_append, List.mem_singleton, registered.names]
          simp only [List.mem_append, List.mem_singleton, exists_or, Event.registered.injEq,
            exists_eq_left]
        · have unknown (other : Nat) : .registered other handler.jobName ∉ log :=
            fun logged => fresh ((registered.names _).mpr ⟨other, logged⟩)
          rcases List.mem_append.mp mem with old | new <;>
            rcases List.mem_append.mp mem' with old' | new'
          · exact registered.owner old old'
          · cases List.mem_singleton.mp new'
            exact absurd old (unknown _)
          · cases List.mem_singleton.mp new
            exact absurd old' (unknown _)
          · cases List.mem_singleton.mp new
            cases List.mem_singleton.mp new'
            rfl
        · rcases getElem?_set_cases found' with ⟨-, old⟩ | ⟨rfl, rfl⟩
          · obtain ⟨handled, theirs⟩ := registered.calls old live
            exact ⟨handled, (theirs.other ok).later _⟩
          · exact ⟨_, mine.next before ok⟩
      · refine registered.silent silent same configured fun found' live => ?_
        rcases getElem?_set_cases found' with ⟨-, old⟩ | ⟨rfl, rfl⟩
        · exact registered.calls old live
        · obtain ⟨live, rest⟩ := kept live
          obtain ⟨handled, mine⟩ := registered.calls found live
          exact ⟨handled, { mine with whole := mine.whole.trans (by rw [rest]) }⟩

end System.Registered

theorem registered_of_run (run : Runs (Acts System.step) (.initial useQueueWriter : System F) log s)
    : s.Registered log :=
  run.invariant (fun log s => s.Registered log) (.initial useQueueWriter)
    fun _ _ _ _ registered h => registered.step (System.moves_of_acts h)

/-- A call that has registered its handlers and not failed, as one that has started its server. -/
def CallStage.isRegistered : CallStage F → Bool
  | .registering _ => false
  | .failed _ => false
  | _ => true

theorem registered_all (run : Runs (Acts System.step) (.initial useQueueWriter : System F) log s)
    {server : Nat} {call : Call F} (found : s.calls[server]? = some call)
    (registered : call.stage.isRegistered = true)
    : Call.Registered log s.shared.jobHandler server call call.handlers := by
  have live : call.stage.isFailed = false ∧ call.stage.rest = [] := by
    cases stage : call.stage with
    | registering | failed =>
        rw [stage] at registered
        cases registered
    | _ => exact ⟨rfl, rfl⟩
  obtain ⟨handled, mine⟩ := (registered_of_run run).calls found live.1
  have same : call.handlers = handled := by
    rw [mine.whole, live.2, List.append_nil]
  exact same ▸ mine

/-- In every run a server that starts has handlers of distinct names, and each name runs the function that
its configuration gives it, whatever else is registered before or after.
-/
theorem started_handlers_kept
    (run : Runs (Acts System.step) (.initial useQueueWriter : System F) log s)
    {server : Nat} {call : Call F} (found : s.calls[server]? = some call)
    (started : call.stage.isRegistered = true)
    : (call.handlers.map MethodHandler.jobName).Nodup
      ∧ ∀ handler ∈ call.handlers,
          s.shared.jobHandler.execute handler.jobName = .ok handler.func := by
  have mine := registered_all run found started
  refine ⟨mine.distinct, fun handler mem => ?_⟩
  rw [JobHandler.execute, mine.kept handler mem]

/-- In every run of calls on one container, one of any two servers that start has no handlers. -/
theorem one_server_with_handlers
    (run : Runs (Acts System.step) (.initial useQueueWriter : System F) log s)
    {server server' : Nat} {call call' : Call F} (found : s.calls[server]? = some call)
    (found' : s.calls[server']? = some call') (started : call.stage.isRegistered = true)
    (started' : call'.stage.isRegistered = true) (other : server ≠ server')
    : call.handlers = [] ∨ call'.handlers = [] := by
  have registered := registered_of_run run
  have mine := registered_all run found started
  have theirs := registered_all run found' started'
  cases first : call.handlers with
  | nil => exact Or.inl rfl
  | cons handler rest =>
      cases second : call'.handlers with
      | nil => exact Or.inr rfl
      | cons handler' rest' =>
          obtain ⟨tail, same⟩ := registered.configured found
          obtain ⟨tail', same'⟩ := registered.configured found'
          rw [first] at same
          rw [second] at same'
          obtain rfl : handler = handler' := (List.cons.inj (same.trans same'.symm)).1
          have logged := mine.logged handler (by simp [first])
          have logged' := theirs.logged handler (by simp [second])
          exact absurd (registered.owner logged logged') other

/-- A server without handlers starts, and then one with two. -/
def startsTwice : List (Action Nat) :=
  [.addServer 0] ++ List.replicate 4 (.call 0 .advance)
    ++ [.registerHandler "mail" (some 1), .registerHandler "report" (some 2), .addServer 0]
    ++ List.replicate 6 (.call 1 .advance)

/-- The handlers of the second server. -/
theorem started_handlers_kept_two
    : ∃ s log call, perform System.step (.initial false) startsTwice = some (s, log)
        ∧ s.calls[1]? = some call ∧ (call.handlers.map MethodHandler.jobName).Nodup
        ∧ ∀ handler ∈ call.handlers,
            s.shared.jobHandler.execute handler.jobName = .ok handler.func := by
  have performed :=
    show perform System.step (.initial false) startsTwice = some (_, _) from rfl
  refine ⟨_, _, ⟨0, [⟨"mail", 1⟩, ⟨"report", 2⟩], .launched (fun _ => .running) false⟩, performed,
    rfl, ?_⟩
  exact @started_handlers_kept _ _ _ _ (runs_of_perform performed) 1 _ rfl rfl

/-- Both servers are started. -/
theorem one_server_with_handlers_two
    : ∃ s log call call', perform System.step (.initial false) startsTwice = some (s, log)
        ∧ s.calls[0]? = some call ∧ s.calls[1]? = some call'
        ∧ (call.handlers = [] ∨ call'.handlers = []) := by
  have performed :=
    show perform System.step (.initial false) startsTwice = some (_, _) from rfl
  refine ⟨_, _, ⟨0, [], .launched (fun _ => .running) false⟩,
    ⟨0, [⟨"mail", 1⟩, ⟨"report", 2⟩], .launched (fun _ => .running) false⟩, performed, rfl, rfl, ?_⟩
  exact @one_server_with_handlers _ _ _ _ (runs_of_perform performed) 0 1 _ _ rfl rfl rfl rfl
    (by decide)

end GoFire.Server
