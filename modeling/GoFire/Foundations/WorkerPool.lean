import GoFire.Foundations.TransitionSystem
import Mathlib.Data.List.Basic

/-! A loop that starts a bounded number of goroutines. For each of them it acquires a permit of a
weighted semaphore and raises a wait group; the goroutine gives both back in two deferred calls,
whose order is a parameter. A host machine that starts its goroutines so runs beside the pool.
-/

namespace WorkerPool

open TransitionSystem

/-- What a deferred call gives back: the permit, or the count of the wait group. -/
inductive Deferred where
  | release
  | done
  deriving DecidableEq

/-- How far the loop is with its next goroutine. -/
inductive Starting where
  | nothing
  | acquired
  | added
  deriving DecidableEq

/-- What the loop holds for the goroutine that it is about to start. -/
def Starting.ahead : Starting → Deferred → Nat
  | .nothing, _ => 0
  | .acquired, .release => 1
  | .acquired, .done => 0
  | .added, _ => 1

/-- The semaphore and the wait group with the goroutines: those whose function runs, and those
that are between their two deferred calls. Go panics where a count would fall below zero; here it
would be negative.
-/
structure Pool where
  size : Nat
  held : Int := 0
  counter : Int := 0
  starting : Starting := .nothing
  running : List Nat := []
  leaving : List Nat := []
  started : Nat := 0

inductive Event where
  | internal
  | acquired
  | added
  | started (id : Nat)
  | gaveBack (deferred : Deferred) (id : Nat)
  deriving DecidableEq

namespace Pool

def acquire (p : Pool) : Option (Pool × Event) :=
  if p.starting = .nothing ∧ p.held < p.size then
    some ({ p with held := p.held + 1, starting := .acquired }, .acquired)
  else none

def add (p : Pool) : Option (Pool × Event) :=
  if p.starting = .acquired then
    some ({ p with counter := p.counter + 1, starting := .added }, .added)
  else none

def spawn (p : Pool) : Option (Pool × Event) :=
  if p.starting = .added then
    some ({ p with starting := .nothing, running := p.running ++ [p.started],
                   started := p.started + 1 }, .started p.started)
  else none

def giveBack (p : Pool) : Deferred → Pool
  | .release => { p with held := p.held - 1 }
  | .done => { p with counter := p.counter - 1 }

/-- The function of a goroutine ends and its first deferred call is made. -/
def leave (first : Deferred) (p : Pool) (i : Nat) : Option (Pool × Event) :=
  match p.running[i]? with
  | some id =>
      some ({ p.giveBack first with running := p.running.eraseIdx i, leaving := p.leaving ++ [id] },
        .gaveBack first id)
  | none => none

/-- A goroutine makes its second deferred call and is gone. -/
def finish (second : Deferred) (p : Pool) (i : Nat) : Option (Pool × Event) :=
  match p.leaving[i]? with
  | some id =>
      some ({ p.giveBack second with leaving := p.leaving.eraseIdx i }, .gaveBack second id)
  | none => none

/-- The count that a deferred call lowers. -/
def count (p : Pool) : Deferred → Int
  | .release => p.held
  | .done => p.counter

/-- The goroutines that were started and have not made a deferred call yet. -/
def pending (first : Deferred) (p : Pool) (deferred : Deferred) : List Nat :=
  if deferred = first then p.running else p.running ++ p.leaving

end Pool

def Deferred.other : Deferred → Deferred
  | .release => .done
  | .done => .release

theorem Deferred.other_ne (deferred : Deferred) : deferred.other ≠ deferred := by
  cases deferred <;> exact Deferred.noConfusion

-----------------------------------------------------------------------------------------
-- What a step of the pool does to one of its two counts
-----------------------------------------------------------------------------------------

/-- The effect of a step on what one of the deferred calls gives back. -/
inductive Effect (first deferred : Deferred) (p p' : Pool) : Event → Prop where
  | kept {event : Event} (started : p'.started = p.started)
      (pending : (p'.pending first deferred).Perm (p.pending first deferred))
      (count : p'.count deferred + p.starting.ahead deferred
        = p.count deferred + p'.starting.ahead deferred)
      (silent : ∀ id, event ≠ .gaveBack deferred id)
      : Effect first deferred p p' event
  | started (started : p'.started = p.started + 1)
      (pending : (p'.pending first deferred).Perm (p.started :: p.pending first deferred))
      (count : p'.count deferred = p.count deferred)
      (taken : p.starting.ahead deferred = p'.starting.ahead deferred + 1)
      : Effect first deferred p p' (.started p.started)
  | gaveBack {id : Nat} (started : p'.started = p.started)
      (pending : (p.pending first deferred).Perm (id :: p'.pending first deferred))
      (count : p'.count deferred + 1 = p.count deferred) (starting : p'.starting = p.starting)
      : Effect first deferred p p' (.gaveBack deferred id)

section Effects

variable {first deferred : Deferred} {p p' : Pool} {event : Event} {i : Nat}

theorem Effect.refl (first deferred : Deferred) (p : Pool) : Effect first deferred p p .internal :=
  .kept rfl (.refl _) rfl (fun _ => Event.noConfusion)

theorem acquire_effect (h : p.acquire = some (p', event)) : Effect first deferred p p' event := by
  simp only [Pool.acquire, Option.ite_none_right_eq_some] at h
  obtain ⟨⟨nothing, -⟩, h⟩ := h
  cases h
  refine .kept rfl (.refl _) ?_ (fun _ => Event.noConfusion)
  cases deferred <;> simp [Pool.count, Starting.ahead, nothing]

theorem add_effect (h : p.add = some (p', event)) : Effect first deferred p p' event := by
  simp only [Pool.add, Option.ite_none_right_eq_some] at h
  obtain ⟨acquired, h⟩ := h
  cases h
  refine .kept rfl (.refl _) ?_ (fun _ => Event.noConfusion)
  cases deferred <;> simp [Pool.count, Starting.ahead, acquired]

theorem spawn_effect (h : p.spawn = some (p', event)) : Effect first deferred p p' event := by
  simp only [Pool.spawn, Option.ite_none_right_eq_some] at h
  obtain ⟨added, h⟩ := h
  cases h
  refine .started rfl ?_ ?_ ?_
  · by_cases same : deferred = first <;> simp [Pool.pending, same]
  · cases deferred <;> rfl
  · simp [Starting.ahead, added]

/-- One entry of a list is taken out. -/
theorem perm_eraseIdx {β : Type*} {parts : List β} {part : β} (h : parts[i]? = some part)
    : parts.Perm (part :: parts.eraseIdx i) := by
  obtain ⟨inside, rfl⟩ := List.getElem?_eq_some_iff.mp h
  exact (List.getElem_cons_eraseIdx_perm inside).symm

theorem count_giveBack (p : Pool) (called deferred : Deferred)
    : (p.giveBack called).count deferred = p.count deferred - if deferred = called then 1 else 0 := by
  cases called <;> cases deferred <;> simp [Pool.giveBack, Pool.count]

theorem giveBack_running (p : Pool) (called : Deferred)
    : (p.giveBack called).running = p.running ∧ (p.giveBack called).leaving = p.leaving
      ∧ (p.giveBack called).started = p.started ∧ (p.giveBack called).starting = p.starting
      ∧ (p.giveBack called).size = p.size := by
  cases called <;> exact ⟨rfl, rfl, rfl, rfl, rfl⟩

/-- The first deferred call moves a goroutine on; for the second one it is still pending. -/
theorem leave_effect (h : p.leave first i = some (p', event))
    : Effect first deferred p p' event := by
  simp only [Pool.leave] at h
  split at h
  case h_2 => cases h
  case h_1 id found =>
    cases h
    obtain ⟨-, -, started, starting, -⟩ := giveBack_running p first
    have counted := count_giveBack p first deferred
    by_cases same : deferred = first
    · subst same
      refine .gaveBack started ?_ ?_ starting
      · simpa [Pool.pending] using perm_eraseIdx found
      · simp only [if_true] at counted
        cases deferred <;> simp only [Pool.count] at counted ⊢ <;> omega
    · refine .kept started ?_ ?_ ?_
      · have moved : (p.running.eraseIdx i ++ (p.leaving ++ [id])).Perm
            (id :: p.running.eraseIdx i ++ p.leaving) := by
          rw [← List.append_assoc]
          exact List.perm_append_singleton id _
        simpa [Pool.pending, same] using
          moved.trans ((perm_eraseIdx found).symm.append_right p.leaving)
      · simp only [if_neg same, sub_zero] at counted
        rw [starting]
        cases deferred <;> simp only [Pool.count] at counted ⊢ <;> rw [counted]
      · intro id' h
        cases h
        exact same rfl

theorem finish_effect (h : p.finish first.other i = some (p', event))
    : Effect first deferred p p' event := by
  simp only [Pool.finish] at h
  split at h
  case h_2 => cases h
  case h_1 id found =>
    cases h
    obtain ⟨running, -, started, starting, -⟩ := giveBack_running p first.other
    have counted := count_giveBack p first.other deferred
    by_cases same : deferred = first.other
    · subst same
      refine .gaveBack started ?_ ?_ starting
      · have taken := (perm_eraseIdx found).append_left p.running
        simpa [Pool.pending, first.other_ne, running] using taken.trans List.perm_middle
      · simp only [if_true] at counted
        cases first <;> simp only [Pool.count, Deferred.other] at counted ⊢ <;> omega
    · have isFirst : deferred = first := by
        cases first <;> cases deferred <;> simp_all [Deferred.other]
      refine .kept started ?_ ?_ ?_
      · simp [Pool.pending, isFirst, running]
      · simp only [if_neg same, sub_zero] at counted
        rw [starting]
        cases deferred <;> simp only [Pool.count] at counted ⊢ <;> rw [counted]
      · intro id' h
        cases h
        exact same rfl

end Effects

-----------------------------------------------------------------------------------------
-- A host that starts its goroutines so
-----------------------------------------------------------------------------------------

/-- What an action of the host is to the pool. The actions of the loop wait until it has started
its goroutine; those outside begin or end the process.
-/
inductive Role where
  | loop
  | acquire
  | body (i : Nat)
  | leave (i : Nat)
  | wait
  | free
  | outside

/-- What an action does to the number of goroutines and of free permits that the host sees. -/
def Role.Changes (role : Role) (workers workers' permits permits' : Nat) : Prop :=
  match role with
  | .acquire => workers' = workers + 1 ∧ permits = permits' + 1
  | .leave _ => workers = workers' + 1 ∧ permits' = permits + 1
  | .outside => True
  | _ => workers' = workers ∧ permits' = permits

/-- A machine that sees a goroutine from its permit to its first deferred call. -/
structure Host (μ α : Type*) where
  first : Deferred
  step : μ → α → Option μ
  role : α → Role
  workers : μ → Nat
  permits : μ → Nat
  changes : ∀ {m m' : μ} {action : α}, step m action = some m'
    → (role action).Changes (workers m) (workers m') (permits m) (permits m')

inductive Action (α : Type*) where
  | host (action : α)
  | add
  | spawn
  | finish (i : Nat)

structure Pooled (μ : Type*) where
  host : μ
  pool : Pool

/-- What the pool does when the host acts; only goroutines that were started can act. -/
def Pool.act (first : Deferred) (p : Pool) : Role → Option (Pool × Event)
  | .loop => if p.starting = .nothing then some (p, .internal) else none
  | .acquire => p.acquire
  | .body i => if i < p.running.length then some (p, .internal) else none
  | .leave i => p.leave first i
  | .wait => if p.starting = .nothing ∧ p.counter = 0 then some (p, .internal) else none
  | .free => some (p, .internal)
  | .outside => none

variable {μ α : Type*}

def Host.act (h : Host μ α) (s : Pooled μ) : Action α → Option (Pooled μ × Event)
  | .host action =>
      (s.pool.act h.first (h.role action)).bind fun next =>
        (h.step s.host action).map fun host => (⟨host, next.1⟩, next.2)
  | .add => s.pool.add.map fun next => ({ s with pool := next.1 }, next.2)
  | .spawn => s.pool.spawn.map fun next => ({ s with pool := next.1 }, next.2)
  | .finish i =>
      (s.pool.finish h.first.other i).map fun next => ({ s with pool := next.1 }, next.2)

variable {h : Host μ α} {s s' start : Pooled μ} {event : Event} {log : List Event}

/-- The steps of a host with its pool. -/
inductive Host.Moves (h : Host μ α) (s : Pooled μ) : Pooled μ × Event → Prop where
  | host {action : α} {next : Pool × Event} {host : μ}
      (pooled : s.pool.act h.first (h.role action) = some next)
      (stepped : h.step s.host action = some host)
      : Moves h s (⟨host, next.1⟩, next.2)
  | add {next : Pool × Event} (added : s.pool.add = some next)
      : Moves h s ({ s with pool := next.1 }, next.2)
  | spawn {next : Pool × Event} (spawned : s.pool.spawn = some next)
      : Moves h s ({ s with pool := next.1 }, next.2)
  | finish {i : Nat} {next : Pool × Event} (finished : s.pool.finish h.first.other i = some next)
      : Moves h s ({ s with pool := next.1 }, next.2)

theorem Host.moves_of_acts (acted : Acts h.act s event s') : h.Moves s (s', event) := by
  obtain ⟨action, acted⟩ := acted
  cases action with
  | host action =>
      simp only [Host.act, Option.bind_eq_some_iff, Option.map_eq_some_iff] at acted
      obtain ⟨next, pooled, host, stepped, acted⟩ := acted
      cases acted
      exact .host pooled stepped
  | add =>
      obtain ⟨next, added, acted⟩ := Option.map_eq_some_iff.mp acted
      cases acted
      exact .add added
  | spawn =>
      obtain ⟨next, spawned, acted⟩ := Option.map_eq_some_iff.mp acted
      cases acted
      exact .spawn spawned
  | finish i =>
      obtain ⟨next, finished, acted⟩ := Option.map_eq_some_iff.mp acted
      cases acted
      exact .finish finished

/-- A step has an effect on each of the two counts. -/
theorem effect_of_act (acted : Acts h.act s event s') (deferred : Deferred)
    : Effect h.first deferred s.pool s'.pool event := by
  cases Host.moves_of_acts acted with
  | add added => exact add_effect added
  | spawn spawned => exact spawn_effect spawned
  | finish finished => exact finish_effect finished
  | @host action next host pooled =>
      cases role : h.role action with
      | acquire =>
          rw [role] at pooled
          exact acquire_effect pooled
      | leave i =>
          rw [role] at pooled
          exact leave_effect pooled
      | outside =>
          rw [role] at pooled
          cases pooled
      | _ =>
          simp only [role, Pool.act, Option.ite_none_right_eq_some, Option.some.injEq] at pooled
          obtain ⟨-, rfl⟩ := pooled
          exact .refl h.first deferred s.pool

-----------------------------------------------------------------------------------------
-- All runs
-----------------------------------------------------------------------------------------

/-- The accounts of one of the counts: it is what the pending goroutines and the loop hold, and a
goroutine that is not pending any more has given its share back exactly once.
-/
structure Accounted (first deferred : Deferred) (log : List Event) (p : Pool) : Prop where
  count : p.count deferred = (p.pending first deferred).length + p.starting.ahead deferred
  distinct : (p.pending first deferred).Nodup
  below : ∀ id ∈ p.pending first deferred, id < p.started
  given : ∀ id, log.count (.gaveBack deferred id)
    = if id < p.started ∧ id ∉ p.pending first deferred then 1 else 0

theorem count_append_of_ne {event e : Event} (other : e ≠ event)
    : (log ++ [e]).count event = log.count event := by
  simp [List.count_append, other]

theorem Accounted.step {first deferred : Deferred} {p p' : Pool}
    (accounted : Accounted first deferred log p) (effect : Effect first deferred p p' event)
    : Accounted first deferred (log ++ [event]) p' := by
  have counted := accounted.count
  cases effect with
  | kept started pending count silent =>
      refine ⟨?_, pending.nodup_iff.mpr accounted.distinct, fun id mem => ?_, fun id => ?_⟩
      · rw [pending.length_eq]
        omega
      · rw [started]
        exact accounted.below id (pending.mem_iff.mp mem)
      · rw [count_append_of_ne (silent id), accounted.given id, started]
        simp only [pending.mem_iff]
  | started started pending count taken =>
      have fresh : p.started ∉ p.pending first deferred :=
        fun mem => absurd (accounted.below _ mem) (Nat.lt_irrefl _)
      refine ⟨?_, ?_, fun id mem => ?_, fun id => ?_⟩
      · rw [pending.length_eq, List.length_cons]
        omega
      · exact pending.nodup_iff.mpr (List.nodup_cons.mpr ⟨fresh, accounted.distinct⟩)
      · rw [started]
        rcases List.mem_cons.mp (pending.mem_iff.mp mem) with rfl | old
        · exact Nat.lt_succ_self _
        · exact Nat.lt_succ_of_lt (accounted.below id old)
      · rw [count_append_of_ne Event.noConfusion, accounted.given id, started]
        simp only [pending.mem_iff, List.mem_cons]
        by_cases new : id = p.started
        · simp [new]
        · have below : id < p.started + 1 ↔ id < p.started := by omega
          simp [new, below]
  | @gaveBack id started pending count starting =>
      have distinct := pending.nodup_iff.mp accounted.distinct
      obtain ⟨gone, rest⟩ := List.nodup_cons.mp distinct
      have old : id < p.started := accounted.below id (pending.mem_iff.mpr List.mem_cons_self)
      have length := pending.length_eq
      rw [List.length_cons] at length
      refine ⟨?_, rest, fun id' mem => ?_, fun id' => ?_⟩
      · rw [starting]
        omega
      · rw [started]
        exact accounted.below id' (pending.mem_iff.mpr (List.mem_cons_of_mem _ mem))
      · rw [List.count_append, accounted.given id', started]
        simp only [pending.mem_iff, List.mem_cons]
        by_cases same : id' = id
        · subst same
          simp [gone, old]
        · simp [same, Ne.symm same]

/-- A host before its first goroutine. -/
structure Fresh (h : Host μ α) (size : Nat) (s : Pooled μ) : Prop where
  pool : s.pool = { size }
  workers : h.workers s.host = 0
  permits : h.permits s.host = size

theorem accounted_of_run {size : Nat} (fresh : Fresh h size start)
    (run : Runs (Acts h.act) start log s) (deferred : Deferred)
    : Accounted h.first deferred log s.pool := by
  apply run.invariant (fun log s => Accounted h.first deferred log s.pool)
  · rw [fresh.pool]
    refine ⟨?_, ?_, ?_, ?_⟩
    · cases deferred <;> simp [Pool.count, Pool.pending, Starting.ahead]
    · simp [Pool.pending]
    · simp [Pool.pending]
    · simp
  · intro log s event s' accounted acted
    exact accounted.step (effect_of_act acted deferred)

/-- What every action of the host keeps, every run beside the pool keeps. -/
theorem Host.invariant_of_run (Inv : μ → Prop)
    (keeps : ∀ m action m', Inv m → h.step m action = some m' → Inv m')
    (run : Runs (Acts h.act) start log s) (initially : Inv start.host)
    : Inv s.host := by
  apply run.invariant (fun _ s => Inv s.host) initially
  intro log s event s' inv acted
  cases Host.moves_of_acts acted with
  | @host action next host pooled stepped => exact keeps s.host action host inv stepped
  | _ => exact inv

/-- What the host sees of the pool. -/
structure Seen (h : Host μ α) (size : Nat) (s : Pooled μ) : Prop where
  sizes : s.pool.size = size
  workers : h.workers s.host = s.pool.running.length + s.pool.starting.ahead .release
  permits : h.permits s.host + h.workers s.host = size
  within : s.pool.held ≤ size

theorem giveBack_held (p : Pool) (deferred : Deferred) : (p.giveBack deferred).held ≤ p.held := by
  cases deferred with
  | release => exact Int.sub_le_self _ Int.one_nonneg
  | done => exact Int.le_refl _

/-- What the host does agrees with what the pool does for it. -/
theorem Seen.host_step {size : Nat} (seen : Seen h size s) {action : α} {next : Pool × Event}
    {host : μ} (pooled : s.pool.act h.first (h.role action) = some next)
    (stepped : h.step s.host action = some host)
    : Seen h size ⟨host, next.1⟩ := by
  obtain ⟨sizes, workers, permits, within⟩ := seen
  have changes := h.changes stepped
  cases role : h.role action with
  | acquire =>
      simp only [role, Pool.act, Pool.acquire, Option.ite_none_right_eq_some,
        Option.some.injEq] at pooled
      obtain ⟨⟨nothing, free⟩, rfl⟩ := pooled
      simp only [role, Role.Changes] at changes
      rw [nothing] at workers
      refine ⟨sizes, ?_, ?_, ?_⟩
      · rw [changes.1, workers]
        rfl
      · show h.permits host + h.workers host = size
        omega
      · show s.pool.held + 1 ≤ size
        rw [sizes] at free
        exact free
  | leave i =>
      simp only [role, Pool.act, Pool.leave] at pooled
      split at pooled
      case h_2 => cases pooled
      case h_1 id found =>
        cases pooled
        simp only [role, Role.Changes] at changes
        obtain ⟨running, -, -, starting, same⟩ := giveBack_running s.pool h.first
        obtain ⟨inside, -⟩ := List.getElem?_eq_some_iff.mp found
        refine ⟨same.trans sizes, ?_, ?_, ?_⟩
        · rw [starting, List.length_eraseIdx_of_lt inside]
          show h.workers host = s.pool.running.length - 1 + s.pool.starting.ahead .release
          omega
        · show h.permits host + h.workers host = size
          omega
        · exact Int.le_trans (giveBack_held s.pool h.first) within
  | outside =>
      rw [role] at pooled
      cases pooled
  | _ =>
      simp only [role, Pool.act, Option.ite_none_right_eq_some, Option.some.injEq] at pooled
      obtain ⟨-, rfl⟩ := pooled
      simp only [role, Role.Changes] at changes
      refine ⟨sizes, changes.1.trans workers, ?_, within⟩
      rw [changes.1, changes.2]
      exact permits

theorem Seen.step {size : Nat} (seen : Seen h size s) (acted : Acts h.act s event s')
    : Seen h size s' := by
  cases Host.moves_of_acts acted with
  | host pooled stepped => exact seen.host_step pooled stepped
  | add added =>
      simp only [Pool.add, Option.ite_none_right_eq_some, Option.some.injEq] at added
      obtain ⟨acquired, rfl⟩ := added
      have workers := seen.workers
      rw [acquired] at workers
      exact ⟨seen.sizes, workers, seen.permits, seen.within⟩
  | spawn spawned =>
      simp only [Pool.spawn, Option.ite_none_right_eq_some, Option.some.injEq] at spawned
      obtain ⟨added, rfl⟩ := spawned
      refine ⟨seen.sizes, ?_, seen.permits, seen.within⟩
      rw [seen.workers, added, List.length_append]
      rfl
  | finish finished =>
      simp only [Pool.finish] at finished
      split at finished
      case h_2 => cases finished
      case h_1 id found =>
        cases finished
        obtain ⟨running, -, -, starting, same⟩ := giveBack_running s.pool h.first.other
        refine ⟨same.trans seen.sizes, ?_, seen.permits, ?_⟩
        · rw [seen.workers, running, starting]
        · exact Int.le_trans (giveBack_held s.pool h.first.other) seen.within

theorem seen_of_run {size : Nat} (fresh : Fresh h size start) (run : Runs (Acts h.act) start log s)
    : Seen h size s := by
  apply run.invariant (fun _ s => Seen h size s)
  · obtain ⟨pool, workers, permits⟩ := fresh
    refine ⟨by rw [pool], ?_, ?_, ?_⟩
    · rw [workers, pool]
      rfl
    · rw [workers, permits, Nat.add_zero]
    · rw [pool]
      exact Int.natCast_nonneg size
  · intro log s event s' seen acted
    exact seen.step acted

/-- No more goroutines are at work than there are permits. -/
theorem workers_le_of_run {size : Nat} (fresh : Fresh h size start)
    (run : Runs (Acts h.act) start log s)
    : h.workers s.host ≤ size := by
  have permits := (seen_of_run fresh run).permits
  omega

/-- Where the semaphore lets the loop go on, the host has a permit for it. -/
theorem permit_of_run {size : Nat} (fresh : Fresh h size start)
    (run : Runs (Acts h.act) start log s) (free : s.pool.held < size)
    (nothing : s.pool.starting = .nothing)
    : 0 < h.permits s.host := by
  have seen := seen_of_run fresh run
  have held := (accounted_of_run fresh run .release).count
  have running : s.pool.running.length ≤ (s.pool.pending h.first .release).length := by
    unfold Pool.pending
    split <;> simp
  have permits := seen.permits
  have workers := seen.workers
  rw [nothing] at held workers
  simp only [Pool.count, Starting.ahead] at held workers
  omega

/-- Where the wait group lets the loop go on, the host has no goroutine. -/
theorem no_worker_of_run {size : Nat} (fresh : Fresh h size start)
    (run : Runs (Acts h.act) start log s) (waited : s.pool.counter = 0)
    (nothing : s.pool.starting = .nothing)
    : h.workers s.host = 0 := by
  have counter := (accounted_of_run fresh run .done).count
  have running : s.pool.running.length ≤ (s.pool.pending h.first .done).length := by
    unfold Pool.pending
    split <;> simp
  have workers := (seen_of_run fresh run).workers
  rw [nothing] at counter workers
  simp only [Pool.count, Starting.ahead] at counter workers
  omega

end WorkerPool
