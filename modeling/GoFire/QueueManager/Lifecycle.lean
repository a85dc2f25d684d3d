import GoFire.Foundations.TransitionSystem
import GoFire.QueueManager.ManagerSteps

/-! A manager by itself, on a store that the rest of the world changes as it likes. What holds of
all such runs holds of every manager of a system.
-/

namespace GoFire.QueueManager

open GoFire.State GoFire.Store TransitionSystem

namespace Manager

variable {ε : Type} (label : Manager → Action → Manager → ε)

/-- A step of the manager on some store, with what is observed of it. -/
def observe (m : Manager) (action : QueueStore × Action) : Option (Manager × ε) :=
  (m.step action.1 action.2).map fun next => (next.2.1, label m action.2 next.2.1)

variable {label} {m m' : Manager} {e : ε}

theorem observed (h : Acts (observe label) m e m')
    : ∃ s s' event action, m.step s action = some (s', m', event) ∧ e = label m action m' := by
  obtain ⟨⟨s, action⟩, h⟩ := h
  simp only [observe, Option.map_eq_some_iff, Prod.mk.injEq] at h
  obtain ⟨⟨s', next, event⟩, taken, rfl, rfl⟩ := h
  exact ⟨s, s', event, action, taken, rfl⟩

/-- The result processor runs from the start of the manager on. -/
def Started (m : Manager) : Prop := m.processor = .off ↔ m.poll = .idle

theorem Started.step {s s' : QueueStore} {event : Event} {action : Action} (inv : m.Started)
    (h : m.step s action = some (s', m', event))
    : m'.Started := by
  cases step_moves h with
  | start | unlockRefused | unlockLost | crash =>
      exact iff_of_false Processor.noConfusion Poll.noConfusion
  | unlocked polling | began polling | ended polling | counted polling | countFailed polling
  | fetched polling | selectFailed polling | locked polling | passedOver polling
  | lockLost polling | acquired polling | acquireFailed polling | batchEnded polling
  | woke polling | returned polling => simpa [Started, polling] using inv
  | received processing | unrecorded processing | recorded processing | stopped processing =>
      simpa [Started, processing] using inv
  | _ => exact inv

/-- Nothing moves in a manager that has crashed, and Start returns from its wait only. -/
theorem crashed_step {s s' : QueueStore} {event : Event} {action : Action}
    (dead : m.poll = .crashed)
    (h : m.step s action = some (s', m', event))
    : m'.poll = .crashed := by
  cases step_moves h with
  | start alive | unlocked alive | began alive | ended alive | counted alive | countFailed alive
  | fetched alive | selectFailed alive | locked alive | passedOver alive | lockLost alive
  | acquired alive | acquireFailed alive | batchEnded alive | woke alive | returned alive =>
      rw [dead] at alive
      cases alive
  | unlockRefused | unlockLost | crash => rfl
  | _ => exact dead

end Manager

/-- Every manager of a system has come to its state by a run of its own. -/
theorem System.manager_run {ε : Type} (label : Manager → Action → Manager → ε) {now : Int}
    {log : List Event} {s : System} (run : Runs (Acts System.step) (System.initial now) log s)
    {m : Manager} (mem : m ∈ s.managers)
    : ∃ name handlers own, Runs (Acts (Manager.observe label)) { name, handlers } own m := by
  refine run.invariant (fun _ s => ∀ m ∈ s.managers, ∃ name handlers own,
    Runs (Acts (Manager.observe label)) { name, handlers } own m) ?_ ?_ m mem
  · exact fun m mem => absurd mem List.not_mem_nil
  · intro log s event s' inv h m mem
    obtain ⟨action, h⟩ := h
    cases action with
    | newManager name handlers =>
        cases h
        rcases List.mem_append.mp mem with old | new
        · exact inv m old
        · rw [List.mem_singleton.mp new]
          exact ⟨name, handlers, [], .stop⟩
    | manager i action =>
        obtain ⟨acting, store, acted, found, taken, rfl⟩ := System.manager_step h
        rcases List.mem_or_eq_of_mem_set mem with old | rfl
        · exact inv m old
        · obtain ⟨name, handlers, own, before⟩ := inv acting (List.mem_of_getElem? found)
          have last : Manager.observe label acting (s.store, action)
              = some (m, label acting action m) := by
            simp only [Manager.observe, taken, Option.map_some]
          exact ⟨name, handlers, own ++ [label acting action m], before.step ⟨_, last⟩⟩
    | _ =>
        cases h
        exact inv m mem

end GoFire.QueueManager
