import GoFire.CronManager.ManagerSteps
import GoFire.Foundations.TransitionSystem

/-! A cron manager by itself, on a store that the rest of the world changes as it likes. -/

namespace GoFire.CronManager

open GoFire.State GoFire.Store GoFire.CronParser TransitionSystem

namespace Manager

variable {ε : Type} (arith : IntArith) (label : Manager → Action → Manager → ε)

/-- A step of the manager on some store, with what is observed of it. -/
def observe (m : Manager) (action : CronStore × Action) : Option (Manager × ε) :=
  (m.step arith action.1 action.2).map fun next => (next.2.1, label m action.2 next.2.1)

variable {arith label} {m m' : Manager} {e : ε}

theorem observed (h : Acts (observe arith label) m e m')
    : ∃ s s' event action, m.step arith s action = some (s', m', event)
      ∧ e = label m action m' := by
  obtain ⟨⟨s, action⟩, h⟩ := h
  simp only [observe, Option.map_eq_some_iff, Prod.mk.injEq] at h
  obtain ⟨⟨s', next, event⟩, taken, rfl, rfl⟩ := h
  exact ⟨s, s', event, action, taken, rfl⟩

/-- A manager stays in its location. -/
theorem loc_kept {s s' : CronStore} {event : Event} {action : Action}
    (h : m.step arith s action = some (s', m', event))
    : m'.loc = m.loc := by
  cases step_moves h with
  | _ => rfl

end Manager

/-- Every manager of a system has come to its state by a run of its own. -/
theorem System.manager_run {ε : Type} {arith : IntArith}
    (label : Manager → Action → Manager → ε) {now : Int} {log : List Event} {s : System}
    (run : Runs (Acts (System.step arith)) (System.initial now) log s) {m : Manager}
    (mem : m ∈ s.managers)
    : ∃ name handlers loc own,
        Runs (Acts (Manager.observe arith label)) { name, handlers, loc } own m := by
  refine run.invariant (fun _ s => ∀ m ∈ s.managers, ∃ name handlers loc own,
    Runs (Acts (Manager.observe arith label)) { name, handlers, loc } own m) ?_ ?_ m mem
  · exact fun m mem => absurd mem List.not_mem_nil
  · intro log s event s' inv h m mem
    obtain ⟨action, h⟩ := h
    cases action with
    | newManager name handlers loc =>
        cases h
        rcases List.mem_append.mp mem with old | new
        · exact inv m old
        · rw [List.mem_singleton.mp new]
          exact ⟨name, handlers, loc, [], .stop⟩
    | manager i action =>
        obtain ⟨acting, store, acted, found, taken, rfl⟩ := System.manager_step h
        rcases List.mem_or_eq_of_mem_set mem with old | rfl
        · exact inv m old
        · obtain ⟨name, handlers, loc, own, before⟩ := inv acting (List.mem_of_getElem? found)
          have last : Manager.observe arith label acting (s.store, action)
              = some (m, label acting action m) := by
            simp only [Manager.observe, taken, Option.map_some]
          exact ⟨name, handlers, loc, own ++ [label acting action m], before.step ⟨_, last⟩⟩
    | _ =>
        have same : s'.managers = s.managers := by
          simp only [System.step, System.schedule] at h
          grind
        exact inv m (same ▸ mem)

end GoFire.CronManager
