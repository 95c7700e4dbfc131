/-
# Schedules with a history

What a step does that its state does not keep can be recorded. `recorded` runs a system
beside a history of any type, so that a statement about what has happened in a run is a
statement about a state, and is carried by the run rules of schedules.
-/

import GhcGateway.Library.Schedule

namespace Library

universe u v w

namespace Concurrent

variable {State : Type u} {Label : Type v} {History : Type w} {system : Concurrent State Label}
  {record : State → Label → History → History}

/-- The system with its history: what a step adds depends on the state before it. -/
def recorded (system : Concurrent State Label) (record : State → Label → History → History) :
    Concurrent (State × History) Label where
  step current label :=
    (system.step current.1 label).map fun next => (next, record current.1 label current.2)

theorem recorded_step_eq_some {current next : State × History} {label : Label} :
    (system.recorded record).step current label = some next ↔
      system.step current.1 label = some next.1 ∧ next.2 = record current.1 label current.2 := by
  simp only [recorded, Option.map_eq_some_iff]
  constructor
  · rintro ⟨_, stepped, rfl⟩
    exact ⟨stepped, rfl⟩
  · rintro ⟨stepped, same⟩
    exact ⟨next.1, stepped, Prod.ext rfl same.symm⟩

/-- Every run has its history. -/
theorem exists_recorded_run {state final : State} {labels : List Label}
    (ran : system.run state labels = some final) (history : History) :
    ∃ after, (system.recorded record).run (state, history) labels = some (final, after) := by
  induction labels generalizing state history with
  | nil =>
    cases ran
    exact ⟨history, rfl⟩
  | cons label labels ih =>
    obtain ⟨next, stepped, rest⟩ := run_cons_eq_some.mp ran
    obtain ⟨after, ran⟩ := ih rest (record state label history)
    exact ⟨after, run_cons_eq_some.mpr
      ⟨(next, record state label history), recorded_step_eq_some.mpr ⟨stepped, rfl⟩, ran⟩⟩

end Concurrent

end Library
