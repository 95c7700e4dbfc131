/-
# Schedules

Several parties share a state and move one at a time. A label says who moves and
with what outcome of everything the state does not determine, so that a step is a
partial function: it is `none` where the labelled move cannot happen. A schedule
is a list of labels, and a statement about every interleaving is a statement
about every schedule that can run.

A run may be restricted to the schedules whose every step meets a condition on
the state before it. The rules carry an invariant, or a relation between two
states, along a run of either kind.
-/

import Mathlib.Data.List.Basic

namespace Library

universe u v

/-- The labelled steps of a system whose parties move one at a time. -/
structure Concurrent (State : Type u) (Label : Type v) where
  step : State → Label → Option State

namespace Concurrent

variable {State : Type u} {Label : Type v} (system : Concurrent State Label)
  {condition : State → Label → Prop} {state : State} {labels first : List Label}

/-- The state a schedule leads to, when every step of it can happen. -/
def run : State → List Label → Option State
  | state, [] => some state
  | state, label :: labels => (system.step state label).bind fun next => run next labels

/-- Every step of the schedule meets the condition in the state it is taken in. -/
def Along (condition : State → Label → Prop) : State → List Label → Prop
  | _, [] => True
  | state, label :: labels =>
    condition state label ∧
      ∀ next, system.step state label = some next → Along condition next labels

variable {system}

/-- Whether a concrete schedule meets a condition can be computed. -/
instance decidableAlong {condition : State → Label → Prop}
    [∀ state label, Decidable (condition state label)] :
    ∀ (state : State) (labels : List Label), Decidable (system.Along condition state labels)
  | _, [] => .isTrue trivial
  | state, label :: labels =>
    match stepped : system.step state label with
    | none => decidable_of_iff (condition state label)
        ⟨fun met => ⟨met, fun _ moved => nomatch stepped.symm.trans moved⟩, And.left⟩
    | some next =>
      have : Decidable (system.Along condition next labels) := decidableAlong next labels
      decidable_of_iff (condition state label ∧ system.Along condition next labels)
        ⟨fun both => ⟨both.1, fun _ moved =>
          Option.some.inj (stepped.symm.trans moved) ▸ both.2⟩,
          fun along => ⟨along.1, along.2 next stepped⟩⟩

@[simp]
theorem run_nil (state : State) : system.run state [] = some state := rfl

theorem run_cons_eq_some {final : State} {label : Label} :
    system.run state (label :: labels) = some final ↔
      ∃ next, system.step state label = some next ∧ system.run next labels = some final := by
  rw [run, Option.bind_eq_some_iff]

theorem run_append (state : State) (first second : List Label) :
    system.run state (first ++ second) =
      (system.run state first).bind fun middle => system.run middle second := by
  induction first generalizing state with
  | nil => rfl
  | cons label labels ih =>
    rw [List.cons_append, run, run, Option.bind_assoc]
    congr 1
    funext next
    exact ih next

theorem run_append_of_run {middle : State} (ran : system.run state first = some middle)
    (second : List Label) : system.run state (first ++ second) = system.run middle second := by
  rw [run_append, ran, Option.bind_some]

theorem Along.mono {weaker : State → Label → Prop}
    (imp : ∀ state label, condition state label → weaker state label)
    (along : system.Along condition state labels) : system.Along weaker state labels := by
  induction labels generalizing state with
  | nil => trivial
  | cons label labels ih =>
    exact ⟨imp state label along.1, fun next stepped => ih (along.2 next stepped)⟩

theorem along_append {second : List Label} :
    system.Along condition state (first ++ second) ↔
      system.Along condition state first ∧
        ∀ middle, system.run state first = some middle →
          system.Along condition middle second := by
  induction first generalizing state with
  | nil => simp [Along]
  | cons label labels ih =>
    constructor
    · rintro ⟨holds, rest⟩
      refine ⟨⟨holds, fun next stepped => (ih.mp (rest next stepped)).1⟩, fun middle ran => ?_⟩
      obtain ⟨next, stepped, ran⟩ := run_cons_eq_some.mp ran
      exact (ih.mp (rest next stepped)).2 middle ran
    · rintro ⟨⟨holds, rest⟩, after⟩
      exact ⟨holds, fun next stepped => ih.mpr ⟨rest next stepped, fun middle ran =>
        after middle (run_cons_eq_some.mpr ⟨next, stepped, ran⟩)⟩⟩

/-- The run rule: an invariant that every step meeting the condition keeps holds
wherever a schedule of such steps leads. -/
theorem invariant_of_along {condition : State → Label → Prop} {invariant : State → Prop}
    (kept : ∀ {state next label}, condition state label → invariant state →
      system.step state label = some next → invariant next)
    {state final : State} {labels : List Label} (along : system.Along condition state labels)
    (ran : system.run state labels = some final) (holds : invariant state) : invariant final := by
  induction labels generalizing state with
  | nil =>
    cases ran
    exact holds
  | cons label labels ih =>
    obtain ⟨next, stepped, ran⟩ := run_cons_eq_some.mp ran
    exact ih (along.2 next stepped) ran (kept along.1 holds stepped)

/-- The run rule without a condition. -/
theorem invariant_of_run {invariant : State → Prop}
    (kept : ∀ {state next label}, invariant state → system.step state label = some next →
      invariant next)
    {state final : State} {labels : List Label} (ran : system.run state labels = some final)
    (holds : invariant state) : invariant final := by
  induction labels generalizing state with
  | nil =>
    cases ran
    exact holds
  | cons label labels ih =>
    obtain ⟨next, stepped, ran⟩ := run_cons_eq_some.mp ran
    exact ih ran (kept holds stepped)

end Concurrent

end Library
