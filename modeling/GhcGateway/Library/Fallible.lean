/-
# Computations that may throw

A computation that may throw is an `Except`. What such a computation guarantees
is stated about the values it returns: a step of the program that throws ends the
run, so partial correctness is what an invariant of the run needs.

The rules below follow the shape of the computation: a `bind`, a branch, a loop
over a list with an invariant.
-/

import Mathlib.Data.List.Basic
import Mathlib.Data.List.Forall2

namespace Library

universe u v w

variable {ι : Type w}

section Ensures

variable {ε : Type u} {α β : Type v} {post : α → Prop} {computation : Except ε α} {σ : Type v}

/-- Whenever the computation returns, the value satisfies the postcondition. -/
def Ensures (computation : Except ε α) (post : α → Prop) : Prop :=
  ∀ value, computation = .ok value → post value

theorem ensures_pure {value : α} (holds : post value) : Ensures (pure value : Except ε α) post := by
  intro _ returned
  cases returned
  exact holds

theorem ensures_ok {value : α} (holds : post value) : Ensures (.ok value : Except ε α) post :=
  ensures_pure holds

theorem ensures_error {error : ε} : Ensures (.error error : Except ε α) post := by
  intro _ returned
  cases returned

/-- Sequencing: the first computation establishes what the second one starts
from. -/
theorem Ensures.bind {first : Except ε α} {next : α → Except ε β} {middle : α → Prop}
    {post : β → Prop} (before : Ensures first middle)
    (after : ∀ value, middle value → Ensures (next value) post) :
    Ensures (first >>= next) post := by
  cases first with
  | error error => exact ensures_error
  | ok value => exact after value (before value rfl)

/-- Sequencing with the condition in the middle written out. -/
theorem ensures_through {first : Except ε α} {next : α → Except ε β} {post : β → Prop}
    (middle : α → Prop) (before : Ensures first middle)
    (after : ∀ value, middle value → Ensures (next value) post) :
    Ensures (first >>= next) post :=
  before.bind after

/-- Sequencing when nothing but the equation of the first step is needed. -/
theorem ensures_bind {first : Except ε α} {next : α → Except ε β} {post : β → Prop}
    (after : ∀ value, first = .ok value → Ensures (next value) post) :
    Ensures (first >>= next) post := by
  cases first with
  | error error => exact ensures_error
  | ok value => exact after value rfl

theorem Ensures.mono {strong weak : α → Prop} (holds : Ensures computation strong)
    (implies : ∀ value, strong value → weak value) : Ensures computation weak :=
  fun value returned => implies value (holds value returned)

theorem Ensures.and {left right : α → Prop} (first : Ensures computation left)
    (second : Ensures computation right) :
    Ensures computation fun value => left value ∧ right value :=
  fun value returned => ⟨first value returned, second value returned⟩

theorem ensures_ite {condition : Prop} [Decidable condition] {yes no : Except ε α}
    (whenTrue : condition → Ensures yes post) (whenFalse : ¬ condition → Ensures no post) :
    Ensures (if condition then yes else no) post := by
  by_cases holds : condition
  · rw [if_pos holds]
    exact whenTrue holds
  · rw [if_neg holds]
    exact whenFalse holds

/-- A loop over a list keeps an invariant of the state that every iteration
keeps. -/
theorem ensures_foldlM {step : σ → ι → Except ε σ} {items : List ι} (invariant : σ → Prop)
    (preserved : ∀ state item, item ∈ items → invariant state →
      Ensures (step state item) invariant) {state : σ} (start : invariant state) :
    Ensures (items.foldlM step state) invariant := by
  induction items generalizing state with
  | nil => exact ensures_pure start
  | cons item items ih =>
    rw [List.foldlM_cons]
    refine (preserved state item List.mem_cons_self start).bind fun next holds => ?_
    apply ih _ holds
    intro state' item' member
    exact preserved state' item' (List.mem_cons_of_mem _ member)

/-- A loop whose invariant also speaks of the items already visited. -/
theorem ensures_foldlM_visited {step : σ → ι → Except ε σ} {items : List ι}
    (invariant : List ι → σ → Prop)
    (preserved : ∀ visited state item rest, items = visited ++ item :: rest →
      invariant visited state → Ensures (step state item) (invariant (visited ++ [item])))
    {state : σ} (start : invariant [] state) :
    Ensures (items.foldlM step state) (invariant items) := by
  suffices general : ∀ visited rest, items = visited ++ rest →
      ∀ state, invariant visited state →
        Ensures (rest.foldlM step state) (invariant items) by
    exact general [] items rfl state start
  intro visited rest
  induction rest generalizing visited with
  | nil =>
    intro whole state holds
    rw [List.append_nil] at whole
    rw [whole]
    exact ensures_pure holds
  | cons item rest ih =>
    intro whole state holds
    rw [List.foldlM_cons]
    refine (preserved visited state item rest whole holds).bind fun next holdsNext => ?_
    exact ih (visited ++ [item]) (by rw [whole]; simp) next holdsNext

end Ensures

section Inversion

variable {ε : Type u} {α β : Type v}

/-- A sequence returns exactly if both of its parts do. -/
theorem bind_eq_ok {first : Except ε α} {next : α → Except ε β} {value : β} :
    first >>= next = .ok value ↔ ∃ middle, first = .ok middle ∧ next middle = .ok value := by
  cases first with
  | error error => simp [bind, Except.bind]
  | ok middle => simp [bind, Except.bind]

/-- A mapped list is returned exactly if every element is. -/
theorem mapM_eq_ok {action : ι → Except ε α} {items : List ι} {values : List α} :
    items.mapM action = .ok values ↔
      List.Forall₂ (fun item value => action item = .ok value) items values := by
  induction items generalizing values with
  | nil =>
    rw [List.mapM_nil, List.forall₂_nil_left_iff]
    constructor
    · intro returned
      cases returned
      rfl
    · rintro rfl
      rfl
  | cons item items ih =>
    rw [List.mapM_cons, bind_eq_ok]
    constructor
    · rintro ⟨value, first, rest⟩
      obtain ⟨others, mapped, returned⟩ := bind_eq_ok.mp rest
      cases returned
      exact .cons first (ih.mp mapped)
    · rintro (_ | ⟨first, rest⟩)
      exact ⟨_, first, bind_eq_ok.mpr ⟨_, ih.mpr rest, rfl⟩⟩

end Inversion

end Library
