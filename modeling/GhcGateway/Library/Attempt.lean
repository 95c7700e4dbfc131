/-
# Computations that throw and keep their state

In a computation of `EStateM` that throws, what was written to the state before stays
written, and a handler goes on from there. So an invariant of the state has to hold
however the computation ends; a postcondition is about the values it returns.

The rules follow the shape of the computation: a `bind`, a branch, a handler, a loop over
a list.
-/

import Mathlib.Data.List.Basic

namespace Library

universe u

variable {σ ε α β : Type u} {invariant : σ → Prop} {post : α → Prop}
  {state : σ} {next : α → EStateM ε σ β} {first yes no : EStateM ε σ α} {value : α}
  {condition : Prop} {change : σ → σ} {error : ε}

/-- The computation keeps the invariant, and the values it returns satisfy the
postcondition. -/
def Keeps (invariant : σ → Prop) (attempt : EStateM ε σ α) (post : α → Prop) : Prop :=
  ∀ state, invariant state →
    match attempt state with
    | .ok value next => post value ∧ invariant next
    | .error _ next => invariant next

namespace Keeps

variable {attempt : EStateM ε σ α}

theorem pure (holds : post value) : Keeps invariant (pure value : EStateM ε σ α) post :=
  fun _ kept => ⟨holds, kept⟩

theorem throw : Keeps invariant (throw error : EStateM ε σ α) post :=
  fun _ kept => kept

theorem modify (keeps : ∀ state, invariant state → invariant (change state)) :
    Keeps invariant (modify change : EStateM ε σ PUnit) fun _ => True :=
  fun state kept => ⟨trivial, keeps state kept⟩

theorem set (holds : invariant state) :
    Keeps invariant (set state : EStateM ε σ PUnit) fun _ => True :=
  fun _ _ => ⟨trivial, holds⟩

theorem get {post : σ → Prop} (holds : ∀ state, invariant state → post state) :
    Keeps invariant (get : EStateM ε σ σ) post :=
  fun state kept => ⟨holds state kept, kept⟩

/-- Sequencing: the first computation establishes what the second one starts from. -/
theorem bind {middle : α → Prop} {post : β → Prop} (before : Keeps invariant first middle)
    (after : ∀ value, middle value → Keeps invariant (next value) post) :
    Keeps invariant (first >>= next) post := by
  intro state kept
  have one := before state kept
  show match EStateM.bind first next state with
    | .ok value next => post value ∧ invariant next
    | .error _ next => invariant next
  rw [EStateM.bind]
  cases ran : first state with
  | ok value between =>
    rw [ran] at one
    exact after value one.1 between one.2
  | error error between =>
    rw [ran] at one
    exact one

/-- A computation that leaves the state alone, and a look at the state after it. -/
theorem bind_get {middle : σ → α → Prop} {post : β → Prop} {next : α → σ → EStateM ε σ β}
    (frozen : ∀ state, invariant state → Keeps (· = state) first (middle state))
    (after : ∀ state value, invariant state → middle state value →
      Keeps invariant (next value state) post) :
    Keeps invariant (first >>= fun value => MonadState.get >>= next value) post := by
  intro state kept
  have one := frozen state kept state rfl
  show match EStateM.bind first (fun value => MonadState.get >>= next value) state with
    | .ok value next => post value ∧ invariant next
    | .error _ next => invariant next
  rw [EStateM.bind]
  cases ran : first state with
  | ok value between =>
    rw [ran] at one
    obtain ⟨holds, rfl⟩ := one
    exact after between value kept holds between kept
  | error error between =>
    rw [ran] at one
    exact one.symm ▸ kept

theorem mono {weak : α → Prop} (keeps : Keeps invariant attempt post)
    (implies : ∀ value, post value → weak value) : Keeps invariant attempt weak := by
  intro state kept
  have one := keeps state kept
  cases ran : attempt state with
  | ok value next =>
    rw [ran] at one
    exact ⟨implies value one.1, one.2⟩
  | error error next =>
    rw [ran] at one
    exact one

/-- A handler starts from what the computation has written. -/
theorem tryCatch {handler : ε → EStateM ε σ α} (tried : Keeps invariant attempt post)
    (handled : ∀ error,
      Keeps invariant (handler error) post) : Keeps invariant (tryCatch attempt handler) post := by
  intro state kept
  have one := tried state kept
  show match EStateM.tryCatch attempt handler state with
    | .ok value next => post value ∧ invariant next
    | .error _ next => invariant next
  rw [EStateM.tryCatch]
  cases ran : attempt state with
  | ok value next =>
    rw [ran] at one
    exact one
  | error error next =>
    rw [ran] at one
    exact handled error next one

theorem ite [Decidable condition] (whenTrue : condition → Keeps invariant yes post)
    (whenFalse : ¬ condition → Keeps invariant no post) :
    Keeps invariant (if condition then yes else no) post := by
  by_cases holds : condition
  · rw [if_pos holds]
    exact whenTrue holds
  · rw [if_neg holds]
    exact whenFalse holds

/-- A loop that handles one item after the other. -/
theorem mapM {ι : Type u} {step : ι → EStateM ε σ α} {items : List ι}
    (each : ∀ item ∈ items, Keeps invariant (step item) post) :
    Keeps invariant (items.mapM step) fun results => ∀ result ∈ results, post result := by
  induction items with
  | nil => exact pure fun _ member => nomatch member
  | cons item items ih =>
    rw [List.mapM_cons]
    refine (each item List.mem_cons_self).bind fun first holds => ?_
    refine (ih fun other member => each other (List.mem_cons_of_mem item member)).bind
      fun rest others => pure fun result member => ?_
    rcases List.mem_cons.mp member with rfl | later
    · exact holds
    · exact others result later

/-- Where every step preserves a feature, the results have the features of the items. -/
theorem mapM_map {ι : Type u} {γ : Type w} {step : ι → EStateM ε σ α} {feature : ι → γ}
    {found : α → γ} {items : List ι}
    (each : ∀ item ∈ items, Keeps invariant (step item) fun result =>
      found result = feature item) :
    Keeps invariant (items.mapM step) fun results =>
      results.map found = items.map feature := by
  induction items with
  | nil => exact pure rfl
  | cons item items ih =>
    rw [List.mapM_cons]
    refine (each item List.mem_cons_self).bind fun first same => ?_
    refine (ih fun other member => each other (List.mem_cons_of_mem item member)).bind
      fun rest others => pure ?_
    rw [List.map_cons, List.map_cons, same, others]

/-- What holds where the computation returns. -/
theorem of_ok (keeps : Keeps invariant attempt post) {next : σ} (kept : invariant state)
    (returned : attempt state = .ok value next) : post value ∧ invariant next := by
  have one := keeps state kept
  rw [returned] at one
  exact one

end Keeps

/-! ## Sequences taken apart -/

section Sequence

variable {first : EStateM ε σ α} {next : α → EStateM ε σ β} {middle : σ}

/-- A sequence returns where both its parts do. -/
theorem attempt_bind_eq_ok {final : σ} {result : β} :
    (first >>= next) state = .ok result final ↔
      ∃ value middle, first state = .ok value middle ∧ next value middle = .ok result final := by
  show EStateM.bind first next state = _ ↔ _
  rw [EStateM.bind]
  cases ran : first state with
  | ok value middle =>
    constructor
    · exact fun returned => ⟨value, middle, rfl, returned⟩
    · rintro ⟨_, _, same, returned⟩
      cases same
      exact returned
  | error error middle =>
    constructor
    · exact fun returned => nomatch returned
    · rintro ⟨_, _, same, -⟩
      cases same

/-- What follows a computation that returns. -/
theorem attempt_bind_of_ok (returned : first state = .ok value middle) :
    (first >>= next) state = next value middle := by
  show EStateM.bind first next state = _
  rw [EStateM.bind, returned]

/-- Nothing follows a computation that throws. -/
theorem attempt_bind_of_error (thrown : first state = .error error middle) :
    (first >>= next) state = .error error middle := by
  show EStateM.bind first next state = _
  rw [EStateM.bind, thrown]

end Sequence

/-! ## Computations that return -/

/-- Where the invariant holds the computation returns, and keeps it. -/
def Returns (invariant : σ → Prop) (attempt : EStateM ε σ α) : Prop :=
  ∀ state, invariant state → ∃ value next, attempt state = .ok value next ∧ invariant next

namespace Returns

theorem pure : Returns invariant (pure value : EStateM ε σ α) :=
  fun state kept => ⟨value, state, rfl, kept⟩

theorem get : Returns invariant (get : EStateM ε σ σ) :=
  fun state kept => ⟨state, state, rfl, kept⟩

theorem modify (keeps : ∀ state, invariant state → invariant (change state)) :
    Returns invariant (modify change : EStateM ε σ PUnit) :=
  fun state kept => ⟨⟨⟩, change state, rfl, keeps state kept⟩

theorem bind (before : Returns invariant first) (after : ∀ value, Returns invariant (next value)) :
    Returns invariant (first >>= next) := by
  intro state kept
  obtain ⟨value, middle, returned, keptThen⟩ := before state kept
  obtain ⟨result, final, rest, keptLast⟩ := after value middle keptThen
  exact ⟨result, final, (attempt_bind_of_ok returned).trans rest, keptLast⟩

theorem ite [Decidable condition] (whenTrue : Returns invariant yes)
    (whenFalse : Returns invariant no) : Returns invariant (if condition then yes else no) := by
  by_cases holds : condition
  · rw [if_pos holds]
    exact whenTrue
  · rw [if_neg holds]
    exact whenFalse

end Returns

end Library
