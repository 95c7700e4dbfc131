/-
# Generators that may throw

A generator yields values one after another and then either returns or throws;
what it yielded before it threw has reached its consumer. `Generator ω ε α` is
that behaviour: the values yielded and the outcome. Sequencing appends what the
continuation yields, and nothing follows a throw.

The module is independent of what is yielded and of what the errors are.
-/

import GhcGateway.Library.Fallible
import Mathlib.Data.List.Basic

namespace Library

universe u v w

/-- The values a generator yields and how it ends. -/
structure Generator (ω : Type u) (ε : Type v) (α : Type w) where
  yielded : List ω
  outcome : Except ε α
  deriving DecidableEq

namespace Generator

variable {ω : Type u} {ε : Type v} {α β γ : Type w}
  {first : Generator ω ε α} {next : α → Generator ω ε β} {values : List ω} {value : α}
  {error : ε}

/-- Return without yielding. -/
protected def pure (value : α) : Generator ω ε α := ⟨[], .ok value⟩

protected def throw (error : ε) : Generator ω ε α := ⟨[], .error error⟩

/-- Run a continuation on the value returned; a throw skips it. -/
protected def bind (first : Generator ω ε α) (next : α → Generator ω ε β) :
    Generator ω ε β :=
  match first.outcome with
  | .error error => ⟨first.yielded, .error error⟩
  | .ok value => ⟨first.yielded ++ (next value).yielded, (next value).outcome⟩

instance : Monad (Generator ω ε) where
  pure := Generator.pure
  bind := Generator.bind

def yieldValue (value : ω) : Generator ω ε Unit := ⟨[value], .ok ()⟩

def yieldValues (values : List ω) : Generator ω ε Unit := ⟨values, .ok ()⟩

def ofExcept (computation : Except ε α) : Generator ω ε α := ⟨[], computation⟩

instance : MonadLift (Except ε) (Generator ω ε) := ⟨ofExcept⟩

/-- Yield some values, then continue as `rest`. -/
def emit (values : List ω) (rest : Generator ω ε α) : Generator ω ε α :=
  ⟨values ++ rest.yielded, rest.outcome⟩

@[simp]
theorem pure_bind (value : α) (next : α → Generator ω ε β) :
    (Generator.pure value).bind next = next value := rfl

@[simp]
theorem throw_bind (error : ε) (next : α → Generator ω ε β) :
    (Generator.throw error : Generator ω ε α).bind next = Generator.throw error := rfl

@[simp]
theorem emit_nil (rest : Generator ω ε α) : emit [] rest = rest := rfl

theorem emit_bind (values : List ω) (rest : Generator ω ε α)
    (next : α → Generator ω ε β) :
    (emit values rest).bind next = emit values (rest.bind next) := by
  obtain ⟨yielded, outcome⟩ := rest
  cases outcome with
  | error error => rfl
  | ok value => simp [emit, Generator.bind]

theorem bind_assoc (first : Generator ω ε α) (next : α → Generator ω ε β)
    (last : β → Generator ω ε γ) :
    (first.bind next).bind last = first.bind fun value => (next value).bind last := by
  obtain ⟨yielded, outcome⟩ := first
  cases outcome with
  | error error => rfl
  | ok value =>
    cases h : (next value).outcome with
    | error error => simp [Generator.bind, h]
    | ok middle => simp [Generator.bind, h]

theorem bind_pure (first : Generator ω ε α) : first.bind Generator.pure = first := by
  obtain ⟨yielded, outcome⟩ := first
  cases outcome with
  | error error => rfl
  | ok value => simp [Generator.bind, Generator.pure]

/-- Two continuations that agree on the value returned make no difference. -/
theorem bind_congr {other : α → Generator ω ε β}
    (agree : ∀ value, first.outcome = .ok value → next value = other value) :
    first.bind next = first.bind other := by
  obtain ⟨yielded, outcome⟩ := first
  cases outcome with
  | error error => rfl
  | ok value => simp [Generator.bind, agree value rfl]

/-- A generator that returns hands its value to the continuation. -/
theorem bind_of_ok (returned : first.outcome = .ok value) (next : α → Generator ω ε β) :
    first.bind next = emit first.yielded (next value) := by
  rw [Generator.bind, returned]
  rfl

/-- A generator that throws is the whole of the sequence. -/
theorem bind_of_error (thrown : first.outcome = .error error) (next : α → Generator ω ε β) :
    first.bind next = ⟨first.yielded, .error error⟩ := by
  rw [Generator.bind, thrown]

/-- A sequence returns when both its parts do. -/
theorem outcome_bind_eq_ok {result : β} :
    (first.bind next).outcome = .ok result ↔
      ∃ value, first.outcome = .ok value ∧ (next value).outcome = .ok result := by
  cases returned : first.outcome with
  | error error => simp [bind_of_error returned]
  | ok value => simp [bind_of_ok returned, emit]

theorem emit_emit (values more : List ω) (rest : Generator ω ε α) :
    emit values (emit more rest) = emit (values ++ more) rest := by
  rw [emit, emit, emit, List.append_assoc]

/-- `emit` tells its two parts apart by the values in front. -/
theorem emit_inj {rest other : Generator ω ε α} :
    emit values rest = emit values other ↔ rest = other := by
  cases rest
  cases other
  simp [emit]

/-! ## Traces

Some values have been yielded before a generator runs; together with what it yields
they are the trace. -/

section Traces

variable {history : List ω} {last : List ω → β → Prop} {computation : Except ε α} {δ : Type}

/-- A generator that throws leaves a trace of one kind, and one that returns leaves a
trace and a value of another. -/
structure Traces (history : List ω) (generator : Generator ω ε α) (thrown : List ω → Prop)
    (returned : List ω → α → Prop) : Prop where
  thrown : ∀ error, generator.outcome = .error error → thrown (history ++ generator.yielded)
  returned : ∀ value, generator.outcome = .ok value →
    returned (history ++ generator.yielded) value

variable {thrown : List ω → Prop} {returned : List ω → α → Prop}

theorem traces_pure (holds : returned history value) :
    Traces history (pure value : Generator ω ε α) thrown returned := by
  refine ⟨fun error failed => ?_, fun other same => ?_⟩
  · cases failed
  · cases same
    exact (List.append_nil history).symm ▸ holds

theorem traces_throw (holds : thrown history) :
    Traces history (Generator.throw error : Generator ω ε α) thrown returned := by
  refine ⟨fun other failed => (List.append_nil history).symm ▸ holds, fun value same => ?_⟩
  cases same

/-- A computation that yields nothing. -/
theorem traces_ofExcept (fails : thrown history) (holds : Ensures computation (returned history)) :
    Traces history (ofExcept computation : Generator ω ε α) thrown returned := by
  refine ⟨fun error failed => (List.append_nil history).symm ▸ fails, fun value same => ?_⟩
  exact (List.append_nil history).symm ▸ holds value same

theorem traces_yieldValues {told : List ω → Unit → Prop} (holds : told (history ++ values) ()) :
    Traces history (yieldValues values : Generator ω ε Unit) thrown told := by
  refine ⟨fun error failed => ?_, fun value same => holds⟩
  cases failed

theorem Traces.bind {middle : List ω → α → Prop} (before : Traces history first thrown middle)
    (after : ∀ trace value, middle trace value → Traces trace (next value) thrown last) :
    Traces history (first >>= next) thrown last := by
  show Traces history (first.bind next) thrown last
  cases outcome : first.outcome with
  | error error =>
    rw [bind_of_error outcome]
    exact ⟨fun _ _ => before.thrown error outcome, by rintro _ ⟨⟩⟩
  | ok value =>
    rw [bind_of_ok outcome]
    have continued := after _ value (before.returned value outcome)
    rw [emit]
    exact ⟨fun error failed => List.append_assoc _ _ _ ▸ continued.thrown error failed,
      fun result same => List.append_assoc _ _ _ ▸ continued.returned result same⟩

theorem Traces.mono {generator : Generator ω ε α} {weaker : List ω → α → Prop}
    (holds : Traces history generator thrown returned)
    (implies : ∀ trace value, returned trace value → weaker trace value) :
    Traces history generator thrown weaker :=
  ⟨holds.thrown, fun value same => implies _ value (holds.returned value same)⟩

theorem traces_ite {condition : Prop} [Decidable condition] {yes no : Generator ω ε α}
    (whenTrue : condition → Traces history yes thrown returned)
    (whenFalse : ¬ condition → Traces history no thrown returned) :
    Traces history (if condition then yes else no) thrown returned := by
  by_cases holds : condition
  · rw [if_pos holds]
    exact whenTrue holds
  · rw [if_neg holds]
    exact whenFalse holds

/-- A loop over a list keeps an invariant that every iteration keeps. -/
theorem traces_foldlM {ι : Type w} {step : α → ι → Generator ω ε α} {items : List ι}
    (preserved : ∀ trace state item, item ∈ items → returned trace state →
      Traces trace (step state item) thrown returned)
    {state : α} (start : returned history state) :
    Traces history (items.foldlM step state) thrown returned := by
  induction items generalizing state history with
  | nil => exact traces_pure start
  | cons item items ih =>
    rw [List.foldlM_cons]
    refine (preserved history state item List.mem_cons_self start).bind fun trace next holds => ?_
    exact ih (fun trace' state' item' member =>
      preserved trace' state' item' (List.mem_cons_of_mem _ member)) holds

/-- A step that yields nothing comes first. -/
theorem traces_lift (fails : thrown history)
    (after : ∀ value, computation = .ok value → Traces history (next value) thrown last) :
    Traces history ((liftM computation : Generator ω ε α) >>= next) thrown last := by
  have lifted : Traces history (ofExcept computation : Generator ω ε α) thrown fun trace value =>
      trace = history ∧ computation = .ok value :=
    traces_ofExcept fails fun value same => ⟨rfl, same⟩
  refine Traces.bind lifted ?_
  rintro trace value ⟨rfl, same⟩
  exact after value same

/-- A value is yielded first. -/
theorem traces_yield {value : ω} {next : Unit → Generator ω ε δ} {last : List ω → δ → Prop}
    (after : Traces (history ++ [value]) (next ()) thrown last) :
    Traces history (yieldValue value >>= next) thrown last := by
  have yielding : Traces history (yieldValues [value] : Generator ω ε Unit) thrown
      fun trace _ => trace = history ++ [value] := traces_yieldValues rfl
  refine Traces.bind yielding ?_
  rintro trace ⟨⟩ rfl
  exact after

/-- Some values are yielded first. -/
theorem traces_yields {next : Unit → Generator ω ε δ} {last : List ω → δ → Prop}
    (after : Traces (history ++ values) (next ()) thrown last) :
    Traces history (yieldValues values >>= next) thrown last := by
  have yielding : Traces history (yieldValues values : Generator ω ε Unit) thrown
      fun trace _ => trace = history ++ values := traces_yieldValues rfl
  refine Traces.bind yielding ?_
  rintro trace ⟨⟩ rfl
  exact after

/-- What is known between two steps. -/
theorem traces_through (middle : List ω → α → Prop) (before : Traces history first thrown middle)
    (after : ∀ trace value, middle trace value → Traces trace (next value) thrown last) :
    Traces history (first >>= next) thrown last :=
  before.bind after

/-- A loop that is run for what it yields. -/
theorem traces_forM {ι : Type u} {step : ι → Generator ω ε PUnit} {items : List ι}
    {kept : List ω → Prop}
    (preserved : ∀ trace item, item ∈ items → kept trace →
      Traces trace (step item) thrown fun trace _ => kept trace)
    (start : kept history) :
    Traces history (items.forM step) thrown fun trace _ => kept trace := by
  induction items generalizing history with
  | nil => exact traces_pure start
  | cons item items ih =>
    refine (preserved history item List.mem_cons_self start).bind fun trace _ holds => ?_
    exact ih (fun trace other member => preserved trace other (List.mem_cons_of_mem _ member)) holds

end Traces

end Generator

end Library
