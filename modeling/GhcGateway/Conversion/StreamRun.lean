/-
# Runs of a conversion

The rule for a whole conversion, over any emitter: an invariant that every event
but the terminal one keeps, and that the terminal event turns into a conclusion,
gives the conclusion of every run that is accepted. Only the terminal event may end
the loop.
-/

import GhcGateway.Conversion.LedgerFacts
import GhcGateway.Conversion.Stream
import GhcGateway.Library.Fallible

namespace GhcGateway.Conversion

open Library

variable {σ ω κ : Type} {emitter : StreamEmitter σ ω} {context : StreamConversionContext κ}
  {target : InferenceProtocol} {state : ConversionState σ}
  {decoded : Generator SemanticStreamEvent ConversionError Unit} {last : ConversionState σ}
  {initial : σ}

/-- A piece of work that is measured. -/
theorem ensures_measured {work : Fallible (ConversionState σ)} {post : ConversionState σ → Prop}
    (holds : Ensures work post) : Ensures (measured emitter state work) post := by
  unfold measured
  cases work with
  | error error => exact ensures_error
  | ok next => exact ensures_ok (holds next rfl)

theorem ensures_reconcileSnapshot (current snapshot : JsString) :
    Ensures (reconcileSnapshot current snapshot) fun suffix => current ++ suffix = snapshot := by
  rw [reconcileSnapshot]
  refine ensures_require.bind fun _ grows => ensures_pure ?_
  obtain ⟨suffix, rfl⟩ := grows
  rw [List.drop_left]

/-- Starting the output leaves the ledger alone and does not end the loop. -/
theorem ledger_startOutput (event : SemanticStreamEvent) :
    Ensures (startOutput emitter state event) fun next =>
      next.ledger = state.ledger ∧ next.terminal = state.terminal := by
  rw [startOutput]
  refine ensures_ite (fun _ => ?_) fun _ => ensures_pure ⟨rfl, rfl⟩
  have starting : Ensures (measured emitter { state with
      started := true, emitter := emitter.emit state.emitter .firstSemantic } (do
        let next ← emitter.start (emitter.emit state.emitter .firstSemantic)
        return { state with started := true, emitter := next }))
      fun next => next.ledger = state.ledger ∧ next.terminal = state.terminal :=
    ensures_measured (ensures_bind fun next _ => ensures_pure ⟨rfl, rfl⟩)
  refine starting.bind fun first same => ?_
  exact ensures_measured (ensures_bind fun next _ => ensures_pure same)

/-! ## The rule for runs -/

/-- The loop with an invariant that also speaks of the events handled. -/
theorem ensures_handleEvents_along {events : List SemanticStreamEvent}
    {invariant : List SemanticStreamEvent → ConversionState σ → Prop}
    {concluded : ConversionState σ → Prop}
    (step : ∀ before state event after, events = before ++ event :: after →
      (∀ terminal, event ≠ .terminal terminal) → invariant before state →
      Ensures (handleEvent emitter context target state event) fun next =>
        next.terminal = state.terminal ∧ invariant (before ++ [event]) next)
    (ends : ∀ before state terminal after, events = before ++ .terminal terminal :: after →
      invariant before state →
      Ensures (handleEvent emitter context target state (.terminal terminal)) fun next =>
        next.terminal = true ∧ concluded next)
    (before rest : List SemanticStreamEvent) (whole : events = before ++ rest)
    (holds : invariant before state) (running : state.terminal = false) :
    Ensures (handleEvents emitter context target state rest)
      fun last => last.terminal = true → concluded last := by
  induction rest generalizing state before with
  | nil =>
    refine ensures_pure fun ended => ?_
    rw [running] at ended
    cases ended
  | cons event rest ih =>
    rw [handleEvents]
    by_cases isTerminal : ∃ terminal, event = .terminal terminal
    · obtain ⟨terminal, rfl⟩ := isTerminal
      refine (ends before state terminal rest whole holds).bind ?_
      rintro next ⟨ended, conclusion⟩
      rw [if_pos ended]
      exact ensures_pure fun _ => conclusion
    · have notTerminal : ∀ terminal, event ≠ .terminal terminal := fun terminal eq =>
        isTerminal ⟨terminal, eq⟩
      refine (step before state event rest whole notTerminal holds).bind ?_
      rintro next ⟨same, kept⟩
      have stillRunning : next.terminal = false := same.trans running
      rw [if_neg (by rw [stillRunning]; exact Bool.false_ne_true)]
      refine ih (before ++ [event]) ?_ kept stillRunning
      rw [whole, List.append_assoc]
      rfl

/-- The state `convertProtocolStream` starts in. -/
def initialState (emitter : StreamEmitter σ ω) (context : StreamConversionContext κ)
    (initial : σ) : ConversionState σ :=
  { ledger := .new context.accumulatorBytes
    emitter := context.degradations.foldl
      (fun state rule => emitter.emit state (.degradation rule)) initial
    usage := zeroUsage
    started := false
    terminal := false }

/-- How `convertProtocolStream` ends after its loop. -/
def concludeEvents (emitter : StreamEmitter σ ω)
    (decoded : Generator SemanticStreamEvent ConversionError Unit)
    (handled : Except (Interrupted ω) (ConversionState σ)) :
    Generator (Emission ω) ConversionError (ConversionState σ) :=
  match handled with
  | .error interrupted => ⟨interrupted.emitted, .error interrupted.error⟩
  | .ok state =>
    if state.terminal then ⟨emitter.emitted state.emitter, .ok state⟩
    else
      match decoded.outcome with
      | .error error => ⟨emitter.emitted state.emitter, .error error⟩
      | .ok () => ⟨emitter.emitted state.emitter, .error invalid⟩

theorem convertEvents_eq (initial : σ)
    (decoded : Generator SemanticStreamEvent ConversionError Unit) :
    convertEvents emitter context target initial decoded = concludeEvents emitter decoded
      (handleEvents emitter context target (initialState emitter context initial)
        decoded.yielded) := rfl

/-- A conversion that returns has ended with a terminal event, and has emitted what
its emitter has. -/
theorem convertEvents_ok
    (returned : (convertEvents emitter context target initial decoded).outcome = .ok last) :
    handleEvents emitter context target (initialState emitter context initial) decoded.yielded =
      .ok last ∧ last.terminal = true ∧
      (convertEvents emitter context target initial decoded).yielded =
        emitter.emitted last.emitter := by
  rw [convertEvents_eq] at returned ⊢
  cases handled : handleEvents emitter context target (initialState emitter context initial)
      decoded.yielded with
  | error interrupted =>
    rw [handled] at returned
    cases returned
  | ok state =>
    rw [handled] at returned
    simp only [concludeEvents] at returned ⊢
    by_cases ended : state.terminal = true
    · rw [if_pos ended] at returned ⊢
      cases returned
      exact ⟨rfl, ended, rfl⟩
    · rw [if_neg ended] at returned
      cases outcome : decoded.outcome with
      | error error =>
        rw [outcome] at returned
        cases returned
      | ok _ =>
        rw [outcome] at returned
        cases returned

/-- What holds of every conversion that is accepted, along the events it has
handled. -/
theorem convertEvents_along (invariant : List SemanticStreamEvent → ConversionState σ → Prop)
    (concluded : ConversionState σ → Prop)
    (step : ∀ before state event after, decoded.yielded = before ++ event :: after →
      (∀ terminal, event ≠ .terminal terminal) → invariant before state →
      Ensures (handleEvent emitter context target state event) fun next =>
        next.terminal = state.terminal ∧ invariant (before ++ [event]) next)
    (ends : ∀ before state terminal after,
      decoded.yielded = before ++ .terminal terminal :: after → invariant before state →
      Ensures (handleEvent emitter context target state (.terminal terminal)) fun next =>
        next.terminal = true ∧ concluded next)
    (holds : invariant [] (initialState emitter context initial))
    (returned : (convertEvents emitter context target initial decoded).outcome = .ok last) :
    concluded last := by
  obtain ⟨handled, ended, -⟩ := convertEvents_ok returned
  exact ensures_handleEvents_along step ends [] decoded.yielded rfl holds rfl last handled ended

end GhcGateway.Conversion
