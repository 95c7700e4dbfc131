/-
# Why a call at the inference pool fails

A call selects an entry before it takes a slot in it, and the entry is idle in
between if nobody else uses it. As long as no such entry is evicted, only the signal of
a call can make it fail with an error that is not the saturation of the pool, the end
of its time or an error of the dispatcher factory.
-/

import GhcGateway.Copilot.InferencePoolOwnership

namespace GhcGateway.Copilot

open Library

variable {limits : InferencePoolLimits}

/-- The errors of a call whose signal is not aborted. -/
def PoolError.Expected : PoolError → Prop
  | .saturated | .acquireTimeout | .factory _ => True
  | .closed | .aborted => False

instance (error : PoolError) : Decidable error.Expected := by
  cases error <;> unfold PoolError.Expected <;> infer_instance

/-- No call fails for a reason that is not its own. -/
structure NoneSpurious (state : InferencePool) : Prop where
  expected : ∀ call error, (state.calls call).aborted = false →
    (state.calls call).stage.error = some error → error.Expected
  selectable : ∀ call id, (state.calls call).aborted = false →
    (state.calls call).stage = .selected id → (state.pool id).closed = false

open InferencePool

namespace NoneSpurious

variable {state : InferencePool} {next : InferencePool}

/-- A change that makes no call fail and closes no entry. -/
theorem of_calls (spurious : NoneSpurious state)
    (calls : ∀ call, (next.calls call).aborted = false →
      (next.calls call).stage = .unborn ∨ next.calls call = state.calls call)
    (closed : ∀ id, state.Selected id → (next.pool id).closed = (state.pool id).closed) :
    NoneSpurious next where
  expected := by
    intro call error notAborted fails
    rcases calls call notAborted with unborn | same
    · rw [unborn] at fails
      cases fails
    · rw [same] at notAborted fails
      exact spurious.expected call error notAborted fails
  selectable := by
    intro call id notAborted selected
    rcases calls call notAborted with unborn | same
    · rw [unborn] at selected
      cases selected
    · rw [same] at notAborted selected
      rw [closed id ⟨call, selected, notAborted⟩]
      exact spurious.selectable call id notAborted selected

/-- A call goes to a stage that what it knows explains. -/
theorem stage (spurious : NoneSpurious state) {call : CallId} {stage : CallStage}
    (selected : ∀ id, stage = .selected id → (state.pool id).closed = false)
    (explained : ∀ error, stage.error = some error → state.Explains call error) :
    NoneSpurious (state.setStage call stage) where
  expected := by
    intro other error notAborted fails
    rw [aborted_setStage] at notAborted
    by_cases same : other = call
    · subst same
      rw [stage_setStage_self] at fails
      rcases explained error fails with was | why
      · exact spurious.expected other error notAborted was
      · cases error with
        | closed =>
          obtain ⟨id, chosen, closed⟩ := why
          rw [spurious.selectable other id notAborted chosen] at closed
          cases closed
        | aborted =>
          rw [notAborted] at why
          cases why
        | saturated => trivial
        | acquireTimeout => trivial
        | factory error => trivial
    · rw [calls_setStage_of_ne state same] at fails
      exact spurious.expected other error notAborted fails
  selectable := by
    intro other id notAborted chosen
    rw [aborted_setStage] at notAborted
    by_cases same : other = call
    · subst same
      rw [stage_setStage_self] at chosen
      exact selected id chosen
    · rw [calls_setStage_of_ne state same] at chosen
      exact spurious.selectable other id notAborted chosen

/-- No part of a move makes a call fail for a reason that is not its own. -/
theorem part {clean : Prop} (consistent : PoolConsistent limits state)
    (spurious : NoneSpurious state) (part : PoolPart limits clean True state next) :
    NoneSpurious next := by
  cases part with
  | stage call stage selected held waits explained =>
    refine spurious.stage (fun id same => ?_) explained
    obtain ⟨key, found⟩ := selected id same
    exact (consistent.registered key id found).1
  | entry id entry keeps =>
    refine spurious.of_calls (fun _ _ => .inr rfl) fun other _ => ?_
    by_cases same : other = id
    · rw [same, pool_setEntry_self, keeps.closed]
    · rw [pool_setEntry_of_ne state same]
  | abort call =>
    refine spurious.of_calls (fun other notAborted => .inr ?_) fun _ _ => rfl
    dsimp only at notAborted ⊢
    by_cases same : other = call
    · rw [same, Function.update_self] at notAborted
      cases notAborted
    · rw [Function.update_of_ne same]
  | call profile aborted =>
    refine spurious.of_calls (fun other _ => ?_) fun _ _ => rfl
    dsimp only
    by_cases same : other = state.nextCall
    · exact .inl (by rw [same, Function.update_self])
    · exact .inr (Function.update_of_ne same ..)
  | register profile absent room =>
    refine spurious.of_calls (fun _ _ => .inr rfl) fun other chosen => ?_
    obtain ⟨call, selected, -⟩ := chosen
    have older := Nat.ne_of_lt (consistent.selected call other selected)
    dsimp only
    rw [Function.update_of_ne older]
  | drain id owner registered idle spared =>
    have known := consistent.registered _ id registered
    obtain ⟨-, -, waiters⟩ := (consistent.sound id).close idle known.1
    rw [beginDraining_of_no_waiters state waiters]
    refine spurious.of_calls (fun _ _ => .inr rfl) fun other chosen => ?_
    have apart : other ≠ id := by
      rintro rfl
      exact spared trivial chosen
    dsimp only
    rw [pool_setEntry_of_ne state apart]
  | drop key id registered failed unused =>
    exact spurious.of_calls (fun _ _ => .inr rfl) fun _ _ => rfl
  | start id used none noDispatcher =>
    refine spurious.of_calls (fun _ _ => .inr rfl) fun other _ => ?_
    by_cases same : other = id
    · rw [same, pool_setEntry_self]
    · rw [pool_setEntry_of_ne _ same]
  | init init stage next => exact spurious.of_calls (fun _ _ => .inr rfl) fun _ _ => rfl
  | undrain id closed ended => exact spurious.of_calls (fun _ _ => .inr rfl) fun _ _ => rfl
  | force id closed forced => exact spurious.of_calls (fun _ _ => .inr rfl) fun _ _ => rfl
  | tick ms => exact spurious.of_calls (fun _ _ => .inr rfl) fun _ _ => rfl

end NoneSpurious

/-- Where no move evicts an entry that a call has selected, a call whose signal is not
aborted fails for one of the expected reasons only, and an entry it has selected is not
closed before it goes on. -/
theorem expected_of_run {schedule : List PoolStep} {state : InferencePool}
    (along : (inferencePool limits).Along (SparesSelected limits) .initial schedule)
    (ran : (inferencePool limits).run .initial schedule = some state)
    (isOpen : state.closed = false) :
    (∀ call error, (state.calls call).aborted = false →
      (state.calls call).stage = .failed error → error.Expected) ∧
      ∀ call id, (state.calls call).aborted = false →
        (state.calls call).stage = .selected id → (state.pool id).closed = false := by
  have holds : NoneSpurious .initial :=
    ⟨fun _ _ _ fails => (nomatch fails), fun _ _ _ selected => (nomatch selected)⟩
  obtain ⟨-, spurious⟩ := invariant_of_parts (fun _ (impossible : False) => impossible.elim)
    (fun met _ => met) (fun consistent spurious => NoneSpurious.part consistent spurious) along ran
    isOpen holds
  refine ⟨fun call error notAborted failed => ?_, spurious.selectable⟩
  exact spurious.expected call error notAborted (by rw [failed]; rfl)

/-- One waiter at most: the third call at an entry fails because the pool is saturated. -/
theorem expected_of_run_saturated :
    let limits : InferencePoolLimits :=
      { InferencePoolLimits.defaults with connectionsPerEntry := 1, maxWaitersPerEntry := 1 }
    let profile : InferenceConnectionProfile := ⟨js "https://a", 10⟩
    let schedule : List PoolStep := [.acquire profile false, .acquire profile false,
      .acquire profile false, .resume 0, .resume 1, .resume 2]
    ∃ state, (inferencePool limits).run .initial schedule = some state ∧
      (state.calls 2).stage = .failed .saturated ∧
      (∀ call error, (state.calls call).aborted = false →
        (state.calls call).stage = .failed error → error.Expected) ∧
      ∀ call id, (state.calls call).aborted = false →
        (state.calls call).stage = .selected id → (state.pool id).closed = false := by
  intro limits profile schedule
  have along : (inferencePool limits).Along
    (fun state label => state.evicts limits label = none) .initial schedule := by decide
  have final : ((inferencePool limits).run .initial schedule).any (fun state =>
    !state.closed && decide ((state.calls 2).stage = .failed .saturated)) = true := by decide
  obtain ⟨state, ran, holds⟩ := (Option.any_eq_true ..).mp final
  rw [Bool.and_eq_true, Bool.not_eq_true', decide_eq_true_eq] at holds
  have spared : (inferencePool limits).Along (SparesSelected limits) .initial schedule := by
    refine along.mono fun before label nothing id evicted => ?_
    rw [nothing] at evicted
    cases evicted
  exact ⟨state, ran, holds.2, expected_of_run spared ran holds.1⟩

/-- Two calls for different profiles, room for one entry: the second evicts the entry
that the first has just been given. -/
theorem spuriously_closed :
    ¬ ∀ (limits : InferencePoolLimits) (schedule : List PoolStep) (state : InferencePool),
      (inferencePool limits).run .initial schedule = some state → state.closed = false →
        (∀ call error, (state.calls call).aborted = false →
          (state.calls call).stage = .failed error → error.Expected) ∧
          ∀ call id, (state.calls call).aborted = false →
            (state.calls call).stage = .selected id → (state.pool id).closed = false := by
  intro expected
  let limits : InferencePoolLimits := { InferencePoolLimits.defaults with maxEntries := 1 }
  let schedule : List PoolStep := [.acquire ⟨js "https://a", 10⟩ false,
    .acquire ⟨js "https://b", 10⟩ false, .resume 0]
  have closed : ((inferencePool limits).run .initial schedule).any (fun state =>
    !state.closed && decide ((state.calls 0).aborted = false ∧
      (state.calls 0).stage = .failed .closed)) = true := by decide
  obtain ⟨state, ran, holds⟩ := (Option.any_eq_true ..).mp closed
  rw [Bool.and_eq_true, Bool.not_eq_true', decide_eq_true_eq] at holds
  exact (expected limits schedule state ran holds.1).1 0 .closed holds.2.1 holds.2.2

end GhcGateway.Copilot
