/-
# Programs that may be stopped

A program changes a state by one operation after another, and may be stopped between any
two of them. What a stop can leave behind are the states that the program has passed
through, with the one that it ends in.

A program carries an invariant if the invariant holds in every state that it passes, and
if the last state is what the postcondition says of the value that is returned, or what is
said of the error. The rules follow the shape of the program.
-/

import Mathlib.Data.List.Basic

namespace Library

universe u

/-- What a run does: the states before each of its operations, the last state, and the
result. -/
structure Passage (σ ε α : Type u) where
  passed : List σ
  final : σ
  result : Except ε α

/-- A program that may be stopped between two operations. -/
structure Stoppable (σ ε α : Type u) where
  run : σ → Passage σ ε α

namespace Stoppable

variable {σ ε α β : Type u} {program : Stoppable σ ε α} {value : α}

/-- A run that goes on with a second program if the first one returns. -/
def Passage.andThen (one : Passage σ ε α) (next : α → Stoppable σ ε β) : Passage σ ε β :=
  match one.result with
  | .ok value =>
    let other := (next value).run one.final
    ⟨one.passed ++ other.passed, other.final, other.result⟩
  | .error error => ⟨one.passed, one.final, .error error⟩

/-- A run that goes on with a handler if it ends in an error. -/
def Passage.orElse (one : Passage σ ε α) (handler : ε → Stoppable σ ε α) : Passage σ ε α :=
  match one.result with
  | .ok _ => one
  | .error error =>
    let other := (handler error).run one.final
    ⟨one.passed ++ other.passed, other.final, other.result⟩

instance : Monad (Stoppable σ ε) where
  pure value := ⟨fun state => ⟨[], state, .ok value⟩⟩
  bind first next := ⟨fun state => Passage.andThen (first.run state) next⟩

instance : MonadExceptOf ε (Stoppable σ ε) where
  throw error := ⟨fun state => ⟨[], state, .error error⟩⟩
  tryCatch program handler := ⟨fun state => Passage.orElse (program.run state) handler⟩

def observe (read : σ → Except ε α) : Stoppable σ ε α := ⟨fun state => ⟨[], state, read state⟩⟩

/-- An operation, which changes the state in one go or fails. -/
def operate (change : σ → Except ε (α × σ)) : Stoppable σ ε α where
  run state :=
    match change state with
    | .ok (value, next) => ⟨[state], next, .ok value⟩
    | .error error => ⟨[state], state, .error error⟩

/-- The states in which the program may be stopped. -/
def stops (program : Stoppable σ ε α) (state : σ) : List σ :=
  (program.run state).passed ++ [(program.run state).final]

/-! ## Carrying an invariant -/

/-- Every state that is passed meets the invariant, and the program returns a value that
meets the postcondition in the last state, or ends in an error that meets `fails` there. -/
def Carries (invariant : σ → Prop) (program : Stoppable σ ε α) (state : σ)
    (post : α → σ → Prop) (fails : ε → σ → Prop) : Prop :=
  (∀ passed ∈ (program.run state).passed, invariant passed) ∧
    ((∃ value, (program.run state).result = .ok value ∧ post value (program.run state).final) ∨
      ∃ error, (program.run state).result = .error error ∧ fails error (program.run state).final)

variable {invariant : σ → Prop} {state : σ} {post : α → σ → Prop} {fails : ε → σ → Prop}

theorem carries_pure (holds : post value state) :
    Carries invariant (pure value : Stoppable σ ε α) state post fails :=
  ⟨(fun _ member => nomatch member), .inl ⟨value, rfl, holds⟩⟩

theorem carries_throw {error : ε} (failed : fails error state) :
    Carries invariant (throw error : Stoppable σ ε α) state post fails :=
  ⟨(fun _ member => nomatch member), .inr ⟨error, rfl, failed⟩⟩

theorem carries_observe {read : σ → Except ε α} (reads : read state = .ok value)
    (holds : post value state) : Carries invariant (observe read) state post fails :=
  ⟨(fun _ member => nomatch member), .inl ⟨value, reads, holds⟩⟩

theorem carries_operate {change : σ → Except ε (α × σ)} {next : σ} (kept : invariant state)
    (changes : change state = .ok (value, next)) (holds : post value next) :
    Carries invariant (operate change) state post fails := by
  have ran : (operate change).run state = ⟨[state], next, .ok value⟩ := by
    unfold operate
    dsimp only
    rw [changes]
  unfold Carries
  rw [ran]
  refine ⟨?_, .inl ⟨value, rfl, holds⟩⟩
  intro passed member
  rw [List.mem_singleton.mp member]
  exact kept

/-- Sequencing: the first program leaves the state that the second starts from. -/
theorem Carries.bind {first : Stoppable σ ε α} {next : α → Stoppable σ ε β}
    {middle : α → σ → Prop} {post : β → σ → Prop}
    (before : Carries invariant first state middle fails)
    (after : ∀ value between, middle value between →
      Carries invariant (next value) between post fails) :
    Carries invariant (first >>= next) state post fails := by
  have ran : (first >>= next).run state = Passage.andThen (first.run state) next := rfl
  obtain ⟨kept, ⟨value, returned, holds⟩ | ⟨error, threw, failed⟩⟩ := before
  · obtain ⟨keptAfter, ends⟩ := after value _ holds
    unfold Passage.andThen at ran
    rw [returned] at ran
    unfold Carries
    rw [ran]
    refine ⟨?_, ends⟩
    intro passed member
    rcases List.mem_append.mp member with early | late
    · exact kept passed early
    · exact keptAfter passed late
  · unfold Passage.andThen at ran
    rw [threw] at ran
    unfold Carries
    rw [ran]
    exact ⟨kept, .inr ⟨error, rfl, failed⟩⟩

/-- The handler starts from the state that the error leaves. -/
theorem Carries.tryCatch {handler : ε → Stoppable σ ε α} {caught : ε → σ → Prop}
    (carries : Carries invariant program state post caught)
    (handles : ∀ error between, caught error between →
      Carries invariant (handler error) between post fails) :
    Carries invariant (tryCatchThe ε program handler) state post fails := by
  have ran : (tryCatchThe ε program handler).run state =
      Passage.orElse (program.run state) handler := rfl
  obtain ⟨kept, ⟨value, returned, holds⟩ | ⟨error, threw, failed⟩⟩ := carries
  · unfold Passage.orElse at ran
    rw [returned] at ran
    unfold Carries
    rw [ran]
    exact ⟨kept, .inl ⟨value, returned, holds⟩⟩
  · obtain ⟨keptAfter, ends⟩ := handles error _ failed
    unfold Passage.orElse at ran
    rw [threw] at ran
    unfold Carries
    rw [ran]
    refine ⟨?_, ends⟩
    intro passed member
    rcases List.mem_append.mp member with early | late
    · exact kept passed early
    · exact keptAfter passed late

/-- Wherever the program is stopped, the invariant holds, if its last state meets it. -/
theorem Carries.stops (carries : Carries invariant program state post fails)
    (last : ∀ value next, post value next → invariant next)
    (lastFailed : ∀ error next, fails error next → invariant next) :
    ∀ stop ∈ program.stops state, invariant stop := by
  obtain ⟨kept, ends⟩ := carries
  intro stop member
  rcases List.mem_append.mp member with passed | final
  · exact kept stop passed
  · rw [List.mem_singleton.mp final]
    rcases ends with ⟨value, _, holds⟩ | ⟨error, _, failed⟩
    · exact last value _ holds
    · exact lastFailed error _ failed

end Stoppable

end Library
