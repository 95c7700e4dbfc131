/-
# A readable stream with its default controller

The state of a stream whose high-water mark is zero: chunks that wait in its queue, reads that
wait for a chunk, and the protocol by which its controller asks for more. The source is asked only
while a read waits, and not again before its last answer has settled; a request that comes in
between is remembered. An operation says whether the source is to be asked now.

The module is independent of what the chunks are.
-/

import Mathlib.Data.List.Basic

namespace Library

universe u

inductive StreamState
  | readable
  | closed
  | errored
  deriving DecidableEq

/-- A stream, its controller and the number of its pending reads. -/
structure ReadableStream (α : Type u) where
  state : StreamState
  queue : List α
  requests : Nat
  started : Bool
  pulling : Bool
  pullAgain : Bool
  closeRequested : Bool

namespace ReadableStream

variable {α : Type u}

def new : ReadableStream α := ⟨.readable, [], 0, false, false, false, false⟩

/-- `CanCloseOrEnqueue`. -/
def isOpen (stream : ReadableStream α) : Bool :=
  stream.state = .readable && !stream.closeRequested

/-- `ShouldCallPull`; no size of the queue is below the high-water mark. -/
def shouldCallPull (stream : ReadableStream α) : Bool :=
  stream.isOpen && stream.started && 0 < stream.requests

def callPullIfNeeded (stream : ReadableStream α) : ReadableStream α × Bool :=
  if stream.shouldCallPull then
    if stream.pulling then ({ stream with pullAgain := true }, false)
    else ({ stream with pulling := true }, true)
  else (stream, false)

/-- The promise of `start` has settled. -/
def finishStart (stream : ReadableStream α) : ReadableStream α × Bool :=
  callPullIfNeeded { stream with started := true }

/-- The promise of the last pull has settled. -/
def finishPull (stream : ReadableStream α) : ReadableStream α × Bool :=
  let stream := { stream with pulling := false }
  if stream.pullAgain then callPullIfNeeded { stream with pullAgain := false }
  else (stream, false)

/-- `read`: the stream, the chunk if the read has one now, and whether the source is asked. On a
stream that has ended the read ends too. -/
def read (stream : ReadableStream α) : ReadableStream α × Option α × Bool :=
  if stream.state = .readable then
    match stream.queue with
    | chunk :: queue =>
      if stream.closeRequested && queue.isEmpty then
        ({ stream with state := .closed, queue := [], requests := 0 }, some chunk, false)
      else
        let asked := callPullIfNeeded { stream with queue := queue }
        (asked.1, some chunk, asked.2)
    | [] =>
      let asked := callPullIfNeeded { stream with requests := stream.requests + 1 }
      (asked.1, none, asked.2)
  else (stream, none, false)

/-- The stream with one more chunk: the first read gets it, or it is queued. -/
def take (stream : ReadableStream α) (chunk : α) : ReadableStream α :=
  if 0 < stream.requests then { stream with requests := stream.requests - 1 }
  else { stream with queue := stream.queue ++ [chunk] }

/-- `enqueue`: the stream, whether a read gets the chunk, and whether the source is asked; nothing
where it throws. -/
def enqueue (stream : ReadableStream α) (chunk : α) : Option (ReadableStream α × Bool × Bool) :=
  if stream.isOpen then
    let asked := (stream.take chunk).callPullIfNeeded
    some (asked.1, decide (0 < stream.requests), asked.2)
  else none

/-- `close`; nothing where it throws. -/
def close (stream : ReadableStream α) : Option (ReadableStream α) :=
  if stream.isOpen then
    if stream.queue.isEmpty then
      some { stream with closeRequested := true, state := .closed, requests := 0 }
    else some { stream with closeRequested := true }
  else none

def error (stream : ReadableStream α) : ReadableStream α :=
  if stream.state = .readable then
    { stream with state := .errored, queue := [], requests := 0 }
  else stream

/-- `cancel`, and whether the source is told. -/
def cancel (stream : ReadableStream α) : ReadableStream α × Bool :=
  if stream.state = .readable then
    ({ stream with state := .closed, queue := [], requests := 0 }, true)
  else (stream, false)

/-! ## What the controller keeps -/

/-- Reads wait only where no chunk does, a stream that has ended keeps nothing, a stream that is
to be closed still has a chunk, and a request is remembered only while another is under way. -/
structure WellFormed (stream : ReadableStream α) : Prop where
  queueOrRequests : stream.queue = [] ∨ stream.requests = 0
  ended : stream.state ≠ .readable → stream.queue = [] ∧ stream.requests = 0
  closing : stream.state = .readable → stream.closeRequested = true → stream.queue ≠ []
  remembered : stream.pullAgain = true → stream.pulling = true

theorem wellFormed_new : (new : ReadableStream α).WellFormed where
  queueOrRequests := .inl rfl
  ended apart := absurd rfl apart
  closing _ requested := by cases requested
  remembered again := by cases again

variable {stream : ReadableStream α}

theorem isOpen_iff : stream.isOpen = true ↔
    stream.state = .readable ∧ stream.closeRequested = false := by
  simp [isOpen]

theorem shouldCallPull_iff : stream.shouldCallPull = true ↔
    stream.isOpen = true ∧ stream.started = true ∧ 0 < stream.requests := by
  simp [shouldCallPull, and_assoc]

theorem callPullIfNeeded_of_not (not : stream.shouldCallPull = false) :
    stream.callPullIfNeeded = (stream, false) := by
  simp [callPullIfNeeded, not]

theorem callPullIfNeeded_of_pulling (should : stream.shouldCallPull = true)
    (pulling : stream.pulling = true) :
    stream.callPullIfNeeded = ({ stream with pullAgain := true }, false) := by
  simp [callPullIfNeeded, should, pulling]

theorem callPullIfNeeded_of_not_pulling (should : stream.shouldCallPull = true)
    (idle : stream.pulling = false) :
    stream.callPullIfNeeded = ({ stream with pulling := true }, true) := by
  simp [callPullIfNeeded, should, idle]

/-- Whether the source is asked or not, only the controller's own notes change. -/
theorem callPullIfNeeded_eq (stream : ReadableStream α) :
    ∃ pulling pullAgain, stream.callPullIfNeeded.1 =
        { stream with pulling := pulling, pullAgain := pullAgain } ∧
      ((stream.pullAgain = true → stream.pulling = true) → pullAgain = true → pulling = true) := by
  cases should : stream.shouldCallPull with
  | false =>
    rw [callPullIfNeeded_of_not should]
    exact ⟨stream.pulling, stream.pullAgain, rfl, id⟩
  | true =>
    cases pulling : stream.pulling with
    | true =>
      rw [callPullIfNeeded_of_pulling should pulling]
      exact ⟨true, true, by rw [← pulling], fun _ _ => rfl⟩
    | false =>
      rw [callPullIfNeeded_of_not_pulling should pulling]
      exact ⟨true, stream.pullAgain, rfl, fun _ _ => rfl⟩

theorem WellFormed.callPullIfNeeded (wellFormed : stream.WellFormed) :
    stream.callPullIfNeeded.1.WellFormed := by
  obtain ⟨pulling, pullAgain, same, remembered⟩ := callPullIfNeeded_eq stream
  rw [same]
  exact ⟨wellFormed.queueOrRequests, wellFormed.ended, wellFormed.closing,
    remembered wellFormed.remembered⟩

@[simp]
theorem state_callPullIfNeeded : stream.callPullIfNeeded.1.state = stream.state := by
  obtain ⟨pulling, pullAgain, same, -⟩ := callPullIfNeeded_eq stream
  rw [same]

@[simp]
theorem queue_callPullIfNeeded : stream.callPullIfNeeded.1.queue = stream.queue := by
  obtain ⟨pulling, pullAgain, same, -⟩ := callPullIfNeeded_eq stream
  rw [same]

@[simp]
theorem isOpen_callPullIfNeeded : stream.callPullIfNeeded.1.isOpen = stream.isOpen := by
  obtain ⟨pulling, pullAgain, same, -⟩ := callPullIfNeeded_eq stream
  rw [same]
  rfl

/-- The source is not asked while it answers. -/
theorem quiet_of_pulling (pulling : stream.pulling = true) :
    stream.callPullIfNeeded.2 = false := by
  cases should : stream.shouldCallPull with
  | false => rw [callPullIfNeeded_of_not should]
  | true => rw [callPullIfNeeded_of_pulling should pulling]

@[simp]
theorem started_take (chunk : α) : (stream.take chunk).started = stream.started := by
  unfold take
  split
  · rfl
  · rfl

@[simp]
theorem pulling_take (chunk : α) : (stream.take chunk).pulling = stream.pulling := by
  unfold take
  split
  · rfl
  · rfl

/-- One more chunk leaves an open stream well formed. -/
theorem WellFormed.take (wellFormed : stream.WellFormed) (isOpen : stream.isOpen = true)
    (chunk : α) : (stream.take chunk).WellFormed := by
  obtain ⟨readable, notClosing⟩ := isOpen_iff.mp isOpen
  unfold ReadableStream.take
  split
  · next waits =>
    have noChunk : stream.queue = [] := wellFormed.queueOrRequests.resolve_right (by omega)
    exact ⟨.inl noChunk, fun apart => absurd readable apart,
      fun _ closing => absurd (notClosing.symm.trans closing) Bool.false_ne_true,
      wellFormed.remembered⟩
  · next none =>
    exact ⟨.inr (Nat.eq_zero_of_not_pos none), fun apart => absurd readable apart,
      fun _ _ => by simp, wellFormed.remembered⟩

@[simp]
theorem state_take (chunk : α) : (stream.take chunk).state = stream.state := by
  unfold take
  split
  · rfl
  · rfl

@[simp]
theorem closeRequested_take (chunk : α) :
    (stream.take chunk).closeRequested = stream.closeRequested := by
  unfold take
  split
  · rfl
  · rfl

@[simp]
theorem isOpen_take (chunk : α) : (stream.take chunk).isOpen = stream.isOpen := by
  simp [isOpen]

end ReadableStream

end Library
