/-
# The response writer and its body stream

`createStreamResponseWriter` with the stream it makes: one producer enqueues chunks, each after the
one before has settled, and a consumer reads the body. The controller may ask for a chunk while
the writer hands it one, so `pull` can run inside `enqueue` and `close`; it does not run inside
itself, since the controller waits for the answer of the last pull.

What is seen from outside is recorded beside the state: the calls of `enqueue`, how they settled,
and the chunks that were read.
-/

import GhcGateway.Library.ReadableStream

namespace GhcGateway.Gateway

open Library

/-- The variables of `createStreamResponseWriter` and its stream. A call of `enqueue` that waits is
known by its chunk. -/
structure BodyWriter (α : Type) where
  stream : ReadableStream α
  committed : Bool
  closed : Bool
  outstandingPulls : Nat
  lookahead : Option α
  settleLookahead : Option α
  /-- The call that waits until the chunk before it is gone, and the one that has been woken. -/
  waitingProducer : Option α
  woken : Option α
  /-- The source has been told that the consumer cancelled. -/
  cancelled : Bool
  /-- An exception has left a callback or a call. -/
  thrown : Bool
  calls : List α
  outcomes : List (α × Bool)
  reads : List α

/-- What can happen next. -/
inductive BodyInput (α : Type)
  | started
  | pulled
  | read
  | enqueue (chunk : α)
  | resume
  | close
  | abort
  | cancel

namespace BodyWriter

variable {α : Type}

def new : BodyWriter α where
  stream := .new
  committed := false
  closed := false
  outstandingPulls := 0
  lookahead := none
  settleLookahead := none
  waitingProducer := none
  woken := none
  cancelled := false
  thrown := false
  calls := []
  outcomes := []
  reads := []

def settle (writer : BodyWriter α) (accepted : Bool) : BodyWriter α :=
  match writer.settleLookahead with
  | some chunk =>
    { writer with settleLookahead := none, outcomes := writer.outcomes ++ [(chunk, accepted)] }
  | none => writer

def wakeProducer (writer : BodyWriter α) : BodyWriter α :=
  match writer.waitingProducer with
  | some chunk => { writer with waitingProducer := none, woken := some chunk }
  | none => writer

/-- The stream after one of its operations, and the pull that it may call for. -/
def answer (pull : BodyWriter α → BodyWriter α) (writer : BodyWriter α)
    (asked : ReadableStream α × Bool) : BodyWriter α :=
  let writer := { writer with stream := asked.1 }
  if asked.2 then pull writer else writer

/-- `deliver`, with the pull that may run inside. -/
def deliver (pull : BodyWriter α → BodyWriter α) (writer : BodyWriter α) (chunk : α) :
    BodyWriter α :=
  let writer := { writer with committed := true }
  match writer.stream.enqueue chunk with
  | none => { writer with thrown := true }
  | some (stream, isRead, asked) =>
    let writer := { writer with reads := if isRead then writer.reads ++ [chunk] else writer.reads }
    (writer.answer pull (stream, asked)).settle true

/-- `pull`. The controller does not ask again while it runs. -/
def pull (writer : BodyWriter α) : BodyWriter α :=
  match writer.lookahead with
  | some chunk => (deliver id { writer with lookahead := none } chunk).wakeProducer
  | none => wakeProducer { writer with outstandingPulls := writer.outstandingPulls + 1 }

/-- The loop and the rest of `enqueue`. -/
def offer (writer : BodyWriter α) (chunk : α) : BodyWriter α :=
  if writer.closed then { writer with outcomes := writer.outcomes ++ [(chunk, false)] }
  else if writer.lookahead.isSome then { writer with waitingProducer := some chunk }
  else if 0 < writer.outstandingPulls then
    let writer := deliver pull { writer with outstandingPulls := writer.outstandingPulls - 1 } chunk
    { writer with outcomes := writer.outcomes ++ [(chunk, true)] }
  else { writer with lookahead := some chunk, settleLookahead := some chunk }

/-- No call of `enqueue` is under way. -/
def isIdle (writer : BodyWriter α) : Bool :=
  writer.settleLookahead.isNone && writer.waitingProducer.isNone && writer.woken.isNone

/-- What `close` does with the lookahead, which is still there while it is delivered. -/
def flush (writer : BodyWriter α) : BodyWriter α :=
  match writer.lookahead with
  | some chunk => { deliver pull writer chunk with lookahead := none }
  | none => writer

def close (writer : BodyWriter α) : BodyWriter α :=
  let writer := flush { writer with closed := true }
  wakeProducer { writer with stream := writer.stream.close.getD writer.stream }

def abort (writer : BodyWriter α) : BodyWriter α :=
  let writer := settle { writer with closed := true, lookahead := none } false
  wakeProducer { writer with stream := writer.stream.error }

/-- The consumer cancels: `cancel`, where the stream calls it. -/
def cancel (writer : BodyWriter α) : BodyWriter α :=
  let (stream, told) := writer.stream.cancel
  if told then
    (settle { writer with
      stream := stream
      cancelled := true
      closed := true
      lookahead := none } false).wakeProducer
  else writer

def read (writer : BodyWriter α) : BodyWriter α :=
  let (stream, chunk, asked) := writer.stream.read
  let writer := writer.answer pull (stream, asked)
  { writer with reads := writer.reads ++ chunk.toList }

/-- One step. What cannot happen now changes nothing. -/
def step (writer : BodyWriter α) : BodyInput α → BodyWriter α
  | .started =>
    if writer.stream.started then writer else writer.answer pull writer.stream.finishStart
  | .pulled => if writer.stream.pulling then writer.answer pull writer.stream.finishPull else writer
  | .read => writer.read
  | .enqueue chunk =>
    if writer.isIdle then offer { writer with calls := writer.calls ++ [chunk] } chunk else writer
  | .resume =>
    match writer.woken with
    | some chunk => offer { writer with woken := none } chunk
    | none => writer
  | .close => writer.close
  | .abort => writer.abort
  | .cancel => writer.cancel

def run (inputs : List (BodyInput α)) : BodyWriter α := inputs.foldl step new

/-- The chunks of the calls that settled with `true`. -/
def acceptedOf (outcomes : List (α × Bool)) : List α := (outcomes.filter Prod.snd).map Prod.fst

/-- The accepted chunks, those that `close` delivered among them. -/
def accepted (writer : BodyWriter α) : List α := acceptedOf writer.outcomes

@[simp]
theorem acceptedOf_accept (outcomes : List (α × Bool)) (chunk : α) :
    acceptedOf (outcomes ++ [(chunk, true)]) = acceptedOf outcomes ++ [chunk] := by
  simp [acceptedOf]

@[simp]
theorem acceptedOf_refuse (outcomes : List (α × Bool)) (chunk : α) :
    acceptedOf (outcomes ++ [(chunk, false)]) = acceptedOf outcomes := by
  simp [acceptedOf]

end BodyWriter

end GhcGateway.Gateway
