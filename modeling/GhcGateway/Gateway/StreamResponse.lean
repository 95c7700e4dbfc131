/-
# The writer of a streamed response body

`createStreamResponseWriter` connects a producer that enqueues chunks with a body
stream that pulls them. One chunk waits as lookahead until it is pulled, and the call
of `enqueue` that left it there waits with it. The functions here are what the writer
does between two suspensions; what a call of `enqueue` waits for, and what its owner is
told (`onCommit`, `onCancel`, the outcome of a waiting `enqueue`), is left to the caller.
`BodyWriter` is the same writer with its stream, what waits and what is read.
-/

import GhcGateway.Gateway.Failure

namespace GhcGateway.Gateway

/-- A thrown value: a `GatewayFailureError`, or anything else. -/
inductive StreamError
  | gateway (failure : GatewayFailure)
  | other (error : Nat)
  deriving DecidableEq

/-- How the body stream ended; an error that is not given is the default one of
`abort`. -/
inductive BodyEnd
  | closed
  | errored (error : Option StreamError)
  | cancelled
  deriving DecidableEq

/-- The state of `createStreamResponseWriter`. -/
structure StreamResponseWriter where
  committed : Bool
  closed : Bool
  outstandingPulls : Nat
  lookahead : Option (List UInt8)
  delivered : List (List UInt8)
  ended : Option BodyEnd

/-- What a call of `enqueue` comes to before it suspends: `false`, `true`, the wait for
its chunk to be pulled, or the wait for the chunk before it. -/
inductive EnqueueResult
  | refused
  | delivered
  | held
  | blocked
  deriving DecidableEq

namespace StreamResponseWriter

def new : StreamResponseWriter := ⟨false, false, 0, none, [], none⟩

/-- `deliver`, without the callbacks. -/
def deliver (writer : StreamResponseWriter) (chunk : List UInt8) : StreamResponseWriter :=
  { writer with committed := true, delivered := writer.delivered ++ [chunk] }

/-- `pull`; the result says whether the lookahead has been delivered. -/
def pull (writer : StreamResponseWriter) : StreamResponseWriter × Bool :=
  match writer.lookahead with
  | some chunk => ({ writer with lookahead := none }.deliver chunk, true)
  | none => ({ writer with outstandingPulls := writer.outstandingPulls + 1 }, false)

/-- `enqueue` up to its suspension. -/
def enqueue (writer : StreamResponseWriter) (chunk : List UInt8) :
    StreamResponseWriter × EnqueueResult :=
  if writer.closed then (writer, .refused)
  else if writer.lookahead.isSome then (writer, .blocked)
  else if 0 < writer.outstandingPulls then
    ({ writer with outstandingPulls := writer.outstandingPulls - 1 }.deliver chunk, .delivered)
  else ({ writer with lookahead := some chunk }, .held)

/-- `cancel` of the body stream, before `onCancel`. -/
def cancel (writer : StreamResponseWriter) : StreamResponseWriter :=
  { writer with closed := true, lookahead := none, ended := some .cancelled }

/-- `close`; the result says whether the lookahead has been delivered. -/
def close (writer : StreamResponseWriter) : StreamResponseWriter × Bool :=
  let writer := { writer with closed := true, ended := writer.ended.or (some .closed) }
  match writer.lookahead with
  | some chunk => ({ writer with lookahead := none }.deliver chunk, true)
  | none => (writer, false)

def abort (writer : StreamResponseWriter) (error : Option StreamError) : StreamResponseWriter :=
  { writer with
    closed := true
    lookahead := none
    ended := writer.ended.or (some (.errored error)) }

@[simp]
theorem closed_close (writer : StreamResponseWriter) : writer.close.1.closed = true := by
  unfold close
  dsimp only
  split <;> rfl

@[simp]
theorem closed_pull (writer : StreamResponseWriter) : writer.pull.1.closed = writer.closed := by
  unfold pull
  split <;> rfl

@[simp]
theorem closed_enqueue (writer : StreamResponseWriter) (chunk : List UInt8) :
    (writer.enqueue chunk).1.closed = writer.closed := by
  unfold enqueue
  split
  · rfl
  · split
    · rfl
    · split <;> rfl

end StreamResponseWriter

end GhcGateway.Gateway
