/-
# The execution of one stream

`createStreamExecutionResponseOwner` waits for the first emission of a stream, answers
with a response whose body a producer fills from then on, and settles the execution
once, whichever of five things ends it: the producer, the abort of the request or of
the delivery, the cancellation of the body by the client, or `abort` of the handle. All
of them call `finish`, which does its work behind a barrier; a later call waits there.

The state is what the closure of the owner holds, with the stage at which each of its
parts is suspended: the owner itself, the work of `finish`, and the producer. A move
runs one continuation that is due, or lets something happen outside. What callbacks do
is known by its record: the results given to `onTerminal`, the values given to
`finalizeSuccess`, the calls of `upstream.cancel` and of the claimed finalizer.
-/

import GhcGateway.Gateway.Failure
import GhcGateway.Gateway.StreamResponse
import GhcGateway.Library.Schedule

namespace GhcGateway.Gateway

open Library

inductive StreamExecutionState
  | precommit
  | committed
  | terminating
  | completed
  deriving DecidableEq

inductive StreamExecutionTerminalCause
  | semanticSuccess
  | precommitFailure
  | postcommitFailure
  | clientCancel
  | requestAbort
  | totalTimeout
  | firstByteTimeout
  | idleTimeout
  | shutdown
  deriving DecidableEq

/-- The outcome of a stream, as `onTerminal` gets it. -/
inductive StreamOutcome (α : Type)
  | success (value : α)
  | failure (error : StreamError)

inductive WriterMode
  | close
  | abort
  deriving DecidableEq

/-- What a call of `iterator.next()` gives: an emission, the end, or an error. -/
inductive NextEmission (α : Type)
  | wire (bytes : List UInt8)
  | terminal (outcome : StreamOutcome α) (writerMode : WriterMode)
  | done
  | failed (error : StreamError)

/-- `CreateStreamExecutionResponseInput`, as far as the owner decides by it:
`canReturn` says whether the iterator has a `return` method, `finalizes` whether
`finalizeSuccess` is given. -/
structure StreamExecutionInput where
  canReturn : Bool
  finalizes : Bool
  normalizeFailure : StreamError → StreamError
  presentPostCommitFailure : StreamError → StreamError

/-- How far the work of `finish` is. -/
inductive BarrierStage
  | finalizing
  | cancelling
  | cancelled
  | returning
  | joining
  | settling
  | done
  deriving DecidableEq

/-- The work of `finish`: what it was called with, and the effective result and writer
mode. -/
structure Barrier (α : Type) where
  terminalCause : StreamExecutionTerminalCause
  result : StreamOutcome α
  writerMode : WriterMode
  fromProducer : Bool
  stage : BarrierStage

/-- Where the owner stands: it waits for the first emission, waits for the completion
to throw, has thrown, or has returned its response. -/
inductive OwnerStage
  | awaitingFirst
  | failing (error : StreamError)
  | threw (error : StreamError)
  | returned
  deriving DecidableEq

/-- Where the producer stands: not started; in `enqueue`, before or after its chunk is
held; behind it; waiting for the first delivery or for the next emission; in `finish`;
done. -/
inductive ProducerStage
  | unset
  | blocked (chunk : List UInt8) (first : Bool)
  | held (first : Bool)
  | resumed (first accepted : Bool)
  | awaitingDelivery
  | pulling
  | finishing
  | done
  deriving DecidableEq

abbrev SignalReason := StreamError

structure StreamExecution (α : Type) where
  signal : Option SignalReason
  deliverySignal : Bool
  listening : Bool
  stage : OwnerStage
  state : StreamExecutionState
  cause : Option StreamExecutionTerminalCause
  barrier : Option (Barrier α)
  writer : Option StreamResponseWriter
  producer : ProducerStage
  deliveryAdapterClaimed : Bool
  deliveryFinalized : Bool
  deliverySettled : Bool
  firstDelivered : Bool
  cancellation : Bool
  finalizerRuns : Nat
  terminals : List (StreamOutcome α)
  finalizations : List α
  finalized : Option (Except StreamError Unit)
  upstreamCancels : Nat

/-- The failure that the parser reports for a stream that ends without its terminal. -/
def streamTruncated : StreamError :=
  .gateway ⟨.upstreamStreamTruncated, some .parser, some .stream⟩

def streamAborted : StreamError := .gateway ⟨.aborted, some .request, some .stream⟩

/-- `failureFromSignal` with the origin of the owner. -/
def failureFromSignal : Option SignalReason → GatewayFailure
  | none => ⟨.internal, some .parser, some .stream⟩
  | some (.gateway failure) =>
    ⟨failure.kind, failure.source.or (some .parser), failure.phase.or (some .stream)⟩
  | some (.other _) => ⟨.aborted, some .parser, some .stream⟩

namespace StreamExecution

variable {α : Type} (input : StreamExecutionInput) (state : StreamExecution α)

def settleDelivery : StreamExecution α := { state with deliverySettled := true }

def markDelivered : StreamExecution α :=
  if state.firstDelivered then state
  else
    { state with
      firstDelivered := true
      state := if state.state = .precommit then .committed else state.state }

def finalizeDelivery : StreamExecution α :=
  if state.deliveryFinalized || !state.deliveryAdapterClaimed then state
  else { state with deliveryFinalized := true, finalizerRuns := state.finalizerRuns + 1 }

/-- `onCommit` of the writer. -/
def onCommit : StreamExecution α :=
  if state.deliveryAdapterClaimed then state else state.markDelivered

/-- The call of `enqueue` that waits for its chunk gets its answer. -/
def settleLookahead (accepted : Bool) : StreamExecution α :=
  match state.producer with
  | .held first => { state with producer := .resumed first accepted }
  | _ => state

def abortWriter (error : Option StreamError) : StreamExecution α :=
  match state.writer with
  | some writer => { state with writer := some (writer.abort error) }.settleLookahead false
  | none => state

def closeWriter : StreamExecution α :=
  match state.writer with
  | some writer =>
    let (writer, delivers) := writer.close
    let state := { state with writer := some writer }
    if delivers then state.onCommit.settleLookahead true else state
  | none => state

/-- `finish` from `diagnostics.terminal` to its next suspension. -/
def conclude (barrier : Barrier α) : StreamExecution α :=
  let state := { state with
    terminals := state.terminals ++ [barrier.result]
    barrier := some { barrier with stage := .cancelling } }
  match barrier.writerMode, barrier.result with
  | .abort, .failure error => state.abortWriter (some (input.presentPostCommitFailure error))
  | .abort, .success _ => state.abortWriter none
  | .close, _ => state

/-- `finish` up to its suspension. -/
def finish (terminalCause : StreamExecutionTerminalCause) (result : StreamOutcome α)
    (writerMode : WriterMode) (fromProducer : Bool) : StreamExecution α :=
  if state.barrier.isSome then state
  else
    let state := { state with cause := some terminalCause, state := .terminating }
    let barrier : Barrier α := ⟨terminalCause, result, writerMode, fromProducer, .finalizing⟩
    match terminalCause, result with
    | .semanticSuccess, .success value =>
      { state with
        barrier := some barrier
        finalizations :=
          if input.finalizes then state.finalizations ++ [value] else state.finalizations }
    | _, _ => state.conclude input barrier

/-- `finish` goes on after `finalizeSuccess`. -/
def finalize (outcome : Except StreamError Unit) : Option (StreamExecution α) :=
  match state.barrier with
  | some barrier =>
    if barrier.stage = .finalizing then
      match outcome with
      | .ok () => some ({ state with finalized := some (.ok ()) }.conclude input barrier)
      | .error error =>
        if input.finalizes then
          let committed := (state.writer.map (·.committed)).getD false
          some ({ state with
            finalized := some (.error error)
            cause := some (if committed then .postcommitFailure else .precommitFailure) }.conclude
              input
              { barrier with
                result := .failure (input.normalizeFailure error)
                writerMode := .abort })
        else none
    else none
  | none => none

/-- `finish` has only the settlement of the delivery left to wait for. -/
def awaitSettlement (barrier : Barrier α) : StreamExecution α :=
  let state := { state with barrier := some { barrier with stage := .settling } }
  let state := if barrier.writerMode = .close then state.closeWriter else state
  if state.deliveryAdapterClaimed then state else state.settleDelivery

/-- `finish` goes on after `iterator.return`. -/
def afterReturn (barrier : Barrier α) : StreamExecution α :=
  if !barrier.fromProducer && state.producer ≠ .unset then
    { state with barrier := some { barrier with stage := .joining } }
  else state.awaitSettlement barrier

/-- A cleanup of `finish` begins or ends. -/
def cleanUp : Option (StreamExecution α) :=
  match state.barrier with
  | some barrier =>
    match barrier.stage with
    | .cancelling =>
      some { state with
        upstreamCancels := state.upstreamCancels + 1
        barrier := some { barrier with stage := .cancelled } }
    | .cancelled =>
      if input.canReturn then
        some { state with barrier := some { barrier with stage := .returning } }
      else some (state.afterReturn barrier)
    | .returning => some (state.afterReturn barrier)
    | .joining => some (state.awaitSettlement barrier)
    | _ => none
  | none => none

/-- `finish` goes on after the settlement of the delivery, and completes. -/
def complete : Option (StreamExecution α) :=
  match state.barrier with
  | some barrier =>
    if barrier.stage = .settling && state.deliverySettled then
      some { state.finalizeDelivery with
        listening := false
        state := .completed
        barrier := some { barrier with stage := .done } }
    else none
  | none => none

def signalCause : StreamExecutionTerminalCause :=
  match state.signal with
  | some (.gateway failure) =>
    if failure.kind = .upstreamTimeout then .totalTimeout else .requestAbort
  | _ => .requestAbort

def failureCause (error : StreamError) (committed : Bool) : StreamExecutionTerminalCause :=
  match error with
  | .gateway failure =>
    if failure.kind = .upstreamTimeout then
      if state.signal.isSome then state.signalCause
      else if committed then .idleTimeout else .firstByteTimeout
    else if committed then .postcommitFailure else .precommitFailure
  | .other _ => if committed then .postcommitFailure else .precommitFailure

def abortFailure : StreamError := .gateway (failureFromSignal state.signal)

def onRequestAbort : StreamExecution α :=
  state.finish input state.signalCause (.failure state.abortFailure) .abort false

def onDeliveryAbort : StreamExecution α :=
  state.finish input .clientCancel (.failure streamAborted) .abort false

/-- The owner up to its first suspension. -/
def start (signal : Option SignalReason) (deliverySignal : Bool) : StreamExecution α :=
  let state : StreamExecution α :=
    { signal, deliverySignal, listening := true, stage := .awaitingFirst, state := .precommit
      cause := none, barrier := none, writer := none, producer := .unset
      deliveryAdapterClaimed := false, deliveryFinalized := false, deliverySettled := false
      firstDelivered := false, cancellation := false, finalizerRuns := 0, terminals := []
      finalizations := [], finalized := none, upstreamCancels := 0 }
  if signal.isSome then
    { state.onRequestAbort input with stage := .failing state.abortFailure }
  else if deliverySignal then
    { state.onDeliveryAbort input with stage := .failing streamAborted }
  else state

/-- `enqueue` of the producer up to its suspension. -/
def enqueue (chunk : List UInt8) (first : Bool) : StreamExecution α :=
  match state.writer with
  | some writer =>
    let (writer, result) := writer.enqueue chunk
    let state := { state with writer := some writer }
    match result with
    | .refused => { state with producer := .resumed first false }
    | .delivered => { state.onCommit with producer := .resumed first true }
    | .held => { state with producer := .held first }
    | .blocked => { state with producer := .blocked chunk first }
  | none => state

/-- The wait of the owner for the first emission fails. -/
def failFirst (error : StreamError) : StreamExecution α :=
  let failure := input.normalizeFailure error
  { state.finish input (state.failureCause failure false) (.failure failure) .abort false with
    stage := .failing failure }

def first (emission : NextEmission α) : Option (StreamExecution α) :=
  if state.stage = .awaitingFirst then
    match emission with
    | .wire bytes =>
      some ({ state with writer := some .new, stage := .returned }.enqueue bytes true)
    | .terminal _ _ | .done => some (state.failFirst input streamTruncated)
    | .failed error => some (state.failFirst input error)
  else none

/-- The owner throws once the execution has completed. -/
def throwFailure : Option (StreamExecution α) :=
  match state.stage with
  | .failing error =>
    if state.state = .completed then some { state with stage := .threw error } else none
  | _ => none

/-- The continuation of the producer that is due. -/
def resume : Option (StreamExecution α) :=
  match state.producer with
  | .blocked chunk first => some (state.enqueue chunk first)
  | .resumed _ false => some { state with producer := .done }
  | .resumed true true => some { state with producer := .awaitingDelivery }
  | .resumed false true => some { state with producer := .pulling }
  | .awaitingDelivery =>
    if state.firstDelivered then
      some { state with producer := if state.barrier.isSome then .done else .pulling }
    else none
  | _ => none

/-- The `catch` of the producer. -/
def failProducer (error : StreamError) : StreamExecution α :=
  let failure := input.normalizeFailure error
  let committed := (state.writer.map (·.committed)).getD false
  { state.finish input (state.failureCause failure committed) (.failure failure) .abort true with
    producer := .finishing }

def next (emission : NextEmission α) : Option (StreamExecution α) :=
  if state.producer = .pulling then
    match emission with
    | .wire bytes => some (state.enqueue bytes false)
    | .terminal outcome writerMode =>
      let cause := match outcome with
        | .success _ => .semanticSuccess
        | .failure _ => .postcommitFailure
      some { state.finish input cause outcome writerMode true with producer := .finishing }
    | .done => some (state.failProducer input streamTruncated)
    | .failed error => some (state.failProducer input error)
  else none

/-- The body of the returned response can still be read. -/
def readable : Bool :=
  decide (state.stage = .returned) && decide (state.writer.bind (·.ended) = none)

def pull : Option (StreamExecution α) :=
  match state.writer with
  | some writer =>
    if state.readable then
      let (writer, delivers) := writer.pull
      let state := { state with writer := some writer }
      some (if delivers then state.onCommit.settleLookahead true else state)
    else none
  | none => none

def cancelBody : Option (StreamExecution α) :=
  match state.writer with
  | some writer =>
    if state.readable then
      some ({ state with writer := some writer.cancel, cancellation := true }.settleLookahead false)
    else none
  | none => none

/-- `onCancel` of the writer. -/
def onCancel : Option (StreamExecution α) :=
  if state.cancellation then
    let state := { state with cancellation := false }
    let state := if state.deliveryAdapterClaimed then state else state.settleDelivery
    some (state.finish input .clientCancel (.failure streamAborted) .abort false)
  else none

/-- `claimDeliveryAdapter`; a second claim throws. -/
def claim : Option (StreamExecution α) :=
  if state.stage = .returned && !state.deliveryAdapterClaimed then
    let state := { state with deliveryAdapterClaimed := true }
    some <|
      match state.state with
      | .terminating => state.settleDelivery
      | .completed => state.finalizeDelivery
      | _ => state
  else none

/-- `abort` of the handle. -/
def abort (cause : StreamExecutionTerminalCause) : Option (StreamExecution α) :=
  if state.stage = .returned then
    let kind := if cause = .totalTimeout then .upstreamTimeout else .aborted
    some (state.finish input cause (.failure (.gateway ⟨kind, some .gateway, some .stream⟩)) .abort
      false)
  else none

end StreamExecution

inductive StreamExecutionStep (α : Type)
  | requestAbort (reason : SignalReason)
  | deliveryAbort
  | first (emission : NextEmission α)
  | throwFailure
  | resume
  | next (emission : NextEmission α)
  | pull
  | cancelBody
  | onCancel
  | claim
  | markDelivered
  | settle
  | shutdown
  | abortRequest
  | abortTotalTimeout
  | finalize (outcome : Except StreamError Unit)
  | cleanUp
  | complete

def streamExecution {α : Type} (input : StreamExecutionInput) :
    Concurrent (StreamExecution α) (StreamExecutionStep α) where
  step state
    | .requestAbort reason =>
      if state.signal.isSome then none
      else
        let state := { state with signal := some reason }
        some (if state.listening then state.onRequestAbort input else state)
    | .deliveryAbort =>
      if state.deliverySignal then none
      else
        let state := { state with deliverySignal := true }
        some (if state.listening then state.onDeliveryAbort input else state)
    | .first emission => state.first input emission
    | .throwFailure => state.throwFailure
    | .resume => state.resume
    | .next emission => state.next input emission
    | .pull => state.pull
    | .cancelBody => state.cancelBody
    | .onCancel => state.onCancel input
    | .claim => state.claim
    | .markDelivered => if state.deliveryAdapterClaimed then some state.markDelivered else none
    | .settle => if state.deliveryAdapterClaimed then some state.settleDelivery else none
    | .shutdown => state.abort input .shutdown
    | .abortRequest => state.abort input .requestAbort
    | .abortTotalTimeout => state.abort input .totalTimeout
    | .finalize outcome => state.finalize input outcome
    | .cleanUp => state.cleanUp input
    | .complete => state.complete

end GhcGateway.Gateway
