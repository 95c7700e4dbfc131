/-
# The stream of admin events

`AdminEventStreamHub` gives a subscriber the operational events after the one it saw last:
first those the database still has, read in batches, and then the live ones, which are queued
while the history is read. A history that can no longer be continued is answered with a reset
frame.

The model follows one subscriber. The recorder commits events and removes the oldest rows, and
what it has committed is published in its order; the pull of the response body is suspended
where the source awaits. A label says what happens next, so that every interleaving is a
schedule. A frame stands for its bytes.
-/

import GhcGateway.Library.AscendingLog
import GhcGateway.Library.Schedule
import GhcGateway.Serialization.Text

namespace GhcGateway.Admin

open Library

def eventQueueCap : Nat := 128

def eventQueueBytes : Nat := 1048576

def eventReplayBatchSize : Nat := 32

/-- `AdminOperationalEvent`: its id and its JSON. -/
structure AdminOperationalEvent where
  eventId : Nat
  json : JsString
  deriving DecidableEq

/-! ## Frames -/

inductive Frame
  | operational (event : AdminOperationalEvent)
  | performance (status : JsString)
  | reset (latestEventId : Option Nat)
  | keepAlive
  deriving DecidableEq

/-- `operationalFrame`, `performanceFrame`, `resetFrame` and the heartbeat. -/
def Frame.text : Frame → JsString
  | operational event =>
    js "id: " ++ js (toString event.eventId) ++
      js "\nevent: operational\ndata: \x7b\"kind\":\"operational\",\"event\":" ++ event.json ++
      js "\x7d\n\n"
  | performance status =>
    js "event: performance\ndata: \x7b\"kind\":\"performance\",\"status\":" ++ status ++
      js "\x7d\n\n"
  | reset latestEventId =>
    js "event: reset\ndata: \x7b\"kind\":\"reset\",\"reason\":\"history_unavailable\"," ++
      js "\"latestEventId\":" ++
      (match latestEventId with
        | none => js "null"
        | some eventId => js "\"" ++ js (toString eventId) ++ js "\"") ++
      js "\x7d\n\n"
  | keepAlive => js ": keep-alive\n\n"

def Frame.byteLength (frame : Frame) : Nat := (encodeUtf8 frame.text).length

def Frame.event? : Frame → Option AdminOperationalEvent
  | operational event => some event
  | _ => none

def Frame.isReset : Frame → Bool
  | reset _ => true
  | _ => false

/-- The operational events among some frames. -/
def operationalEvents (frames : List Frame) : List AdminOperationalEvent :=
  frames.filterMap Frame.event?

/-! ## The history -/

structure AdminEventReplay where
  found : Bool
  latestEventId : Option Nat
  items : List AdminOperationalEvent
  deriving DecidableEq

def latestEventId (rows : List AdminOperationalEvent) : Option Nat :=
  (rows.map AdminOperationalEvent.eventId).max?

/-- `replayEvents`. The rows are in the order of their ids. -/
def replayEvents (rows : List AdminOperationalEvent) (afterEventId : Nat) : AdminEventReplay :=
  if rows.any fun row => row.eventId = afterEventId then
    ⟨true, latestEventId rows,
      (above AdminOperationalEvent.eventId rows afterEventId).take eventReplayBatchSize⟩
  else ⟨false, latestEventId rows, []⟩

/-! ## The subscriber -/

/-- An element of `queue`. -/
structure QueuedFrame where
  frame : Frame
  counted : Bool
  eventId : Option Nat
  deriving DecidableEq

/-- `Subscriber`, without its signals, its timer and the promise it waits for. -/
structure Subscriber where
  queue : List QueuedFrame
  replay : List Frame
  replayBytes : Nat
  replayCursor : Option Nat
  replayThrough : Option Nat
  replayStarted : Bool
  replayDone : Bool
  initialFrame : Option Frame
  performancePending : Bool
  queuedBytes : Nat
  queuedEvents : Nat
  latestLiveEventId : Option Nat
  closed : Bool
  deriving DecidableEq

def totalBytes (frames : List Frame) : Nat := (frames.map Frame.byteLength).sum

namespace Subscriber

/-- A subscriber as `open` makes it. -/
def start (lastEventId : Option Nat) : Subscriber where
  queue := []
  replay := []
  replayBytes := 0
  replayCursor := lastEventId
  replayThrough := none
  replayStarted := false
  replayDone := lastEventId.isNone
  initialFrame := none
  performancePending := true
  queuedBytes := 0
  queuedEvents := 0
  latestLiveEventId := none
  closed := false

def close (subscriber : Subscriber) : Subscriber :=
  if subscriber.closed then subscriber
  else
    { subscriber with
      closed := true, queue := [], replay := [], replayBytes := 0, queuedBytes := 0
      queuedEvents := 0 }

/-- `enqueue` of a frame that is counted. -/
def enqueue (subscriber : Subscriber) (frame : Frame) (eventId : Option Nat) : Subscriber :=
  if subscriber.closed then subscriber
  else if eventQueueCap ≤ subscriber.queuedEvents + subscriber.replay.length ∨
      eventQueueBytes < subscriber.queuedBytes + subscriber.replayBytes + frame.byteLength then
    subscriber.close
  else
    { subscriber with
      queue := subscriber.queue ++ [⟨frame, true, eventId⟩]
      queuedEvents := subscriber.queuedEvents + 1
      queuedBytes := subscriber.queuedBytes + frame.byteLength }

/-- `enqueue` of a heartbeat, which is not counted. -/
def enqueueHeartbeat (subscriber : Subscriber) : Subscriber :=
  if subscriber.closed then subscriber
  else if subscriber.queue ≠ [] ∨ subscriber.replay ≠ [] ∨ subscriber.performancePending then
    subscriber
  else { subscriber with queue := subscriber.queue ++ [⟨.keepAlive, false, none⟩] }

/-- Whether an event was replayed, or will be, or was published before. -/
def skips (subscriber : Subscriber) (eventId : Nat) : Bool :=
  subscriber.replayThrough.any (eventId ≤ ·) || subscriber.latestLiveEventId.any (eventId ≤ ·)

/-- `publish` of an operational event, for a subscriber of the set. -/
def publishOperational (subscriber : Subscriber) (event : AdminOperationalEvent) : Subscriber :=
  if subscriber.skips event.eventId then subscriber
  else
    { subscriber with latestLiveEventId := some event.eventId }.enqueue (.operational event)
      (some event.eventId)

/-- Whether a queued frame is about an event that is replayed. -/
def isReplayed (through : Nat) (pending : QueuedFrame) : Bool :=
  pending.eventId.any (· ≤ through)

def discardReplayedLiveEvents (subscriber : Subscriber) : Subscriber :=
  match subscriber.replayThrough with
  | none => subscriber
  | some through =>
    let discarded := subscriber.queue.filter fun pending =>
      isReplayed through pending && pending.counted
    { subscriber with
      queue := subscriber.queue.filter fun pending => !isReplayed through pending
      queuedEvents := subscriber.queuedEvents - discarded.length
      queuedBytes := subscriber.queuedBytes - totalBytes (discarded.map QueuedFrame.frame) }

/-- `nextInitialFrame` up to its first suspension: the frame it returns, or where it reads the
history from. -/
def nextInitialFrame (subscriber : Subscriber) : Subscriber × (Option Frame ⊕ Nat) :=
  match subscriber.replay with
  | buffered :: rest =>
    ({ subscriber with replay := rest, replayBytes :=
      subscriber.replayBytes - buffered.byteLength },
      .inl (some buffered))
  | [] =>
    match subscriber.initialFrame with
    | some frame => ({ subscriber with initialFrame := none }, .inl (some frame))
    | none =>
      if subscriber.replayDone then (subscriber, .inl none)
      else
        match subscriber.replayCursor with
        | none => (subscriber, .inl none)
        | some cursor => (subscriber, .inr cursor)

/-- The history cannot be continued. -/
def resetReplay (subscriber : Subscriber) (latestEventId : Option Nat) :
    Subscriber × Option Frame :=
  let subscriber :=
    { subscriber with replayDone := true, initialFrame := some (.reset latestEventId) }
  match subscriber.nextInitialFrame with
  | (subscriber, .inl frame) => (subscriber, frame)
  | (subscriber, .inr _) => (subscriber, none)

/-- The events of a batch that are part of the replay. -/
def replayItems (subscriber : Subscriber) (items : List AdminOperationalEvent) :
    List AdminOperationalEvent :=
  match subscriber.replayThrough with
  | none => []
  | some through =>
    (items.take eventReplayBatchSize).filter fun event => event.eventId ≤ through

/-- Whether the replay is done with a batch that ends with an event. -/
def isLastBatch (subscriber : Subscriber) (last : Option AdminOperationalEvent) : Bool :=
  match last, subscriber.replayThrough with
  | some last, some through => through ≤ last.eventId
  | _, _ => true

/-- A batch of the history is buffered, and its first frame is taken. -/
def bufferReplay (subscriber : Subscriber) (items : List AdminOperationalEvent) :
    Subscriber × Option Frame :=
  let frames := items.map Frame.operational
  if eventQueueCap < subscriber.queuedEvents + frames.length ∨
      eventQueueBytes < subscriber.queuedBytes + totalBytes frames then (subscriber.close, none)
  else
    let subscriber := { subscriber with
      replayBytes := totalBytes frames
      replayCursor := (items.getLast?.map AdminOperationalEvent.eventId).or subscriber.replayCursor
      replayDone := subscriber.replayDone || subscriber.isLastBatch items.getLast? }
    match frames with
    | [] => ({ subscriber with replay := [] }, none)
    | frame :: rest =>
      ({ subscriber with replay := rest, replayBytes := subscriber.replayBytes - frame.byteLength },
        some frame)

/-- The first answer of the history fixes how far the replay goes. -/
def startReplay (subscriber : Subscriber) (latestEventId : Option Nat) : Subscriber :=
  { subscriber with
    replayStarted := true
    replayThrough := latestEventId.or subscriber.replayCursor }.discardReplayedLiveEvents

/-- `nextInitialFrame` from where the history has answered. -/
def continueReplay (subscriber : Subscriber) (replay : AdminEventReplay) :
    Subscriber × Option Frame :=
  let subscriber :=
    if subscriber.replayStarted then subscriber else subscriber.startReplay replay.latestEventId
  if replay.found then subscriber.bufferReplay (subscriber.replayItems replay.items)
  else subscriber.resetReplay replay.latestEventId

end Subscriber

/-! ## The stream -/

/-- Where a `pull` of the body is: none is running, the history is asked, it has answered,
`nextInitialFrame` has returned, the queue is empty, it was filled, and the stream has ended. -/
inductive Pull
  | idle
  | reading (cursor : Nat)
  | answered (replay : AdminEventReplay)
  | returned (frame : Option Frame)
  | waiting
  | woken
  | ended
  deriving DecidableEq

def Pull.wake : Pull → Pull
  | waiting => woken
  | other => other

/-- The recorder, one subscriber and what has been sent to it. `committed` is everything the
recorder ever committed, `rows` what the database still has, and `published` how many of the
committed events have been published. -/
structure EventStream where
  rows : List AdminOperationalEvent
  committed : List AdminOperationalEvent
  published : Nat
  subscriber : Subscriber
  pull : Pull
  delivered : List Frame

/-- What can happen next. `resumePull` carries the status for the performance frame, if it can
be had; `abort` is the caller's signal, the cancellation of the body or the hub's `close`. -/
inductive EventStep
  | commit (event : AdminOperationalEvent)
  | remove
  | publish
  | publishPerformance (status : JsString)
  | heartbeat
  | abort
  | pull
  | read
  | readFails
  | continueReplay
  | resumePull (status : Option JsString)
  | wake
  deriving DecidableEq

namespace EventStream

/-- A stream that was just opened. -/
def start (lastEventId : Option Nat) (rows committed : List AdminOperationalEvent)
    (published : Nat) : EventStream :=
  ⟨rows, committed, published, .start lastEventId, .idle, []⟩

/-- `controller.close()`. -/
def endPull (stream : EventStream) : EventStream := { stream with pull := .ended }

/-- `controller.enqueue`, with which the pull is over. -/
def deliver (stream : EventStream) (frame : Frame) : EventStream :=
  { stream with pull := .idle, delivered := stream.delivered ++ [frame] }

/-- The subscriber after something else than the pull: it is woken when it was enqueued to, or
closed. -/
def touch (stream : EventStream) (subscriber : Subscriber) : EventStream :=
  { stream with
    subscriber
    pull := if subscriber = stream.subscriber then stream.pull else stream.pull.wake }

/-- `closeSubscriber` from outside. -/
def closeSubscriber (stream : EventStream) : EventStream := stream.touch stream.subscriber.close

def shiftQueue (stream : EventStream) : EventStream :=
  match stream.subscriber.queue with
  | [] => { stream with pull := .idle }
  | pending :: rest =>
    { stream with
      subscriber := { stream.subscriber with
        queue := rest
        queuedEvents := if pending.counted then stream.subscriber.queuedEvents - 1
          else stream.subscriber.queuedEvents
        queuedBytes := if pending.counted then
            stream.subscriber.queuedBytes - pending.frame.byteLength
          else stream.subscriber.queuedBytes } }.deliver pending.frame

/-- `pull` from its start. -/
def startPull (stream : EventStream) : EventStream :=
  if stream.subscriber.closed then stream.endPull
  else
    match stream.subscriber.nextInitialFrame with
    | (subscriber, .inl frame) => { stream with subscriber, pull := .returned frame }
    | (subscriber, .inr cursor) => { stream with subscriber, pull := .reading cursor }

/-- `pull` once there is nothing to replay: the performance frame, and then the queue. -/
def sendNext (stream : EventStream) (status : Option JsString) : EventStream :=
  if stream.subscriber.performancePending then
    let subscriber := { stream.subscriber with performancePending := false }
    match status with
    | some status => { stream with subscriber }.deliver (.performance status)
    | none => { stream with subscriber := subscriber.close }.endPull
  else if stream.subscriber.queue = [] then { stream with pull := .waiting }
  else stream.shiftQueue

/-- `pull` from where `nextInitialFrame` has returned. -/
def resumePull (stream : EventStream) (frame : Option Frame) (status : Option JsString) :
    EventStream :=
  if stream.subscriber.closed then stream.endPull
  else
    match frame with
    | some frame => stream.deliver frame
    | none => stream.sendNext status

/-- `nextInitialFrame` from where the history has answered. -/
def continueReplay (stream : EventStream) (replay : AdminEventReplay) : EventStream :=
  if stream.subscriber.closed then stream.endPull
  else
    let (subscriber, frame) := stream.subscriber.continueReplay replay
    { stream with subscriber, pull := .returned frame }

def step (stream : EventStream) : EventStep → Option EventStream
  | .commit event =>
    if stream.committed.all fun older => older.eventId < event.eventId then
      some { stream with
        rows := stream.rows ++ [event], committed := stream.committed ++ [event] }
    else none
  | .remove =>
    match stream.rows with
    | [] => none
    | _ :: rows => some { stream with rows }
  | .publish =>
    match stream.committed[stream.published]? with
    | none => none
    | some event =>
      some ({ stream with published := stream.published + 1 }.touch
        (if stream.subscriber.closed then stream.subscriber
        else stream.subscriber.publishOperational event))
  | .publishPerformance status =>
    some (stream.touch (stream.subscriber.enqueue (.performance status) none))
  | .heartbeat => some (stream.touch stream.subscriber.enqueueHeartbeat)
  | .abort => some stream.closeSubscriber
  | .pull => if stream.pull = .idle then some stream.startPull else none
  | .read =>
    match stream.pull with
    | .reading cursor => some { stream with pull := .answered (replayEvents stream.rows cursor) }
    | _ => none
  | .readFails =>
    match stream.pull with
    | .reading _ => some { stream with subscriber := stream.subscriber.close }.endPull
    | _ => none
  | .continueReplay =>
    match stream.pull with
    | .answered replay => some (stream.continueReplay replay)
    | _ => none
  | .resumePull status =>
    match stream.pull with
    | .returned frame => some (stream.resumePull frame status)
    | _ => none
  | .wake =>
    match stream.pull with
    | .woken => some (if stream.subscriber.closed then stream.endPull else stream.shiftQueue)
    | _ => none

end EventStream

def eventStream : Concurrent EventStream EventStep := ⟨EventStream.step⟩

end GhcGateway.Admin
