/-
# The limits of a subscriber's queue

The counters of a subscriber are those of its queue and its buffered replay, and these
together stay within the limits on their number and their bytes, whatever is enqueued,
discarded, buffered or sent.
-/

import GhcGateway.Admin.EventStream

namespace GhcGateway.Admin

open Library EventStream

variable {stream : EventStream}

/-- A queued frame carries the id of its event, and an event is counted. -/
structure QueuedFrame.Sound (pending : QueuedFrame) : Prop where
  eventId : pending.eventId = pending.frame.event?.map AdminOperationalEvent.eventId
  counted : pending.eventId ≠ none → pending.counted = true
  notReset : pending.frame.isReset = false

def countedFrames (queue : List QueuedFrame) : List Frame :=
  (queue.filter QueuedFrame.counted).map QueuedFrame.frame

/-- The counters are right, and within the limits. -/
structure Subscriber.Counted (subscriber : Subscriber) : Prop where
  sound : ∀ pending ∈ subscriber.queue, pending.Sound
  events : subscriber.queuedEvents = (countedFrames subscriber.queue).length
  bytes : subscriber.queuedBytes = totalBytes (countedFrames subscriber.queue)
  replayBytes : subscriber.replayBytes = totalBytes subscriber.replay
  eventCap : subscriber.queuedEvents + subscriber.replay.length ≤ eventQueueCap
  byteCap : subscriber.queuedBytes + subscriber.replayBytes ≤ eventQueueBytes

theorem totalBytes_append (frames more : List Frame) :
    totalBytes (frames ++ more) = totalBytes frames + totalBytes more := by
  rw [totalBytes, List.map_append, List.sum_append, totalBytes, totalBytes]

theorem totalBytes_cons (frame : Frame) (frames : List Frame) :
    totalBytes (frame :: frames) = frame.byteLength + totalBytes frames := by
  rw [totalBytes, List.map_cons, List.sum_cons, totalBytes]

theorem countedFrames_append (queue more : List QueuedFrame) :
    countedFrames (queue ++ more) = countedFrames queue ++ countedFrames more := by
  rw [countedFrames, List.filter_append, List.map_append, countedFrames, countedFrames]

namespace Subscriber

variable {subscriber : Subscriber} {frame : Frame}

theorem counted_start (lastEventId : Option Nat) : (start lastEventId).Counted where
  sound := fun _ member => nomatch member
  events := rfl
  bytes := rfl
  replayBytes := rfl
  eventCap := Nat.zero_le _
  byteCap := Nat.zero_le _

theorem Counted.close (counted : subscriber.Counted) : subscriber.close.Counted := by
  rw [Subscriber.close]
  by_cases closed : subscriber.closed = true
  · rw [if_pos closed]
    exact counted
  · rw [if_neg closed]
    exact {
      sound := fun _ member => nomatch member
      events := rfl
      bytes := rfl
      replayBytes := rfl
      eventCap := Nat.zero_le _
      byteCap := Nat.zero_le _ }

theorem closed_close : subscriber.close.closed = true := by
  rw [Subscriber.close]
  by_cases closed : subscriber.closed = true
  · rw [if_pos closed]
    exact closed
  · rw [if_neg closed]

theorem Counted.enqueue (counted : subscriber.Counted) {eventId : Option Nat}
    (isId : eventId = frame.event?.map AdminOperationalEvent.eventId)
    (notReset : frame.isReset = false) : (subscriber.enqueue frame eventId).Counted := by
  rw [Subscriber.enqueue]
  by_cases closed : subscriber.closed = true
  · rw [if_pos closed]
    exact counted
  rw [if_neg closed]
  split
  case isTrue => exact counted.close
  case isFalse fits =>
    have new : countedFrames [⟨frame, true, eventId⟩] = [frame] := rfl
    have events := counted.events
    have bytes := counted.bytes
    exact { counted with
      sound := fun pending member => by
        rcases List.mem_append.mp member with old | isNew
        · exact counted.sound pending old
        · rw [List.mem_singleton.mp isNew]
          exact ⟨isId, fun _ => rfl, notReset⟩
      events := by
        show subscriber.queuedEvents + 1 = (countedFrames (subscriber.queue ++ [_])).length
        rw [countedFrames_append, new, List.length_append, ← events, List.length_singleton]
      bytes := by
        show subscriber.queuedBytes + frame.byteLength =
          totalBytes (countedFrames (subscriber.queue ++ [_]))
        rw [countedFrames_append, new, totalBytes_append, ← bytes, totalBytes_cons]
        rfl
      eventCap := by
        show subscriber.queuedEvents + 1 + subscriber.replay.length ≤ eventQueueCap
        omega
      byteCap := by
        show subscriber.queuedBytes + frame.byteLength + subscriber.replayBytes ≤ eventQueueBytes
        omega }

theorem Counted.enqueueHeartbeat (counted : subscriber.Counted) :
    subscriber.enqueueHeartbeat.Counted := by
  rw [Subscriber.enqueueHeartbeat]
  split
  case isTrue => exact counted
  case isFalse =>
    split
    case isTrue => exact counted
    case isFalse =>
      have noFrames : countedFrames [⟨.keepAlive, false, none⟩] = [] := rfl
      have same : countedFrames (subscriber.queue ++ [⟨.keepAlive, false, none⟩]) =
          countedFrames subscriber.queue := by
        rw [countedFrames_append, noFrames, List.append_nil]
      exact { counted with
        sound := fun pending member => by
          rcases List.mem_append.mp member with old | isNew
          · exact counted.sound pending old
          · rw [List.mem_singleton.mp isNew]
            exact ⟨rfl, fun some => absurd rfl some, rfl⟩
        events := counted.events.trans (congrArg List.length same.symm)
        bytes := counted.bytes.trans (congrArg totalBytes same.symm)
        byteCap := counted.byteCap }

theorem Counted.publishOperational (counted : subscriber.Counted) (event : AdminOperationalEvent) :
    (subscriber.publishOperational event).Counted := by
  rw [Subscriber.publishOperational]
  split
  case isTrue => exact counted
  case isFalse =>
    have noted : ({ subscriber with latestLiveEventId := some event.eventId } :
        Subscriber).Counted := { counted with }
    exact noted.enqueue rfl rfl

/-- What a discarded part of a queue was, counted and measured. -/
theorem countedFrames_discard (through : Nat) (queue : List QueuedFrame) :
    (countedFrames queue).length =
        (queue.filter fun pending => isReplayed through pending && pending.counted).length +
          (countedFrames (queue.filter fun pending => !isReplayed through pending)).length ∧
      totalBytes (countedFrames queue) =
        totalBytes ((queue.filter fun pending =>
            isReplayed through pending && pending.counted).map QueuedFrame.frame) +
          totalBytes (countedFrames (queue.filter fun pending => !isReplayed through pending)) := by
  induction queue with
  | nil => exact ⟨rfl, rfl⟩
  | cons pending queue ih =>
    obtain ⟨lengths, sizes⟩ := ih
    rw [countedFrames] at lengths sizes ⊢
    rw [countedFrames] at lengths sizes ⊢
    cases replayed : isReplayed through pending with
    | true =>
      cases isCounted : pending.counted with
      | true =>
        simp only [List.filter_cons, replayed, isCounted, Bool.and_self, Bool.not_true,
          Bool.false_eq_true, ↓reduceIte, List.map_cons, List.length_cons, totalBytes_cons]
        omega
      | false =>
        simp only [List.filter_cons, replayed, isCounted, Bool.and_false, Bool.not_true,
          Bool.false_eq_true, ↓reduceIte]
        exact ⟨lengths, sizes⟩
    | false =>
      cases isCounted : pending.counted with
      | true =>
        simp only [List.filter_cons, replayed, isCounted, Bool.false_and, Bool.not_false,
          Bool.false_eq_true, ↓reduceIte, List.map_cons, List.length_cons, totalBytes_cons]
        omega
      | false =>
        simp only [List.filter_cons, replayed, isCounted, Bool.false_and, Bool.not_false,
          Bool.false_eq_true, ↓reduceIte]
        exact ⟨lengths, sizes⟩

section

variable (counted : subscriber.Counted)

include counted

theorem Counted.discardReplayedLiveEvents : subscriber.discardReplayedLiveEvents.Counted := by
  rw [Subscriber.discardReplayedLiveEvents]
  split
  case h_1 => exact counted
  case h_2 through _ =>
    obtain ⟨lengths, sizes⟩ := countedFrames_discard through subscriber.queue
    have events := counted.events
    have bytes := counted.bytes
    have eventCap := counted.eventCap
    have byteCap := counted.byteCap
    exact { counted with
      sound := fun pending member => counted.sound pending (List.mem_of_mem_filter member)
      events := by
        show subscriber.queuedEvents - _ = _
        rw [events, lengths]
        exact Nat.add_sub_cancel_left _ _
      bytes := by
        show subscriber.queuedBytes - _ = _
        rw [bytes, sizes]
        exact Nat.add_sub_cancel_left _ _
      eventCap := (Nat.add_le_add_right (Nat.sub_le _ _) _).trans eventCap
      byteCap := (Nat.add_le_add_right (Nat.sub_le _ _) _).trans byteCap }

/-- The head of the buffered replay is taken. -/
theorem Counted.shiftReplay {rest : List Frame} (isReplay : subscriber.replay = frame :: rest) :
    ({ subscriber with
      replay := rest
      replayBytes := subscriber.replayBytes - frame.byteLength } : Subscriber).Counted := by
  have replayBytes := counted.replayBytes
  have eventCap := counted.eventCap
  have byteCap := counted.byteCap
  rw [isReplay, List.length_cons] at eventCap
  rw [isReplay, totalBytes_cons] at replayBytes
  exact { counted with
    replayBytes := by
      show subscriber.replayBytes - frame.byteLength = totalBytes rest
      omega
    eventCap := by
      show subscriber.queuedEvents + rest.length ≤ eventQueueCap
      omega
    byteCap := by
      show subscriber.queuedBytes + (subscriber.replayBytes - frame.byteLength) ≤ eventQueueBytes
      omega }

theorem Counted.nextInitialFrame : subscriber.nextInitialFrame.1.Counted := by
  rw [Subscriber.nextInitialFrame]
  split
  case h_1 isReplay => exact counted.shiftReplay isReplay
  case h_2 =>
    split
    case h_1 => exact { counted with }
    case h_2 =>
      split
      case isTrue => exact counted
      case isFalse =>
        split
        · exact counted
        · exact counted

theorem Counted.resetReplay (latestEventId : Option Nat) :
    (subscriber.resetReplay latestEventId).1.Counted := by
  have reset : ({ subscriber with
      replayDone := true, initialFrame := some (.reset latestEventId) } : Subscriber).Counted :=
    { counted with }
  have next := reset.nextInitialFrame
  rw [Subscriber.resetReplay]
  split
  case h_1 isNext => rw [isNext] at next; exact next
  case h_2 isNext => rw [isNext] at next; exact next

theorem Counted.bufferReplay (items : List AdminOperationalEvent) :
    (subscriber.bufferReplay items).1.Counted := by
  rw [Subscriber.bufferReplay]
  dsimp only
  split
  case isTrue => exact counted.close
  case isFalse fits =>
    rw [not_or, Nat.not_lt, Nat.not_lt] at fits
    have buffered (cursor : Option Nat) (done : Bool) : ({ subscriber with
        replay := items.map Frame.operational
        replayBytes := totalBytes (items.map Frame.operational)
        replayCursor := cursor
        replayDone := done } : Subscriber).Counted :=
      { counted with replayBytes := rfl, eventCap := fits.1, byteCap := fits.2 }
    split
    case h_1 noFrames =>
      have whole := buffered
        ((items.getLast?.map AdminOperationalEvent.eventId).or subscriber.replayCursor)
        (subscriber.replayDone || subscriber.isLastBatch items.getLast?)
      rw [noFrames] at whole
      rw [noFrames]
      exact whole
    case h_2 isReplay => exact (buffered _ _).shiftReplay isReplay

theorem Counted.startReplay (latestEventId : Option Nat) :
    (subscriber.startReplay latestEventId).Counted := by
  have first (through : Option Nat) : ({ subscriber with
      replayStarted := true, replayThrough := through } : Subscriber).Counted := { counted with }
  exact (first _).discardReplayedLiveEvents

theorem Counted.continueReplay (replay : AdminEventReplay) :
    (subscriber.continueReplay replay).1.Counted := by
  have started : (if subscriber.replayStarted = true then subscriber
      else subscriber.startReplay replay.latestEventId).Counted := by
    split
    · exact counted
    · exact counted.startReplay _
  rw [Subscriber.continueReplay]
  split
  · exact started.bufferReplay _
  · exact started.resetReplay _

end

end Subscriber

/-! ## The stream -/

theorem EventStream.counted_shiftQueue (counted : stream.subscriber.Counted) :
    stream.shiftQueue.subscriber.Counted := by
  rw [shiftQueue]
  split
  case h_1 => exact counted
  case h_2 pending rest isQueue =>
    have sound := counted.sound
    have events := counted.events
    have bytes := counted.bytes
    have eventCap := counted.eventCap
    have byteCap := counted.byteCap
    rw [isQueue] at sound events bytes
    cases isCounted : pending.counted with
    | true =>
      have split : countedFrames (pending :: rest) = pending.frame :: countedFrames rest := by
        rw [countedFrames, List.filter_cons_of_pos isCounted, List.map_cons, countedFrames]
      rw [split, List.length_cons] at events
      rw [split, totalBytes_cons] at bytes
      exact { counted with
        sound := fun other member => sound other (List.mem_cons_of_mem pending member)
        events := by
          show stream.subscriber.queuedEvents - 1 = (countedFrames rest).length
          omega
        bytes := by
          show stream.subscriber.queuedBytes - pending.frame.byteLength =
            totalBytes (countedFrames rest)
          omega
        eventCap := (Nat.add_le_add_right (Nat.sub_le _ _) _).trans eventCap
        byteCap := (Nat.add_le_add_right (Nat.sub_le _ _) _).trans byteCap }
    | false =>
      have same : countedFrames (pending :: rest) = countedFrames rest := by
        rw [countedFrames, List.filter_cons_of_neg (by rw [isCounted]; nofun), countedFrames]
      rw [same] at events bytes
      exact { counted with
        sound := fun other member => sound other (List.mem_cons_of_mem pending member)
        events := events
        bytes := bytes
        eventCap := eventCap
        byteCap := byteCap }

theorem EventStream.counted_sendNext (counted : stream.subscriber.Counted)
    (status : Option JsString) : (stream.sendNext status).subscriber.Counted := by
  have performed : ({ stream.subscriber with performancePending := false } : Subscriber).Counted :=
    { counted with }
  rw [sendNext]
  split
  · cases status with
    | some status => exact performed
    | none => exact performed.close
  · split
    · exact counted
    · exact counted_shiftQueue counted

/-- Every step keeps the counters right and within the limits. -/
theorem counted_step {next : EventStream} {label : EventStep} (counted : stream.subscriber.Counted)
    (stepped : eventStream.step stream label = some next) : next.subscriber.Counted := by
  have stepped : stream.step label = some next := stepped
  cases label with
  | commit event =>
    rw [step] at stepped
    split at stepped
    · cases stepped
      exact counted
    · cases stepped
  | remove =>
    rw [step] at stepped
    split at stepped
    · cases stepped
    · cases stepped
      exact counted
  | publish =>
    rw [step] at stepped
    split at stepped
    · cases stepped
    · cases stepped
      show (if stream.subscriber.closed = true then _ else _ : Subscriber).Counted
      split
      · exact counted
      · exact counted.publishOperational _
  | publishPerformance status =>
    cases stepped
    exact counted.enqueue rfl rfl
  | heartbeat =>
    cases stepped
    exact counted.enqueueHeartbeat
  | abort =>
    cases stepped
    exact counted.close
  | pull =>
    rw [step] at stepped
    split at stepped
    · cases stepped
      have next := counted.nextInitialFrame
      rw [startPull]
      split
      · exact counted
      · split
        case h_1 isNext => rw [isNext] at next; exact next
        case h_2 isNext => rw [isNext] at next; exact next
    · cases stepped
  | read =>
    rw [step] at stepped
    split at stepped
    · cases stepped
      exact counted
    · cases stepped
  | readFails =>
    rw [step] at stepped
    split at stepped
    · cases stepped
      exact counted.close
    · cases stepped
  | continueReplay =>
    rw [step] at stepped
    split at stepped
    case h_1 replay _ =>
      cases stepped
      rw [continueReplay]
      split
      · exact counted
      · exact counted.continueReplay replay
    case h_2 => cases stepped
  | resumePull status =>
    rw [step] at stepped
    split at stepped
    case h_1 frame _ =>
      cases stepped
      unfold resumePull
      split
      · exact counted
      · split
        · exact counted
        · exact counted_sendNext counted status
    case h_2 => cases stepped
  | wake =>
    rw [step] at stepped
    split at stepped
    · cases stepped
      split
      · exact counted
      · exact counted_shiftQueue counted
    · cases stepped

end GhcGateway.Admin
