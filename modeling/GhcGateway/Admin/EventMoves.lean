/-
# What happens beside the pull

While a pull is suspended the recorder commits, removes and publishes events, and frames are
enqueued. None of it changes what the pull knows: the log grows at its end, the oldest rows go,
and what is published is appended to the queue unless it is part of the replay.
-/

import GhcGateway.Admin.EventPhases

namespace GhcGateway.Admin

open Library Subscriber

variable {lastEventId opened : Nat} {stream next : EventStream}
  {event : AdminOperationalEvent} {through : Nat}

/-! ## What the recorder has done -/

namespace Subscriber

variable (subscriber : Subscriber)

theorem latestLive_close : subscriber.close.latestLiveEventId = subscriber.latestLiveEventId := by
  rw [close]
  split <;> rfl

theorem latestLive_enqueue (frame : Frame) (eventId : Option Nat) :
    (subscriber.enqueue frame eventId).latestLiveEventId = subscriber.latestLiveEventId := by
  rw [enqueue]
  split
  · rfl
  · split
    · exact latestLive_close subscriber
    · rfl

theorem latestLive_enqueueHeartbeat :
    subscriber.enqueueHeartbeat.latestLiveEventId = subscriber.latestLiveEventId := by
  rw [enqueueHeartbeat]
  split
  · rfl
  · split <;> rfl

theorem latestLive_nextInitialFrame :
    subscriber.nextInitialFrame.1.latestLiveEventId = subscriber.latestLiveEventId := by
  rw [nextInitialFrame]
  split
  · rfl
  · split
    · rfl
    · split
      · rfl
      · split <;> rfl

theorem latestLive_resetReplay (latest : Option Nat) :
    (subscriber.resetReplay latest).1.latestLiveEventId = subscriber.latestLiveEventId := by
  have same := latestLive_nextInitialFrame
    { subscriber with replayDone := true, initialFrame := some (.reset latest) }
  rw [resetReplay]
  split
  case h_1 isNext => rw [isNext] at same; exact same
  case h_2 isNext => rw [isNext] at same; exact same

theorem latestLive_bufferReplay (items : List AdminOperationalEvent) :
    (subscriber.bufferReplay items).1.latestLiveEventId = subscriber.latestLiveEventId := by
  rw [bufferReplay]
  dsimp only
  split
  · exact latestLive_close subscriber
  · split <;> rfl

theorem latestLive_discardReplayedLiveEvents :
    subscriber.discardReplayedLiveEvents.latestLiveEventId = subscriber.latestLiveEventId := by
  rw [discardReplayedLiveEvents]
  split <;> rfl

theorem latestLive_continueReplay (replay : AdminEventReplay) :
    (subscriber.continueReplay replay).1.latestLiveEventId = subscriber.latestLiveEventId := by
  have started : (if subscriber.replayStarted = true then subscriber
      else subscriber.startReplay replay.latestEventId).latestLiveEventId =
        subscriber.latestLiveEventId := by
    split
    · rfl
    · exact latestLive_discardReplayedLiveEvents _
  rw [continueReplay]
  split
  · rw [latestLive_bufferReplay, started]
  · rw [latestLive_resetReplay, started]

end Subscriber

theorem latestLive_shiftQueue : stream.shiftQueue.subscriber.latestLiveEventId =
    stream.subscriber.latestLiveEventId := by
  rw [EventStream.shiftQueue]
  split <;> rfl

/-- What a step leaves alone that is not one of the recorder's. -/
structure SameRecord (stream next : EventStream) : Prop where
  rows : next.rows = stream.rows
  committed : next.committed = stream.committed
  published : next.published = stream.published
  latest : next.subscriber.latestLiveEventId = stream.subscriber.latestLiveEventId

theorem SameRecord.recorded (same : SameRecord stream next) (recorded : stream.Recorded opened) :
    next.Recorded opened where
  ascending := same.committed ▸ recorded.ascending
  rows := by
    rw [same.rows, same.committed]
    exact recorded.rows
  published := by
    rw [same.published, same.committed]
    exact recorded.published
  opened := same.published ▸ recorded.opened
  latest := by
    rw [same.latest, same.published, same.committed]
    exact recorded.latest

theorem sameRecord_shiftQueue : SameRecord stream stream.shiftQueue where
  rows := by rw [EventStream.shiftQueue]; split <;> rfl
  committed := by rw [EventStream.shiftQueue]; split <;> rfl
  published := by rw [EventStream.shiftQueue]; split <;> rfl
  latest := latestLive_shiftQueue

theorem sameRecord_startPull : SameRecord stream stream.startPull := by
  have same := latestLive_nextInitialFrame stream.subscriber
  rw [EventStream.startPull]
  split
  · exact ⟨rfl, rfl, rfl, rfl⟩
  · split
    case h_1 isNext => rw [isNext] at same; exact ⟨rfl, rfl, rfl, same⟩
    case h_2 isNext => rw [isNext] at same; exact ⟨rfl, rfl, rfl, same⟩

theorem sameRecord_sendNext (status : Option JsString) :
    SameRecord stream (stream.sendNext status) := by
  rw [EventStream.sendNext]
  split
  · cases status with
    | some status => exact ⟨rfl, rfl, rfl, rfl⟩
    | none => exact ⟨rfl, rfl, rfl, latestLive_close _⟩
  · split
    · exact ⟨rfl, rfl, rfl, rfl⟩
    · exact sameRecord_shiftQueue

theorem sameRecord_resumePull (frame : Option Frame) (status : Option JsString) :
    SameRecord stream (stream.resumePull frame status) := by
  unfold EventStream.resumePull
  split
  · exact ⟨rfl, rfl, rfl, rfl⟩
  · split
    · exact ⟨rfl, rfl, rfl, rfl⟩
    · exact sameRecord_sendNext status

theorem sameRecord_continueReplay (replay : AdminEventReplay) :
    SameRecord stream (stream.continueReplay replay) := by
  rw [EventStream.continueReplay]
  split
  · exact ⟨rfl, rfl, rfl, rfl⟩
  · exact ⟨rfl, rfl, rfl, latestLive_continueReplay _ _⟩

/-- An event that is published is above all that were published before. -/
theorem EventStream.Recorded.published_lt (recorded : stream.Recorded opened)
    (isNext : stream.committed[stream.published]? = some event) :
    ∀ older ∈ stream.committed.take stream.published, older.eventId < event.eventId := by
  obtain ⟨within, isEvent⟩ := List.getElem?_eq_some_iff.mp isNext
  have split : stream.committed = stream.committed.take stream.published ++
      event :: stream.committed.drop (stream.published + 1) := by
    rw [← isEvent, ← List.drop_eq_getElem_cons, List.take_append_drop]
  have ascending := recorded.ascending
  rw [split] at ascending
  intro older isOlder
  exact (List.pairwise_append.mp ascending).2.2 older isOlder event List.mem_cons_self

theorem take_succ_of_getElem? {events : List AdminOperationalEvent} {count : Nat}
    (isNext : events[count]? = some event) :
    events.take (count + 1) = events.take count ++ [event] := by
  rw [List.take_add_one, isNext]
  rfl

theorem EventStream.Recorded.step {label : EventStep} (recorded : stream.Recorded opened)
    (stepped : eventStream.step stream label = some next) : next.Recorded opened := by
  have stepped : stream.step label = some next := stepped
  cases label with
  | commit event =>
    rw [EventStream.step] at stepped
    split at stepped
    case isTrue isNewest =>
      cases stepped
      have newest : ∀ older ∈ stream.committed, older.eventId < event.eventId :=
        fun older member => of_decide_eq_true (List.all_eq_true.mp isNewest older member)
      have published := recorded.published
      exact { recorded with
        ascending := by
          apply List.pairwise_append.mpr
          refine ⟨recorded.ascending, List.pairwise_singleton _ _,
            fun older isOlder newer isNewer => ?_⟩
          rw [List.mem_singleton.mp isNewer]
          exact newest older isOlder
        rows := by
          obtain ⟨lost, isLost⟩ := recorded.rows
          exact ⟨lost, by rw [← List.append_assoc, isLost]⟩
        published := by
          show stream.published ≤ (stream.committed ++ [event]).length
          rw [List.length_append]
          omega
        latest := by
          show ∀ latest, _ → ∃ newer ∈ (stream.committed ++ [event]).take stream.published, _
          rw [List.take_append_of_le_length published]
          exact recorded.latest }
    case isFalse => cases stepped
  | remove =>
    rw [EventStream.step] at stepped
    split at stepped
    case h_1 => cases stepped
    case h_2 oldest rows isRows =>
      cases stepped
      have isSuffix := recorded.rows
      rw [isRows] at isSuffix
      exact { recorded with rows := (List.suffix_cons oldest rows).trans isSuffix }
  | publish =>
    rw [EventStream.step] at stepped
    split at stepped
    case h_1 => cases stepped
    case h_2 event isNext =>
      cases stepped
      obtain ⟨within, -⟩ := List.getElem?_eq_some_iff.mp isNext
      exact { recorded with
        published := within
        opened := recorded.opened.trans (Nat.le_succ _)
        latest := by
          intro latest isLatest
          show ∃ newer ∈ stream.committed.take (stream.published + 1), _
          rw [take_succ_of_getElem? isNext]
          have isLatest : (if stream.subscriber.closed = true then stream.subscriber
              else stream.subscriber.publishOperational event).latestLiveEventId = some latest :=
            isLatest
          have earlier (isLatest : stream.subscriber.latestLiveEventId = some latest) :
              ∃ newer ∈ stream.committed.take stream.published ++ [event],
                newer.eventId = latest := by
            obtain ⟨older, member, same⟩ := recorded.latest latest isLatest
            exact ⟨older, List.mem_append_left _ member, same⟩
          split at isLatest
          · exact earlier isLatest
          · rw [Subscriber.publishOperational] at isLatest
            split at isLatest
            · exact earlier isLatest
            · rw [latestLive_enqueue] at isLatest
              exact ⟨event, List.mem_append_right _ (List.mem_singleton_self event),
                Option.some.inj isLatest⟩ }
  | publishPerformance status =>
    cases stepped
    have same : SameRecord stream
        (stream.touch (stream.subscriber.enqueue (.performance status) none)) :=
      ⟨rfl, rfl, rfl, latestLive_enqueue _ _ _⟩
    exact same.recorded recorded
  | heartbeat =>
    cases stepped
    have same : SameRecord stream (stream.touch stream.subscriber.enqueueHeartbeat) :=
      ⟨rfl, rfl, rfl, latestLive_enqueueHeartbeat _⟩
    exact same.recorded recorded
  | abort =>
    cases stepped
    have same : SameRecord stream stream.closeSubscriber :=
      ⟨rfl, rfl, rfl, latestLive_close _⟩
    exact same.recorded recorded
  | pull =>
    rw [EventStream.step] at stepped
    split at stepped
    · cases stepped
      exact sameRecord_startPull.recorded recorded
    · cases stepped
  | read =>
    rw [EventStream.step] at stepped
    split at stepped
    · cases stepped
      exact { recorded with }
    · cases stepped
  | readFails =>
    rw [EventStream.step] at stepped
    split at stepped
    · cases stepped
      have same : SameRecord stream { stream with subscriber := stream.subscriber.close }.endPull :=
        ⟨rfl, rfl, rfl, latestLive_close _⟩
      exact same.recorded recorded
    · cases stepped
  | continueReplay =>
    rw [EventStream.step] at stepped
    split at stepped
    · cases stepped
      exact (sameRecord_continueReplay _).recorded recorded
    · cases stepped
  | resumePull status =>
    rw [EventStream.step] at stepped
    split at stepped
    · cases stepped
      exact (sameRecord_resumePull _ status).recorded recorded
    · cases stepped
  | wake =>
    rw [EventStream.step] at stepped
    split at stepped
    · cases stepped
      split
      · exact { recorded with }
      · exact sameRecord_shiftQueue.recorded recorded
    · cases stepped

/-! ## What happens beside the pull -/

/-- What a step that is not one of the pull's does to an open stream. -/
structure Beside (opened : Nat) (stream next : EventStream) : Prop where
  committed : stream.committed <+: next.committed
  delivered : next.delivered = stream.delivered
  subscriber : next.subscriber = { stream.subscriber with
    queue := next.subscriber.queue
    queuedEvents := next.subscriber.queuedEvents
    queuedBytes := next.subscriber.queuedBytes
    latestLiveEventId := next.subscriber.latestLiveEventId }
  pull : next.pull = stream.pull ∧
      (next.subscriber.queue = stream.subscriber.queue ∨ stream.pull ≠ .waiting) ∨
    stream.pull = .waiting ∧ next.pull = .woken
  queued : ∃ new, next.subscriber.liveEvents = stream.subscriber.liveEvents ++ new ∧
    next.live opened stream.subscriber.replayThrough =
      stream.live opened stream.subscriber.replayThrough ++ new

theorem liveEvents_enqueue {subscriber : Subscriber} (frame : Frame) (eventId : Option Nat) :
    (subscriber.enqueue frame eventId).closed = true ∨
      subscriber.enqueue frame eventId = { subscriber with
        queue := subscriber.queue ++ [⟨frame, true, eventId⟩]
        queuedEvents := subscriber.queuedEvents + 1
        queuedBytes := subscriber.queuedBytes + frame.byteLength } := by
  rw [Subscriber.enqueue]
  split
  case isTrue closed => exact .inl closed
  case isFalse =>
    split
    · exact .inl closed_close
    · exact .inr rfl

theorem pull_touch (stream : EventStream) (subscriber : Subscriber) :
    (stream.touch subscriber).pull = stream.pull ∧
        (subscriber.queue = stream.subscriber.queue ∨ stream.pull ≠ .waiting) ∨
      stream.pull = .waiting ∧ (stream.touch subscriber).pull = .woken := by
  show (if subscriber = stream.subscriber then stream.pull else stream.pull.wake) =
      stream.pull ∧ _ ∨
    _ ∧ (if subscriber = stream.subscriber then stream.pull else stream.pull.wake) = .woken
  by_cases same : subscriber = stream.subscriber
  · rw [if_pos same, same]
    exact .inl ⟨rfl, .inl rfl⟩
  · rw [if_neg same]
    by_cases isWaiting : stream.pull = .waiting
    · rw [isWaiting]
      exact .inr ⟨rfl, rfl⟩
    · refine .inl ⟨?_, .inr isWaiting⟩
      cases isPull : stream.pull with
      | waiting => exact absurd isPull isWaiting
      | _ => rfl

theorem liveEvents_append (subscriber : Subscriber) (pending : QueuedFrame) :
    Subscriber.liveEvents { subscriber with queue := subscriber.queue ++ [pending] } =
      subscriber.liveEvents ++ operationalEvents [pending.frame] := by
  rw [Subscriber.liveEvents, List.map_append, operationalEvents_append]
  rfl

/-- A subscriber to whom at most one frame was enqueued. -/
theorem beside_touch {subscriber : Subscriber} {published : Nat} {new : List AdminOperationalEvent}
    (isSubscriber : subscriber = { stream.subscriber with
      queue := subscriber.queue
      queuedEvents := subscriber.queuedEvents
      queuedBytes := subscriber.queuedBytes
      latestLiveEventId := subscriber.latestLiveEventId })
    (queued : subscriber.liveEvents = stream.subscriber.liveEvents ++ new)
    (live : EventStream.live opened stream.subscriber.replayThrough { stream with published } =
      stream.live opened stream.subscriber.replayThrough ++ new) :
    Beside opened stream ({ stream with published }.touch subscriber) where
  committed := List.prefix_refl _
  delivered := rfl
  subscriber := isSubscriber
  pull := pull_touch { stream with published } subscriber
  queued := ⟨new, queued, live⟩

theorem beside_publish (recorded : stream.Recorded opened)
    (isNext : stream.committed[stream.published]? = some event)
    (stays : (stream.subscriber.publishOperational event).closed = false) :
    Beside opened stream ({ stream with published := stream.published + 1 }.touch
      (stream.subscriber.publishOperational event)) := by
  obtain ⟨within, -⟩ := List.getElem?_eq_some_iff.mp isNext
  have published : (stream.committed.take (stream.published + 1)).drop opened =
      (stream.committed.take stream.published).drop opened ++ [event] := by
    rw [take_succ_of_getElem? isNext, List.drop_append_of_le_length]
    rw [List.length_take]
    have opened := recorded.opened
    omega
  have notLatest : stream.subscriber.latestLiveEventId.any (event.eventId ≤ ·) = false := by
    cases isLatest : stream.subscriber.latestLiveEventId with
    | none => rfl
    | some latest =>
      obtain ⟨older, member, same⟩ := recorded.latest latest isLatest
      have above := recorded.published_lt isNext older member
      rw [Option.any_some, decide_eq_false_iff_not, Nat.not_le, ← same]
      exact above
  cases skips : stream.subscriber.skips event.eventId with
  | true =>
    -- the event is part of the replay
    have unchanged : stream.subscriber.publishOperational event = stream.subscriber := by
      rw [Subscriber.publishOperational, if_pos skips]
    rw [unchanged]
    apply beside_touch rfl (List.append_nil _).symm
    rw [Subscriber.skips, notLatest, Bool.or_false] at skips
    obtain ⟨through, isThrough, upTo⟩ := (Option.any_eq_true _ _).mp skips
    rw [isThrough]
    show eventsAbove ((stream.committed.take (stream.published + 1)).drop opened) through = _
    rw [published, eventsAbove, above_append]
    congr 1
    apply above_eq_nil
    intro other member
    rw [List.mem_singleton.mp member]
    exact of_decide_eq_true upTo
  | false =>
    have notSkipped : ¬ stream.subscriber.skips event.eventId = true := by
      rw [skips]
      exact Bool.false_ne_true
    have isEnqueued : stream.subscriber.publishOperational event =
        Subscriber.enqueue { stream.subscriber with latestLiveEventId := some event.eventId }
          (.operational event) (some event.eventId) := by
      rw [Subscriber.publishOperational, if_neg notSkipped]
    rw [isEnqueued] at stays ⊢
    rcases @liveEvents_enqueue
      { stream.subscriber with latestLiveEventId := some event.eventId } (.operational event)
      (some event.eventId) with closed | isNew
    · rw [closed] at stays
      cases stays
    · rw [isNew]
      apply beside_touch rfl
      · exact liveEvents_append stream.subscriber ⟨.operational event, true, some event.eventId⟩
      · rw [Subscriber.skips, Bool.or_eq_false_iff] at skips
        cases isThrough : stream.subscriber.replayThrough with
        | none => exact published
        | some through =>
          have beyond := skips.1
          rw [isThrough, Option.any_some, decide_eq_false_iff_not, Nat.not_le] at beyond
          show eventsAbove ((stream.committed.take (stream.published + 1)).drop opened) through = _
          rw [published, eventsAbove, above_append]
          congr 1
          exact List.filter_cons_of_pos (decide_eq_true beyond)

/-- A frame that is not about an event is enqueued. -/
theorem beside_enqueue {pending : QueuedFrame} {subscriber : Subscriber}
    (noEvent : pending.frame.event? = none)
    (isSubscriber : subscriber = { stream.subscriber with
      queue := stream.subscriber.queue ++ [pending]
      queuedEvents := subscriber.queuedEvents
      queuedBytes := subscriber.queuedBytes }) :
    Beside opened stream (stream.touch subscriber) := by
  have sameQueue : subscriber.queue = stream.subscriber.queue ++ [pending] :=
    congrArg Subscriber.queue isSubscriber
  have noEvents : operationalEvents [pending.frame] = [] := by
    rw [operationalEvents, List.filterMap_cons_none noEvent]
    rfl
  refine @beside_touch opened stream subscriber stream.published [] ?_ ?_ ?_
  · rw [isSubscriber]
  · rw [Subscriber.liveEvents, sameQueue, List.map_append, operationalEvents_append]
    show _ ++ operationalEvents [pending.frame] = _
    rw [noEvents]
    rfl
  · exact (List.append_nil _).symm

/-- What the log has within two ids stays the same when newer events are committed. -/
theorem eventsWithin_grow {log longer : List AdminOperationalEvent} {low high : Nat}
    (ascending : Ascending AdminOperationalEvent.eventId longer) (isPrefix : log <+: longer)
    (newest : ∃ event ∈ log, event.eventId = through) (upTo : high ≤ through) :
    eventsWithin longer low high = eventsWithin log low high := by
  obtain ⟨rest, rfl⟩ := isPrefix
  obtain ⟨event, member, isNewest⟩ := newest
  have ordered := (List.pairwise_append.mp ascending).2.2
  have noMore : eventsWithin rest low high = [] := by
    apply within_eq_nil
    intro newer isNewer
    have above := ordered event member newer isNewer
    omega
  rw [eventsWithin, within_append]
  show eventsWithin log low high ++ eventsWithin rest low high = eventsWithin log low high
  rw [noMore, List.append_nil]

theorem EventStream.Asks.beside {cursor : Nat} {saw : List AdminOperationalEvent → Prop}
    (asks : stream.Asks cursor saw) (beside : Beside opened stream next) :
      next.Asks cursor saw := by
  have same : stream.pull ≠ .waiting → next.pull = stream.pull := by
    intro notWaiting
    rcases beside.pull with ⟨same, -⟩ | ⟨isWaiting, -⟩
    · exact same
    · exact absurd isWaiting notWaiting
  rcases asks with isReading | ⟨log, rows, isPrefix, isSuffix, isSeen, isAnswered⟩
  · exact .inl ((same (by rw [isReading]; nofun)).trans isReading)
  · exact .inr ⟨log, rows, isPrefix.trans beside.committed, isSuffix, isSeen,
      (same (by rw [isAnswered]; nofun)).trans isAnswered⟩

theorem Beside.samePull (beside : Beside opened stream next) (notWaiting : stream.pull ≠ .waiting) :
    next.pull = stream.pull := by
  rcases beside.pull with ⟨same, -⟩ | ⟨isWaiting, -⟩
  · exact same
  · exact absurd isWaiting notWaiting

theorem Beside.held (beside : Beside opened stream next) : next.pull.held = stream.pull.held := by
  rcases beside.pull with ⟨same, -⟩ | ⟨isWaiting, isWoken⟩
  · rw [same]
  · rw [isWaiting, isWoken]
    rfl

theorem EventStream.Draining.beside (draining : stream.Draining)
    (beside : Beside opened stream next) : next.Draining := by
  cases draining with
  | returned isReturned =>
    exact .returned ((beside.samePull (by rw [isReturned]; nofun)).trans isReturned)
  | waiting isWaiting noQueue =>
    rcases beside.pull with ⟨same, sameQueue | notWaiting⟩ | ⟨-, isWoken⟩
    · exact .waiting (same.trans isWaiting) (sameQueue.trans noQueue)
    · exact absurd isWaiting notWaiting
    · exact .woken isWoken
  | woken isWoken => exact .woken ((beside.samePull (by rw [isWoken]; nofun)).trans isWoken)

section BesidePhases

variable (beside : Beside opened stream next) (recorded : stream.Recorded opened)
  (recordedNext : next.Recorded opened)

include beside

theorem Beside.replay : next.subscriber.replay = stream.subscriber.replay := by
  rw [beside.subscriber]

theorem Beside.replayed : next.replayed = stream.replayed := by
  rw [EventStream.replayed, beside.delivered, beside.held, beside.replay, EventStream.replayed]

theorem Beside.initialFrame : next.subscriber.initialFrame = stream.subscriber.initialFrame := by
  rw [beside.subscriber]

theorem Beside.replayThrough :
    next.subscriber.replayThrough = stream.subscriber.replayThrough := by
  rw [beside.subscriber]

theorem Beside.replayDone : next.subscriber.replayDone = stream.subscriber.replayDone := by
  rw [beside.subscriber]

theorem Beside.replayStarted :
    next.subscriber.replayStarted = stream.subscriber.replayStarted := by
  rw [beside.subscriber]

theorem Beside.replayCursor : next.subscriber.replayCursor = stream.subscriber.replayCursor := by
  rw [beside.subscriber]

include recorded

theorem Beside.earlier (earlier : ∀ event ∈ stream.committed.take opened, event.eventId ≤ through) :
    ∀ event ∈ next.committed.take opened, event.eventId ≤ through := by
  obtain ⟨rest, isLonger⟩ := beside.committed
  have fits := recorded.opened.trans recorded.published
  rw [← isLonger, List.take_append_of_le_length fits]
  exact earlier

theorem EventStream.Through.after_beside (phase : stream.Through opened through) :
    next.Through opened through where
  started := beside.replayStarted.trans phase.started
  noFrame := beside.initialFrame.trans phase.noFrame
  upTo := beside.replayThrough.trans phase.upTo
  newest := by
    obtain ⟨event, member, same⟩ := phase.newest
    exact ⟨event, beside.committed.subset member, same⟩
  earlier := beside.earlier recorded phase.earlier

include recordedNext

/-- A phase goes on when something happens beside the pull. -/
theorem EventStream.Phase.after_beside (phase : stream.Phase lastEventId opened) :
    next.Phase lastEventId opened := by
  obtain ⟨new, isQueued, isLive⟩ := beside.queued
  cases phase with
  | starting phase =>
    rw [phase.upTo] at isLive
    exact .starting {
      notStarted := beside.replayStarted.trans phase.notStarted
      notDone := beside.replayDone.trans phase.notDone
      readsFrom := beside.replayCursor.trans phase.readsFrom
      upTo := beside.replayThrough.trans phase.upTo
      noFrame := beside.initialFrame.trans phase.noFrame
      noReplay := beside.replay.trans phase.noReplay
      nothingSent := beside.delivered.trans phase.nothingSent
      queued := by rw [isQueued, isLive, phase.queued]
      pull := by
        rcases phase.pull with isIdle | asks
        · exact .inl ((beside.samePull (by rw [isIdle]; nofun)).trans isIdle)
        · exact .inr (asks.beside beside) }
  | replaying cursor through phase =>
    rw [phase.upTo] at isLive
    exact .replaying cursor through {
      phase.toThrough.after_beside beside recorded with
      notDone := beside.replayDone.trans phase.notDone
      readsFrom := beside.replayCursor.trans phase.readsFrom
      lower := phase.lower
      upper := phase.upper
      noReset := by
        rw [beside.replayed]
        exact phase.noReset
      sent := by
        rw [beside.replayed, phase.sent]
        exact (eventsWithin_grow recordedNext.ascending beside.committed phase.newest
          phase.upper).symm
      queued := by rw [isQueued, isLive, phase.queued]
      pull := by
        rcases phase.pull with isIdle | ⟨frame, isReturned⟩ | ⟨noReplay, asks⟩
        · exact .inl ((beside.samePull (by rw [isIdle]; nofun)).trans isIdle)
        · exact .inr (.inl ⟨frame,
            (beside.samePull (by rw [isReturned]; nofun)).trans isReturned⟩)
        · exact .inr (.inr ⟨beside.replay.trans noReplay, asks.beside beside⟩) }
  | live through phase =>
    rw [phase.upTo] at isLive
    exact .live through {
      phase.toThrough.after_beside beside recorded with
      done := beside.replayDone.trans phase.done
      lower := phase.lower
      noReset := by
        rw [beside.replayed]
        exact phase.noReset
      sent := by
        rw [beside.replayed, isQueued, isLive, ← List.append_assoc, phase.sent, List.append_assoc,
          eventsWithin_grow recordedNext.ascending beside.committed phase.newest (Nat.le_refl _)]
      pull := by
        rcases phase.pull with isIdle | ⟨frame, isReturned⟩ | ⟨noReplay, draining⟩
        · exact .inl ((beside.samePull (by rw [isIdle]; nofun)).trans isIdle)
        · exact .inr (.inl ⟨frame,
            (beside.samePull (by rw [isReturned]; nofun)).trans isReturned⟩)
        · exact .inr (.inr ⟨beside.replay.trans noReplay, draining.beside beside⟩) }
  | reset through latest phase =>
    rw [phase.upTo] at isLive
    exact .reset through latest {
      done := beside.replayDone.trans phase.done
      noFrame := beside.initialFrame.trans phase.noFrame
      upTo := beside.replayThrough.trans phase.upTo
      noReplay := beside.replay.trans phase.noReplay
      named := fun latestId isLatest =>
        ⟨(phase.named latestId isLatest).1,
          beside.earlier recorded (phase.named latestId isLatest).2⟩
      progress := by
        rcases phase.progress with pending | ⟨front, back, sent⟩
        · exact .inl {
            pull := (beside.samePull (by rw [pending.pull]; nofun)).trans pending.pull
            noReset := beside.delivered.symm ▸ pending.noReset
            sent := by
              rw [beside.delivered]
              exact pending.sent.trans (above_isPrefix beside.committed lastEventId)
            queued := by rw [isQueued, isLive, pending.queued] }
        · exact .inr ⟨front, back, { sent with
            pull := by
              rcases sent.pull with isIdle | draining
              · exact .inl ((beside.samePull (by rw [isIdle]; nofun)).trans isIdle)
              · exact .inr (draining.beside beside)
            split := beside.delivered.trans sent.split
            before := sent.before.trans (above_isPrefix beside.committed lastEventId)
            after := by rw [isQueued, isLive, ← List.append_assoc, sent.after] }⟩ }

end BesidePhases

end GhcGateway.Admin
