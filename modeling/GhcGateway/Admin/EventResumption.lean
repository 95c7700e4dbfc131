/-
# Resuming the stream of admin events

Every step keeps an open stream in one of its phases, except for one: a later read that finds
its cursor removed, when events were committed since the first read. Its reset frame names the
newest of them, and the live events that are not newer stay in the queue, to be sent after it.
-/

import GhcGateway.Admin.EventMoves

namespace GhcGateway.Admin

open Library AdminOperationalEvent EventStream

variable {lastEventId opened : Nat} {stream : EventStream}
  {subscriber : Subscriber} {committed rows log : List AdminOperationalEvent}
  {through cursor : Nat} {latest : Option Nat} {frame : Frame} {front back : List Frame}

/-! ## Sending -/

theorem operationalEvents_concat (frames : List Frame) (frame : Frame) :
    operationalEvents (frames ++ [frame]) =
      operationalEvents frames ++ operationalEvents [frame] :=
  operationalEvents_append frames [frame]

theorem forall_mem_concat {frames : List Frame} (noReset : ∀ other ∈ frames, other.isReset = false)
    (notReset : frame.isReset = false) : ∀ other ∈ frames ++ [frame], other.isReset = false := by
  intro other member
  rcases List.mem_append.mp member with old | new
  · exact noReset other old
  · rw [List.mem_singleton.mp new]
    exact notReset

theorem EventStream.Draining.held (draining : stream.Draining) : stream.pull.held = [] := by
  cases draining with
  | returned isReturned => rw [isReturned]; rfl
  | waiting isWaiting => rw [isWaiting]; rfl
  | woken isWoken => rw [isWoken]; rfl

/-- Nothing but what was sent is replayed where nothing is buffered and nothing in hand. -/
theorem EventStream.replayed_eq (noHeld : stream.pull.held = [])
    (noReplay : stream.subscriber.replay = []) : stream.replayed = stream.delivered := by
  rw [replayed, noHeld, noReplay, List.append_nil, List.append_nil]

/-- The head of the queue is sent once the replay is over. -/
theorem EventStream.Live.shiftQueue (phase : stream.Live lastEventId opened through)
    (counted : stream.subscriber.Counted) (noReplay : stream.subscriber.replay = [])
    (draining : stream.Draining) : stream.shiftQueue.Live lastEventId opened through := by
  have replayed := replayed_eq draining.held noReplay
  have noReset := phase.noReset
  have sent := phase.sent
  rw [replayed] at noReset sent
  rw [EventStream.shiftQueue]
  split
  case h_1 =>
    have still : EventStream.replayed { stream with pull := .idle } = stream.delivered :=
      replayed_eq rfl noReplay
    exact {
      phase.toThrough with
      done := phase.done
      lower := phase.lower
      noReset := by rw [still]; exact noReset
      sent := by rw [still]; exact sent
      pull := .inl rfl }
  case h_2 pending rest isQueue =>
    have sound := counted.sound pending (by rw [isQueue]; exact List.mem_cons_self)
    have head : stream.subscriber.liveEvents = operationalEvents [pending.frame] ++
        operationalEvents (rest.map QueuedFrame.frame) := by
      rw [Subscriber.liveEvents, isQueue, List.map_cons]
      exact operationalEvents_append [pending.frame] _
    have still (events bytes : Nat) : EventStream.replayed
        (EventStream.deliver { stream with subscriber := { stream.subscriber with
          queue := rest, queuedEvents := events, queuedBytes := bytes } } pending.frame) =
        stream.delivered ++ [pending.frame] := replayed_eq rfl noReplay
    exact {
      phase.toThrough with
      done := phase.done
      lower := phase.lower
      noReset := by
        rw [still]
        exact forall_mem_concat noReset sound.notReset
      sent := by
        rw [still, operationalEvents_concat, List.append_assoc]
        rw [head] at sent
        exact sent
      pull := .inl rfl }

/-- The head of the queue is sent after the reset frame. -/
theorem EventStream.Reset.shiftQueue (phase : stream.Reset lastEventId opened through latest)
    (counted : stream.subscriber.Counted)
    (sent : stream.ResetSent lastEventId opened through latest front back) :
    stream.shiftQueue.Reset lastEventId opened through latest := by
  rw [EventStream.shiftQueue]
  split
  case h_1 =>
    exact { phase with progress := .inr ⟨front, back, { sent with pull := .inl rfl }⟩ }
  case h_2 pending rest isQueue =>
    have sound := counted.sound pending (by rw [isQueue]; exact List.mem_cons_self)
    have head : stream.subscriber.liveEvents = operationalEvents [pending.frame] ++
        operationalEvents (rest.map QueuedFrame.frame) := by
      rw [Subscriber.liveEvents, isQueue, List.map_cons]
      exact operationalEvents_append [pending.frame] _
    have after := sent.after
    rw [head, ← List.append_assoc, ← operationalEvents_concat] at after
    exact {
      phase with
      progress := .inr ⟨front, back ++ [pending.frame], { sent with
        pull := .inl rfl
        split := by
          show stream.delivered ++ [pending.frame] = _
          rw [sent.split, List.append_assoc, List.cons_append]
        noReset := by
          rw [← List.append_assoc]
          exact forall_mem_concat sent.noReset sound.notReset
        after := after }⟩ }

/-- The stream is closed where no status can be had. -/
theorem closed_sendNext_none (pending : stream.subscriber.performancePending = true) :
    (stream.sendNext none).subscriber.closed = true := by
  rw [EventStream.sendNext, if_pos pending]
  exact Subscriber.closed_close

theorem EventStream.Live.sendNext (phase : stream.Live lastEventId opened through)
    (counted : stream.subscriber.Counted) (noReplay : stream.subscriber.replay = [])
    (draining : stream.Draining) (status : Option JsString)
    (stays : (stream.sendNext status).subscriber.closed = false) :
    (stream.sendNext status).Live lastEventId opened through := by
  have replayed := replayed_eq draining.held noReplay
  have noReset := phase.noReset
  have sent := phase.sent
  rw [replayed] at noReset sent
  by_cases pending : stream.subscriber.performancePending = true
  · cases status with
    | some status =>
      rw [EventStream.sendNext, if_pos pending]
      have still : EventStream.replayed (EventStream.deliver { stream with
          subscriber := { stream.subscriber with performancePending := false } }
          (.performance status)) = stream.delivered ++ [.performance status] :=
        replayed_eq rfl noReplay
      exact {
        phase.toThrough with
        done := phase.done
        lower := phase.lower
        noReset := by
          rw [still]
          exact forall_mem_concat noReset rfl
        sent := by
          rw [still, operationalEvents_concat]
          show operationalEvents stream.delivered ++ [] ++ _ = _
          rw [List.append_nil]
          exact sent
        pull := .inl rfl }
    | none => cases (closed_sendNext_none pending).symm.trans stays
  · rw [EventStream.sendNext, if_neg pending]
    by_cases noQueue : stream.subscriber.queue = []
    · rw [if_pos noQueue]
      have still : EventStream.replayed { stream with pull := .waiting } = stream.delivered :=
        replayed_eq rfl noReplay
      exact {
        phase.toThrough with
        done := phase.done
        lower := phase.lower
        noReset := by rw [still]; exact noReset
        sent := by rw [still]; exact sent
        pull := .inr (.inr ⟨noReplay, .waiting rfl noQueue⟩) }
    · rw [if_neg noQueue]
      exact phase.shiftQueue counted noReplay draining

theorem EventStream.Reset.sendNext (phase : stream.Reset lastEventId opened through latest)
    (counted : stream.subscriber.Counted)
    (sent : stream.ResetSent lastEventId opened through latest front back)
    (status : Option JsString) (stays : (stream.sendNext status).subscriber.closed = false) :
    (stream.sendNext status).Reset lastEventId opened through latest := by
  by_cases pending : stream.subscriber.performancePending = true
  · cases status with
    | some status =>
      rw [EventStream.sendNext, if_pos pending]
      exact {
        phase with
        progress := .inr ⟨front, back ++ [.performance status], { sent with
          pull := .inl rfl
          split := by
            show stream.delivered ++ [.performance status] = _
            rw [sent.split, List.append_assoc, List.cons_append]
          noReset := by
            rw [← List.append_assoc]
            exact forall_mem_concat sent.noReset rfl
          after := by
            rw [operationalEvents_concat]
            show operationalEvents back ++ [] ++ _ = _
            rw [List.append_nil]
            exact sent.after }⟩ }
    | none => cases (closed_sendNext_none pending).symm.trans stays
  · rw [EventStream.sendNext, if_neg pending]
    by_cases noQueue : stream.subscriber.queue = []
    · rw [if_pos noQueue]
      exact {
        phase with
        progress := .inr ⟨front, back, { sent with pull := .inr (.waiting rfl noQueue) }⟩ }
    · rw [if_neg noQueue]
      exact phase.shiftQueue counted sent

/-- The frame in hand is sent. -/
theorem EventStream.Phase.deliver (phase : stream.Phase lastEventId opened)
    (isReturned : stream.pull = .returned (some frame)) :
    (stream.deliver frame).Phase lastEventId opened := by
  have replayed : (stream.deliver frame).replayed = stream.replayed := by
    rw [EventStream.replayed, EventStream.replayed, isReturned]
    show stream.delivered ++ [frame] ++ ([] ++ stream.subscriber.replay) = _
    rw [List.nil_append, List.append_assoc]
    rfl
  cases phase with
  | starting phase =>
    rcases phase.pull with isIdle | isReading | ⟨_, _, _, _, _, isAnswered⟩
    · cases isReturned.symm.trans isIdle
    · cases isReturned.symm.trans isReading
    · cases isReturned.symm.trans isAnswered
  | replaying cursor through phase =>
    exact .replaying cursor through {
      phase with
      noReset := by rw [replayed]; exact phase.noReset
      sent := by rw [replayed]; exact phase.sent
      pull := .inl rfl }
  | live through phase =>
    exact .live through {
      phase with
      noReset := by rw [replayed]; exact phase.noReset
      sent := by rw [replayed]; exact phase.sent
      pull := .inl rfl }
  | reset through latest phase =>
    rcases phase.progress with pending | ⟨front, back, sent⟩
    · have isReset : frame = .reset latest :=
        Option.some.inj (Pull.returned.inj (isReturned.symm.trans pending.pull))
      exact .reset through latest {
        phase with
        progress := .inr ⟨stream.delivered, [], {
          pull := .inl rfl
          split := by
            show stream.delivered ++ [frame] = _
            rw [isReset]
          noReset := by
            rw [List.append_nil]
            exact pending.noReset
          before := pending.sent
          after := pending.queued }⟩ }
    · have noHeld : stream.pull.held = [] := by
        rcases sent.pull with isIdle | draining
        · rw [isIdle]
          rfl
        · exact draining.held
      rw [isReturned] at noHeld
      cases noHeld

/-- A stream that has nothing more to replay is live, or was reset. -/
theorem EventStream.Phase.draining (phase : stream.Phase lastEventId opened)
    (draining : stream.Draining) :
    (∃ through, stream.Live lastEventId opened through ∧ stream.subscriber.replay = []) ∨
      ∃ through latest front back, stream.Reset lastEventId opened through latest ∧
        stream.ResetSent lastEventId opened through latest front back := by
  have notIdle : stream.pull ≠ .idle := by
    intro isIdle
    cases draining with
    | returned isPull => cases isIdle.symm.trans isPull
    | waiting isPull => cases isIdle.symm.trans isPull
    | woken isPull => cases isIdle.symm.trans isPull
  have notFrame : ∀ frame, stream.pull ≠ .returned (some frame) := by
    intro frame isFrame
    have noHeld := draining.held
    rw [isFrame] at noHeld
    cases noHeld
  have notAsked : ∀ cursor saw, ¬ stream.Asks cursor saw := by
    rintro cursor saw (isReading | ⟨_, _, _, _, _, isAnswered⟩)
    · cases draining with
      | returned isPull => cases isReading.symm.trans isPull
      | waiting isPull => cases isReading.symm.trans isPull
      | woken isPull => cases isReading.symm.trans isPull
    · cases draining with
      | returned isPull => cases isAnswered.symm.trans isPull
      | waiting isPull => cases isAnswered.symm.trans isPull
      | woken isPull => cases isAnswered.symm.trans isPull
  cases phase with
  | starting phase =>
    rcases phase.pull with isIdle | asks
    · exact absurd isIdle notIdle
    · exact absurd asks (notAsked _ _)
  | replaying cursor through phase =>
    rcases phase.pull with isIdle | ⟨frame, isFrame⟩ | ⟨-, asks⟩
    · exact absurd isIdle notIdle
    · exact absurd isFrame (notFrame frame)
    · exact absurd asks (notAsked _ _)
  | live through phase =>
    rcases phase.pull with isIdle | ⟨frame, isFrame⟩ | ⟨noReplay, -⟩
    · exact absurd isIdle notIdle
    · exact absurd isFrame (notFrame frame)
    · exact .inl ⟨through, phase, noReplay⟩
  | reset through latest phase =>
    rcases phase.progress with pending | ⟨front, back, sent⟩
    · exact absurd pending.pull (notFrame _)
    · exact .inr ⟨through, latest, front, back, phase, sent⟩

/-- Where nothing is replayed, the performance frame or the head of the queue is sent. -/
theorem EventStream.Phase.sendNext (phase : stream.Phase lastEventId opened)
    (counted : stream.subscriber.Counted) (isReturned : stream.pull = .returned none)
    (status : Option JsString) (stays : (stream.sendNext status).subscriber.closed = false) :
    (stream.sendNext status).Phase lastEventId opened := by
  have draining : stream.Draining := .returned isReturned
  rcases phase.draining draining with ⟨through, phase, noReplay⟩ |
    ⟨through, latest, front, back, phase, sent⟩
  · exact .live through (phase.sendNext counted noReplay draining status stays)
  · exact .reset through latest (phase.sendNext counted sent status stays)

/-- A pull goes on from where it was woken. -/
theorem EventStream.Phase.wake (phase : stream.Phase lastEventId opened)
    (counted : stream.subscriber.Counted) (isWoken : stream.pull = .woken) :
    stream.shiftQueue.Phase lastEventId opened := by
  have draining : stream.Draining := .woken isWoken
  rcases phase.draining draining with ⟨through, phase, noReplay⟩ |
    ⟨through, latest, front, back, phase, sent⟩
  · exact .live through (phase.shiftQueue counted noReplay draining)
  · exact .reset through latest (phase.shiftQueue counted sent)

/-! ## Replaying -/

/-- A buffered frame is taken. -/
theorem EventStream.replayed_shift {rest : List Frame} (isIdle : stream.pull = .idle)
    (isReplay : stream.subscriber.replay = frame :: rest) (bytes : Nat) :
    EventStream.replayed { stream with
      subscriber := { stream.subscriber with replay := rest, replayBytes := bytes }
      pull := .returned (some frame) } = stream.replayed := by
  rw [EventStream.replayed, EventStream.replayed, isIdle, isReplay]
  rfl

theorem EventStream.Phase.startPull (phase : stream.Phase lastEventId opened)
    (isIdle : stream.pull = .idle) (notClosed : stream.subscriber.closed = false) :
    stream.startPull.Phase lastEventId opened := by
  have notClosed : ¬ stream.subscriber.closed = true := by rw [notClosed]; nofun
  rw [EventStream.startPull, if_neg notClosed]
  cases phase with
  | starting phase =>
    have asks : stream.subscriber.nextInitialFrame = (stream.subscriber, .inr lastEventId) := by
      rw [Subscriber.nextInitialFrame, phase.noReplay, phase.noFrame, phase.notDone,
        phase.readsFrom]
      rfl
    rw [asks]
    exact .starting { phase with pull := .inr (.inl rfl) }
  | replaying cursor through phase =>
    cases isReplay : stream.subscriber.replay with
    | nil =>
      have asks : stream.subscriber.nextInitialFrame = (stream.subscriber, .inr cursor) := by
        rw [Subscriber.nextInitialFrame, isReplay, phase.noFrame, phase.notDone, phase.readsFrom]
        rfl
      have still : EventStream.replayed { stream with pull := .reading cursor } =
          stream.replayed := by
        rw [EventStream.replayed, EventStream.replayed, isIdle]
        rfl
      rw [asks]
      exact .replaying cursor through {
        phase with
        noReset := by rw [still]; exact phase.noReset
        sent := by rw [still]; exact phase.sent
        pull := .inr (.inr ⟨isReplay, .inl rfl⟩) }
    | cons frame rest =>
      have still := replayed_shift isIdle isReplay
        (stream.subscriber.replayBytes - frame.byteLength)
      rw [Subscriber.nextInitialFrame, isReplay]
      exact .replaying cursor through {
        phase with
        noReset := by rw [still]; exact phase.noReset
        sent := by rw [still]; exact phase.sent
        pull := .inr (.inl ⟨frame, rfl⟩) }
  | live through phase =>
    cases isReplay : stream.subscriber.replay with
    | nil =>
      have returns : stream.subscriber.nextInitialFrame = (stream.subscriber, .inl none) := by
        rw [Subscriber.nextInitialFrame, isReplay, phase.noFrame, phase.done]
        rfl
      have still : EventStream.replayed { stream with pull := .returned none } =
          stream.replayed := by
        rw [EventStream.replayed, EventStream.replayed, isIdle]
        rfl
      rw [returns]
      exact .live through {
        phase with
        noReset := by rw [still]; exact phase.noReset
        sent := by rw [still]; exact phase.sent
        pull := .inr (.inr ⟨isReplay, .returned rfl⟩) }
    | cons frame rest =>
      have still := replayed_shift isIdle isReplay
        (stream.subscriber.replayBytes - frame.byteLength)
      rw [Subscriber.nextInitialFrame, isReplay]
      exact .live through {
        phase with
        noReset := by rw [still]; exact phase.noReset
        sent := by rw [still]; exact phase.sent
        pull := .inr (.inl ⟨frame, rfl⟩) }
  | reset through latest phase =>
    have returns : stream.subscriber.nextInitialFrame = (stream.subscriber, .inl none) := by
      rw [Subscriber.nextInitialFrame, phase.noReplay, phase.noFrame, phase.done]
      rfl
    rw [returns]
    rcases phase.progress with pending | ⟨front, back, sent⟩
    · cases isIdle.symm.trans pending.pull
    · exact .reset through latest {
        phase with
        progress := .inr ⟨front, back, { sent with pull := .inr (.returned rfl) }⟩ }

inductive EventStream.Asking (stream : EventStream) : Prop
  | reading (cursor : Nat) (isReading : stream.pull = .reading cursor)
  | answered (replay : AdminEventReplay) (isAnswered : stream.pull = .answered replay)

/-- A stream that asks the history is starting, or replays it. -/
theorem EventStream.Phase.asking (phase : stream.Phase lastEventId opened)
    (asking : stream.Asking) :
    stream.Starting lastEventId opened ∧
        stream.Asks lastEventId (fun log => opened ≤ log.length) ∨
      ∃ cursor through, stream.Replaying lastEventId opened cursor through ∧
        stream.subscriber.replay = [] ∧
        stream.Asks cursor fun log => ∃ event ∈ log, event.eventId = through := by
  have notIdle : stream.pull ≠ .idle := by
    intro isIdle
    cases asking with
    | reading _ isPull => cases isIdle.symm.trans isPull
    | answered _ isPull => cases isIdle.symm.trans isPull
  have notReturned : ∀ frame, stream.pull ≠ .returned frame := by
    intro frame isFrame
    cases asking with
    | reading _ isPull => cases isFrame.symm.trans isPull
    | answered _ isPull => cases isFrame.symm.trans isPull
  have notDraining : ¬ stream.Draining := by
    intro draining
    cases draining with
    | returned isReturned => exact notReturned none isReturned
    | waiting isWaiting =>
      cases asking with
      | reading _ isPull => cases isWaiting.symm.trans isPull
      | answered _ isPull => cases isWaiting.symm.trans isPull
    | woken isWoken =>
      cases asking with
      | reading _ isPull => cases isWoken.symm.trans isPull
      | answered _ isPull => cases isWoken.symm.trans isPull
  cases phase with
  | starting phase =>
    rcases phase.pull with isIdle | asks
    · exact absurd isIdle notIdle
    · exact .inl ⟨phase, asks⟩
  | replaying cursor through phase =>
    rcases phase.pull with isIdle | ⟨frame, isFrame⟩ | ⟨noReplay, asks⟩
    · exact absurd isIdle notIdle
    · exact absurd isFrame (notReturned _)
    · exact .inr ⟨cursor, through, phase, noReplay, asks⟩
  | live through phase =>
    rcases phase.pull with isIdle | ⟨frame, isFrame⟩ | ⟨-, draining⟩
    · exact absurd isIdle notIdle
    · exact absurd isFrame (notReturned _)
    · exact absurd draining notDraining
  | reset through latest phase =>
    rcases phase.progress with pending | ⟨front, back, sent⟩
    · exact absurd pending.pull (notReturned _)
    · rcases sent.pull with isIdle | draining
      · exact absurd isIdle notIdle
      · exact absurd draining notDraining

theorem EventStream.Asking.held (asking : stream.Asking) : stream.pull.held = [] := by
  cases asking with
  | reading _ isPull => rw [isPull]; rfl
  | answered _ isPull => rw [isPull]; rfl

theorem EventStream.Asks.cursor_eq {other : Nat} {saw : List AdminOperationalEvent → Prop}
    (asks : stream.Asks cursor saw) (isReading : stream.pull = .reading other) :
      other = cursor := by
  rcases asks with isPull | ⟨_, _, _, _, _, isAnswered⟩
  · exact Pull.reading.inj (isReading.symm.trans isPull)
  · cases isReading.symm.trans isAnswered

/-- The history answers. -/
theorem EventStream.Phase.read (phase : stream.Phase lastEventId opened)
    (recorded : stream.Recorded opened) (isReading : stream.pull = .reading cursor) :
    EventStream.Phase lastEventId opened
      { stream with pull := .answered (replayEvents stream.rows cursor) } := by
  have asking : stream.Asking := .reading cursor isReading
  rcases phase.asking asking with ⟨phase, asks⟩ | ⟨readFrom, through, phase, noReplay, asks⟩
  · rw [asks.cursor_eq isReading]
    exact .starting {
      phase with
      pull := .inr (.inr ⟨stream.committed, stream.rows, List.prefix_refl _, recorded.rows,
        recorded.opened.trans recorded.published, rfl⟩) }
  · have still : EventStream.replayed
        { stream with pull := .answered (replayEvents stream.rows readFrom) } =
          stream.replayed := by
      rw [EventStream.replayed, EventStream.replayed, asking.held]
      rfl
    rw [asks.cursor_eq isReading]
    exact .replaying readFrom through {
      phase with
      noReset := by rw [still]; exact phase.noReset
      sent := by rw [still]; exact phase.sent
      pull := .inr (.inr ⟨noReplay, .inr ⟨stream.committed, stream.rows, List.prefix_refl _,
        recorded.rows, phase.newest, rfl⟩⟩) }

/-! ## What the history answers -/

section Answer

variable {log rows : List AdminOperationalEvent} {cursor : Nat}

/-- The latest id is that of the newest event. -/
theorem latestEventId_suffix (ascending : Ascending eventId log)
    (isSuffix : rows <:+ log) {latest : Nat} (isLatest : latestEventId rows = some latest) :
    (∃ event ∈ log, event.eventId = latest) ∧ ∀ event ∈ log, event.eventId ≤ latest := by
  obtain ⟨member, upper⟩ := List.max?_eq_some_iff.mp isLatest
  obtain ⟨newest, isRow, same⟩ := List.mem_map.mp member
  refine ⟨⟨newest, isSuffix.subset isRow, same⟩, fun event isEvent => ?_⟩
  obtain ⟨lost, rfl⟩ := isSuffix
  rcases List.mem_append.mp isEvent with isLost | isKept
  · rw [← same]
    exact Nat.le_of_lt ((List.pairwise_append.mp ascending).2.2 event isLost newest isRow)
  · exact upper _ (List.mem_map_of_mem isKept)

theorem replayEvents_latestEventId :
    (replayEvents rows cursor).latestEventId = latestEventId rows := by
  rw [replayEvents]
  split <;> rfl

/-- A history that still has the cursor has all that is above it. -/
theorem replayEvents_found (ascending : Ascending eventId log)
    (isSuffix : rows <:+ log) (isFound : (replayEvents rows cursor).found = true) :
    (∃ event ∈ log, event.eventId = cursor) ∧
      (replayEvents rows cursor).items = (eventsAbove log cursor).take eventReplayBatchSize ∧
      ∃ latest, latestEventId rows = some latest := by
  by_cases has : (rows.any fun row => row.eventId = cursor) = true
  · obtain ⟨row, isRow, isCursor⟩ := List.any_eq_true.mp has
    have isCursor : row.eventId = cursor := of_decide_eq_true isCursor
    refine ⟨⟨row, isSuffix.subset isRow, isCursor⟩, ?_, ?_⟩
    · rw [replayEvents, if_pos has, ← isCursor]
      exact congrArg (List.take eventReplayBatchSize) (ascending.above_suffix isSuffix isRow)
    · cases isLatest : latestEventId rows with
      | some latest => exact ⟨latest, rfl⟩
      | none =>
        have empty := List.max?_eq_none_iff.mp isLatest
        rw [List.map_eq_nil_iff.mp empty] at isRow
        cases isRow
  · rw [replayEvents, if_neg has] at isFound
    cases isFound

/-- What a batch has of the replay is what comes next up to its end. -/
theorem replayItems_eq (ascending : Ascending eventId committed)
    (isPrefix : log <+: committed) (newest : ∃ event ∈ log, event.eventId = through)
    (upper : cursor ≤ through) (isThrough : subscriber.replayThrough = some through) :
    subscriber.replayItems ((eventsAbove log cursor).take eventReplayBatchSize) =
      (eventsWithin committed cursor through).take eventReplayBatchSize := by
  have ordered : Ascending eventId log := by
    obtain ⟨rest, rfl⟩ := isPrefix
    exact (List.pairwise_append.mp ascending).1
  have split := eventsWithin_append_eventsAbove ordered upper
  rw [eventsWithin_grow ascending isPrefix newest (Nat.le_refl _),
    Subscriber.replayItems, isThrough]
  show (((eventsAbove log cursor).take eventReplayBatchSize).take eventReplayBatchSize).filter _ = _
  rw [List.take_take, Nat.min_self, ← split, List.take_append, List.filter_append,
    List.filter_eq_self.mpr, List.filter_eq_nil_iff.mpr, List.append_nil]
  · intro event member
    have isAbove := mem_above.mp (List.mem_of_mem_take member)
    rw [decide_eq_true_eq, Nat.not_le]
    exact isAbove.2
  · intro event member
    exact decide_eq_true (mem_within.mp (List.mem_of_mem_take member)).2.2

end Answer

/-- The frames of queued events that are replayed are discarded. -/
theorem liveEvents_discard {queue : List QueuedFrame} (sound : ∀ pending ∈ queue, pending.Sound)
    (through : Nat) :
    operationalEvents ((queue.filter fun pending => !Subscriber.isReplayed through pending).map
        QueuedFrame.frame) =
      eventsAbove (operationalEvents (queue.map QueuedFrame.frame)) through := by
  induction queue with
  | nil => rfl
  | cons pending queue ih =>
    have tail := ih fun other member => sound other (List.mem_cons_of_mem pending member)
    have isId := (sound pending List.mem_cons_self).eventId
    rw [List.map_cons]
    cases isEvent : pending.frame.event? with
    | none =>
      rw [isEvent] at isId
      have isKept : (!Subscriber.isReplayed through pending) = true := by
        rw [Subscriber.isReplayed, isId]
        rfl
      rw [List.filter_cons, if_pos isKept, List.map_cons, operationalEvents,
        List.filterMap_cons_none isEvent, operationalEvents, List.filterMap_cons_none isEvent]
      exact tail
    | some event =>
      rw [isEvent] at isId
      have isReplay : Subscriber.isReplayed through pending = decide (event.eventId ≤ through) := by
        rw [Subscriber.isReplayed, isId]
        rfl
      by_cases upTo : event.eventId ≤ through
      · have dropped : ¬ (!Subscriber.isReplayed through pending) = true := by
          rw [isReplay, decide_eq_true upTo]
          exact Bool.false_ne_true
        have notAbove : ¬ decide (through < event.eventId) = true := by
          rw [decide_eq_true_eq]
          omega
        rw [List.filter_cons, if_neg dropped, operationalEvents, operationalEvents,
          List.filterMap_cons_some isEvent, eventsAbove, above, List.filter_cons,
          if_neg notAbove]
        exact tail
      · have isKept : (!Subscriber.isReplayed through pending) = true := by
          rw [isReplay, decide_eq_false upTo]
          rfl
        have isAbove : decide (through < event.eventId) = true := by
          rw [decide_eq_true_eq]
          omega
        rw [List.filter_cons, if_pos isKept, List.map_cons, operationalEvents,
          List.filterMap_cons_some isEvent, operationalEvents, List.filterMap_cons_some isEvent,
          eventsAbove, above, List.filter_cons, if_pos isAbove]
        exact congrArg (event :: ·) tail

/-! ## The answer is handled -/

/-- What a subscriber is like whose batch was buffered. -/
structure Buffered (subscriber : Subscriber) (items : List AdminOperationalEvent)
    (next : Subscriber) (frame : Option Frame) : Prop where
  frames : frame.toList ++ next.replay = items.map Frame.operational
  noFrame : frame = none → next.replay = []
  queue : next.queue = subscriber.queue
  through : next.replayThrough = subscriber.replayThrough
  started : next.replayStarted = subscriber.replayStarted
  initialFrame : next.initialFrame = subscriber.initialFrame
  cursor : next.replayCursor =
    (items.getLast?.map eventId).or subscriber.replayCursor
  done : next.replayDone = (subscriber.replayDone || subscriber.isLastBatch items.getLast?)

theorem buffered_bufferReplay {items : List AdminOperationalEvent}
    (stays : (subscriber.bufferReplay items).1.closed = false) :
    Buffered subscriber items (subscriber.bufferReplay items).1
      (subscriber.bufferReplay items).2 := by
  by_cases overflow : eventQueueCap < subscriber.queuedEvents +
        (items.map Frame.operational).length ∨
      eventQueueBytes < subscriber.queuedBytes + totalBytes (items.map Frame.operational)
  · rw [Subscriber.bufferReplay, if_pos overflow] at stays
    cases Subscriber.closed_close.symm.trans stays
  · rw [Subscriber.bufferReplay, if_neg overflow]
    cases items with
    | nil => exact ⟨rfl, fun _ => rfl, rfl, rfl, rfl, rfl, rfl, rfl⟩
    | cons first others => exact ⟨rfl, by rintro ⟨⟩, rfl, rfl, rfl, rfl, rfl, rfl⟩

theorem Pull.held_returned (frame : Option Frame) : (Pull.returned frame).held = frame.toList := by
  cases frame <;> rfl

section Buffer

variable {cursor through : Nat} {items : List AdminOperationalEvent} {subscriber : Subscriber}
  {frame : Option Frame}

/-- A batch of the history was buffered: the replay goes on, or it has come to its end. -/
theorem EventStream.Through.buffer (phase : stream.Through opened through)
    (recorded : stream.Recorded opened) (notDone : stream.subscriber.replayDone = false)
    (lower : lastEventId ≤ cursor) (upper : cursor ≤ through)
    (noReset : ∀ frame ∈ stream.delivered, frame.isReset = false)
    (sent : operationalEvents stream.delivered =
      eventsWithin stream.committed lastEventId cursor)
    (queued : stream.subscriber.liveEvents = stream.live opened (some through))
    (isItems : items =
      (eventsWithin stream.committed cursor through).take eventReplayBatchSize)
    (buffered : Buffered stream.subscriber items subscriber frame) :
    EventStream.Phase lastEventId opened
      { stream with subscriber, pull := .returned frame } := by
  have ascending := recorded.ascending
  have goesOn : EventStream.Through opened through
      { stream with subscriber, pull := .returned frame } := {
    phase with
    started := buffered.started.trans phase.started
    noFrame := buffered.initialFrame.trans phase.noFrame
    upTo := buffered.through.trans phase.upTo }
  have stillQueued : subscriber.liveEvents = stream.live opened (some through) := by
    rw [Subscriber.liveEvents, buffered.queue]
    exact queued
  have isReplayed : EventStream.replayed { stream with subscriber, pull := .returned frame } =
      stream.delivered ++ items.map Frame.operational := by
    rw [← buffered.frames, ← Pull.held_returned]
    rfl
  have noResets : ∀ frame ∈ stream.delivered ++ items.map Frame.operational,
      frame.isReset = false := by
    intro frame member
    rcases List.mem_append.mp member with old | new
    · exact noReset frame old
    · obtain ⟨event, -, rfl⟩ := List.mem_map.mp new
      rfl
  have allSent : operationalEvents (stream.delivered ++ items.map Frame.operational) =
      eventsWithin stream.committed lastEventId cursor ++ items := by
    rw [operationalEvents_append, operationalEvents_operational, sent]
  -- where nothing was buffered, nothing is in hand
  have pull : (∃ first, Pull.returned frame = .returned (some first)) ∨
      subscriber.replay = [] ∧
        EventStream.Draining { stream with subscriber, pull := .returned frame } := by
    cases frame with
    | none => exact .inr ⟨buffered.noFrame rfl, .returned rfl⟩
    | some first => exact .inl ⟨first, rfl⟩
  have ends (whole : eventsWithin stream.committed lastEventId cursor ++ items =
      eventsWithin stream.committed lastEventId through) (isDone : subscriber.replayDone = true) :
      EventStream.Phase lastEventId opened { stream with subscriber, pull := .returned frame } :=
    .live through {
      goesOn with
      done := isDone
      lower := lower.trans upper
      noReset := isReplayed ▸ noResets
      sent := by
        show operationalEvents (EventStream.replayed _) ++ subscriber.liveEvents = _
        rw [isReplayed, allSent, whole, stillQueued]
        rfl
      pull := .inr pull }
  have isDone := buffered.done
  rw [notDone, Bool.false_or] at isDone
  rcases List.eq_nil_or_concat' items with noItems | ⟨front, last, isSplit⟩
  · have noMore : eventsWithin stream.committed cursor through = [] := by
      rw [noItems] at isItems
      rcases List.take_eq_nil_iff.mp isItems.symm with impossible | empty
      · cases impossible
      · exact empty
    apply ends
    · rw [noItems, ← noMore]
      exact ascending.within_append_within lower upper
    · rw [isDone, noItems]
      rfl
  · -- the batch ends with an event, from which the next one is read
    have isPrefix : front ++ [last] <+: eventsWithin stream.committed cursor through := by
      rw [← isSplit, isItems]
      exact List.take_prefix _ _
    have isWithin := mem_within.mp
      (isPrefix.subset (List.mem_append_right front (List.mem_singleton_self last)))
    have upToLast : eventsWithin stream.committed cursor last.eventId = items :=
      (ascending.within_of_prefix isPrefix).trans isSplit.symm
    have whole : eventsWithin stream.committed lastEventId cursor ++ items =
        eventsWithin stream.committed lastEventId last.eventId := by
      rw [← upToLast]
      exact ascending.within_append_within lower (Nat.le_of_lt isWithin.2.1)
    have isLast : items.getLast? = some last := by rw [isSplit, List.getLast?_concat]
    unfold Subscriber.isLastBatch at isDone
    rw [isLast, phase.upTo] at isDone
    by_cases atEnd : through ≤ last.eventId
    · have same : last.eventId = through := Nat.le_antisymm isWithin.2.2 atEnd
      apply ends
      · rw [whole, same]
      · rw [isDone]
        exact decide_eq_true atEnd
    · have some : ∃ first, Pull.returned frame = .returned (some first) := by
        rcases pull with isFrame | ⟨noReplay, draining⟩
        · exact isFrame
        · have noHeld := draining.held
          have frames := buffered.frames
          rw [← Pull.held_returned, noReplay, noHeld, isSplit, List.map_append] at frames
          cases List.append_eq_nil_iff.mp frames.symm with
          | intro _ impossible => cases impossible
      exact .replaying last.eventId through {
        goesOn with
        notDone := isDone.trans (decide_eq_false atEnd)
        readsFrom := by
          show subscriber.replayCursor = _
          rw [buffered.cursor, isLast]
          rfl
        lower := lower.trans (Nat.le_of_lt isWithin.2.1)
        upper := isWithin.2.2
        noReset := isReplayed ▸ noResets
        sent := by
          rw [isReplayed, allSent]
          exact whole
        queued := stillQueued
        pull := .inr (.inl some) }

end Buffer

theorem resetReplay_eq (noReplay : subscriber.replay = []) (latest : Option Nat) :
    subscriber.resetReplay latest =
      ({ subscriber with replayDone := true, initialFrame := none }, some (.reset latest)) := by
  rw [Subscriber.resetReplay, Subscriber.nextInitialFrame, noReplay]

/-- The history is given up, and the reset frame is in hand. -/
theorem EventStream.phase_resetReplay {through : Nat} {latest : Option Nat}
    (upTo : stream.subscriber.replayThrough = some through)
    (noReplay : stream.subscriber.replay = [])
    (named : ∀ latestId, latest = some latestId → latestId = through ∧
      ∀ event ∈ stream.committed.take opened, event.eventId ≤ through)
    (noReset : ∀ frame ∈ stream.delivered, frame.isReset = false)
    (sent : operationalEvents stream.delivered <+: eventsAbove stream.committed lastEventId)
    (queued : stream.subscriber.liveEvents = stream.live opened (some through)) :
    EventStream.Phase lastEventId opened { stream with
      subscriber := (stream.subscriber.resetReplay latest).1
      pull := .returned (stream.subscriber.resetReplay latest).2 } := by
  rw [resetReplay_eq noReplay]
  exact .reset through latest {
    done := rfl
    noFrame := rfl
    upTo := upTo
    noReplay := noReplay
    named := named
    progress := .inl { pull := rfl, noReset := noReset, sent := sent, queued := queued } }

/-- What a subscriber is like once the first answer has come in. -/
structure Started (subscriber : Subscriber) (through : Nat) (next : Subscriber) : Prop where
  started : next.replayStarted = true
  upTo : next.replayThrough = some through
  queue : next.queue =
    subscriber.queue.filter fun pending => !Subscriber.isReplayed through pending
  done : next.replayDone = subscriber.replayDone
  cursor : next.replayCursor = subscriber.replayCursor
  initialFrame : next.initialFrame = subscriber.initialFrame
  replay : next.replay = subscriber.replay
  latest : next.latestLiveEventId = subscriber.latestLiveEventId

theorem started_startReplay (upTo : latest.or subscriber.replayCursor = some through) :
    Started subscriber through (subscriber.startReplay latest) := by
  rw [Subscriber.startReplay, upTo]
  exact ⟨rfl, rfl, rfl, rfl, rfl, rfl, rfl, rfl⟩

/-- The first answer of the history. -/
theorem EventStream.Starting.continueReplay (phase : stream.Starting lastEventId opened)
    (recorded : stream.Recorded opened) (counted : stream.subscriber.Counted)
    (isPrefix : log <+: stream.committed) (isSuffix : rows <:+ log) (seen : opened ≤ log.length)
    (stays : (stream.subscriber.continueReplay (replayEvents rows lastEventId)).1.closed = false) :
    EventStream.Phase lastEventId opened { stream with
      subscriber := (stream.subscriber.continueReplay (replayEvents rows lastEventId)).1
      pull := .returned
        (stream.subscriber.continueReplay (replayEvents rows lastEventId)).2 } := by
  have ordered : Ascending eventId log := by
    obtain ⟨rest, isLonger⟩ := isPrefix
    have ascending := recorded.ascending
    rw [← isLonger] at ascending
    exact (List.pairwise_append.mp ascending).1
  have notStarted : ¬ stream.subscriber.replayStarted = true := by
    rw [phase.notStarted]
    exact Bool.false_ne_true
  -- the newest event of the answer, or else the cursor
  obtain ⟨through, isThrough⟩ : ∃ through,
      (latestEventId rows).or stream.subscriber.replayCursor = some through := by
    cases latestEventId rows with
    | none => exact ⟨lastEventId, phase.readsFrom⟩
    | some latest => exact ⟨latest, rfl⟩
  have isLatest (latest : Nat) (found : latestEventId rows = some latest) : latest = through := by
    rw [found] at isThrough
    exact Option.some.inj isThrough
  have earlier (latest : Nat) (found : latestEventId rows = some latest) :
      ∀ event ∈ stream.committed.take opened, event.eventId ≤ through := by
    have below := (latestEventId_suffix ordered isSuffix found).2
    obtain ⟨rest, isLonger⟩ := isPrefix
    rw [← isLonger, List.take_append_of_le_length seen, ← isLatest latest found]
    exact fun event member => below event (List.mem_of_mem_take member)
  have started := started_startReplay isThrough
  rw [Subscriber.continueReplay, if_neg notStarted, replayEvents_latestEventId] at stays ⊢
  generalize stream.subscriber.startReplay (latestEventId rows) = subscriber at started stays ⊢
  have queued : EventStream.live opened (some through) stream = subscriber.liveEvents := by
    rw [Subscriber.liveEvents, started.queue, liveEvents_discard counted.sound]
    exact (congrArg (eventsAbove · through) phase.queued).symm
  have noReset : ∀ frame ∈ stream.delivered, frame.isReset = false := by
    rw [phase.nothingSent]
    exact fun _ member => absurd member List.not_mem_nil
  let next : EventStream := { stream with subscriber }
  by_cases isFound : (replayEvents rows lastEventId).found = true
  · rw [if_pos isFound] at stays ⊢
    obtain ⟨⟨event, member, isCursor⟩, isItems, latest, found⟩ :=
      replayEvents_found ordered isSuffix isFound
    obtain ⟨newest, below⟩ := latestEventId_suffix ordered isSuffix found
    rw [isLatest latest found] at newest below
    have upper : lastEventId ≤ through := isCursor ▸ below event member
    have goesOn : next.Through opened through := { started with
      noFrame := started.initialFrame.trans phase.noFrame
      newest := by
        obtain ⟨newest, isEvent, same⟩ := newest
        exact ⟨newest, isPrefix.subset isEvent, same⟩
      earlier := earlier latest found }
    have same : SameRecord stream next := ⟨rfl, rfl, rfl, started.latest⟩
    have nextRecorded : next.Recorded opened := same.recorded recorded
    refine @Through.buffer lastEventId opened next lastEventId through _ _ _ goesOn nextRecorded
      (started.done.trans phase.notDone) (Nat.le_refl _) upper noReset ?_ queued.symm ?_
      (buffered_bufferReplay stays)
    · show operationalEvents stream.delivered = _
      rw [phase.nothingSent, eventsWithin, within_self]
      rfl
    · rw [isItems]
      exact replayItems_eq recorded.ascending isPrefix newest upper started.upTo
  · rw [if_neg isFound]
    have named : ∀ latestId, latestEventId rows = some latestId → latestId = through ∧
        ∀ event ∈ next.committed.take opened, event.eventId ≤ through :=
      fun latestId found => ⟨isLatest latestId found, earlier latestId found⟩
    have sent : operationalEvents next.delivered <+: eventsAbove next.committed lastEventId := by
      show operationalEvents stream.delivered <+: _
      rw [phase.nothingSent]
      exact List.nil_prefix
    exact @phase_resetReplay lastEventId opened next through (latestEventId rows) started.upTo
      (started.replay.trans phase.noReplay) named noReset sent queued.symm

/-- A later answer of the history. -/
theorem EventStream.Replaying.continueReplay
    (phase : stream.Replaying lastEventId opened cursor through) (recorded : stream.Recorded opened)
    (noReplay : stream.subscriber.replay = []) (noHeld : stream.pull.held = [])
    (isPrefix : log <+: stream.committed) (isSuffix : rows <:+ log)
    (newest : ∃ event ∈ log, event.eventId = through)
    (inPlace : (replayEvents rows cursor).found = false → ∀ latest,
      (replayEvents rows cursor).latestEventId = some latest → latest ≤ through)
    (stays : (stream.subscriber.continueReplay (replayEvents rows cursor)).1.closed = false) :
    EventStream.Phase lastEventId opened { stream with
      subscriber := (stream.subscriber.continueReplay (replayEvents rows cursor)).1
      pull := .returned (stream.subscriber.continueReplay (replayEvents rows cursor)).2 } := by
  have ordered : Ascending eventId log := by
    obtain ⟨rest, isLonger⟩ := isPrefix
    have ascending := recorded.ascending
    rw [← isLonger] at ascending
    exact (List.pairwise_append.mp ascending).1
  have replayed := replayed_eq noHeld noReplay
  have noReset := phase.noReset
  have sent := phase.sent
  rw [replayed] at noReset sent
  rw [Subscriber.continueReplay, if_pos phase.started] at stays ⊢
  by_cases isFound : (replayEvents rows cursor).found = true
  · rw [if_pos isFound] at stays ⊢
    obtain ⟨-, isItems, -⟩ := replayEvents_found ordered isSuffix isFound
    refine phase.toThrough.buffer recorded phase.notDone phase.lower phase.upper noReset sent
      phase.queued ?_ (buffered_bufferReplay stays)
    rw [isItems]
    exact replayItems_eq recorded.ascending isPrefix newest phase.upper phase.upTo
  · rw [if_neg isFound]
    apply phase_resetReplay phase.upTo noReplay _ noReset _ phase.queued
    · intro latestId isLatest
      refine ⟨Nat.le_antisymm (inPlace (Bool.eq_false_iff.mpr isFound) latestId isLatest) ?_,
        phase.earlier⟩
      obtain ⟨event, member, same⟩ := newest
      rw [replayEvents_latestEventId] at isLatest
      rw [← same]
      exact (latestEventId_suffix ordered isSuffix isLatest).2 event member
    · rw [sent, ← eventsWithin_append_eventsAbove recorded.ascending phase.lower]
      exact List.prefix_append _ _

/-- An answer of the history is handled. -/
theorem EventStream.Phase.continueReplay (phase : stream.Phase lastEventId opened)
    (recorded : stream.Recorded opened) (counted : stream.subscriber.Counted)
    {replay : AdminEventReplay} (isAnswered : stream.pull = .answered replay)
    (inPlace : stream.ResetsInPlace .continueReplay)
    (stays : (stream.continueReplay replay).subscriber.closed = false) :
    (stream.continueReplay replay).Phase lastEventId opened := by
  have asking : stream.Asking := .answered replay isAnswered
  by_cases closed : stream.subscriber.closed = true
  · rw [EventStream.continueReplay, if_pos closed] at stays
    cases closed.symm.trans stays
  rw [EventStream.continueReplay, if_neg closed] at stays ⊢
  rcases phase.asking asking with ⟨phase, asks⟩ | ⟨cursor, through, phase, noReplay, asks⟩
  · rcases asks with isReading | ⟨log, rows, isPrefix, isSuffix, seen, isAnswer⟩
    · cases isAnswered.symm.trans isReading
    · cases isAnswered.symm.trans isAnswer
      exact phase.continueReplay recorded counted isPrefix isSuffix seen stays
  · rcases asks with isReading | ⟨log, rows, isPrefix, isSuffix, newest, isAnswer⟩
    · cases isAnswered.symm.trans isReading
    · cases isAnswered.symm.trans isAnswer
      exact phase.continueReplay recorded noReplay asking.held isPrefix isSuffix newest
        (fun notFound latest isLatest =>
          inPlace rfl _ (by rw [isAnswered]; rfl) phase.started notFound latest isLatest through
            phase.upTo) stays

/-! ## Every step -/

/-- What holds after any steps that reset in place. -/
structure EventStream.Resumable (lastEventId opened : Nat) (stream : EventStream) : Prop where
  recorded : stream.Recorded opened
  counted : stream.subscriber.Counted
  resumed : Resumed lastEventId stream.committed stream.delivered
  phase : stream.subscriber.closed = false → stream.Phase lastEventId opened

theorem Resumed.grow {longer : List AdminOperationalEvent} {delivered : List Frame}
    (resumed : Resumed lastEventId committed delivered) (isPrefix : committed <+: longer) :
    Resumed lastEventId longer delivered where
  upToReset := resumed.upToReset.trans (above_isPrefix isPrefix lastEventId)
  afterReset := fun front latest back split => by
    obtain ⟨isSublist, named⟩ := resumed.afterReset front latest back split
    exact ⟨isSublist.trans isPrefix.sublist, fun latestId isLatest =>
      (named latestId isLatest).trans (above_isPrefix isPrefix latestId)⟩

/-- A stream that is closed, or whose phase goes on. -/
theorem EventStream.Resumable.next {label : EventStep}
    (resumable : stream.Resumable lastEventId opened)
    {next : EventStream} (stepped : eventStream.step stream label = some next)
    (closes : next.subscriber.closed = true →
      stream.committed <+: next.committed ∧ next.delivered = stream.delivered)
    (goesOn : next.subscriber.closed = false → next.Phase lastEventId opened) :
    next.Resumable lastEventId opened := by
  have recorded := resumable.recorded.step stepped
  refine ⟨recorded, counted_step resumable.counted stepped, ?_, goesOn⟩
  cases isClosed : next.subscriber.closed with
  | true =>
    obtain ⟨isPrefix, sameDelivered⟩ := closes isClosed
    rw [sameDelivered]
    exact resumable.resumed.grow isPrefix
  | false => exact (goesOn isClosed).resumed recorded

theorem sendNext_closed {status : Option JsString}
    (isClosed : (stream.sendNext status).subscriber.closed = true)
    (wasOpen : stream.subscriber.closed = false) :
    (stream.sendNext status).delivered = stream.delivered := by
  rw [EventStream.sendNext] at isClosed ⊢
  split at isClosed
  case isTrue pending =>
    rw [if_pos pending]
    cases status with
    | some status => cases wasOpen.symm.trans isClosed
    | none => rfl
  case isFalse notPending =>
    rw [if_neg notPending]
    split at isClosed
    case isTrue noQueue => rw [if_pos noQueue]
    case isFalse =>
      rw [EventStream.shiftQueue] at isClosed
      split at isClosed
      · cases wasOpen.symm.trans isClosed
      · cases wasOpen.symm.trans isClosed

theorem closed_publishOperational {event : AdminOperationalEvent}
    (stays : (if subscriber.closed = true then subscriber
      else subscriber.publishOperational event).closed = false) :
    subscriber.closed = false ∧ (subscriber.publishOperational event).closed = false := by
  split at stays
  case isTrue closed => cases closed.symm.trans stays
  case isFalse notClosed => exact ⟨Bool.eq_false_iff.mpr notClosed, stays⟩

theorem closed_of_enqueue {eventId : Option Nat}
    (stays : (subscriber.enqueue frame eventId).closed = false) : subscriber.closed = false := by
  apply Bool.eq_false_iff.mpr
  intro isClosed
  rw [Subscriber.enqueue, if_pos isClosed, isClosed] at stays
  cases stays

/-- Every step keeps what was sent as it should be, if it resets in place. -/
theorem resumable_step {label : EventStep} (inPlace : stream.ResetsInPlace label)
    (resumable : stream.Resumable lastEventId opened) {next : EventStream}
    (stepped : eventStream.step stream label = some next) : next.Resumable lastEventId opened := by
  have recorded := resumable.recorded
  have counted := resumable.counted
  have recordedNext := recorded.step stepped
  have isStep : stream.step label = some next := stepped
  have quiet {other : EventStream} (sameCommitted : other.committed = stream.committed)
      (sameDelivered : other.delivered = stream.delivered) :
      stream.committed <+: other.committed ∧ other.delivered = stream.delivered :=
    ⟨sameCommitted ▸ List.prefix_refl _, sameDelivered⟩
  cases label with
  | commit event =>
    rw [EventStream.step] at isStep
    split at isStep
    case isFalse => cases isStep
    case isTrue =>
      cases isStep
      refine resumable.next stepped (fun _ => ⟨List.prefix_append _ _, rfl⟩) fun stays => ?_
      have beside : Beside opened stream { stream with
          rows := stream.rows ++ [event], committed := stream.committed ++ [event] } := {
        committed := List.prefix_append _ _
        delivered := rfl
        subscriber := rfl
        pull := .inl ⟨rfl, .inl rfl⟩
        queued := by
          have same : (stream.committed ++ [event]).take stream.published =
              stream.committed.take stream.published :=
            List.take_append_of_le_length recorded.published
          refine ⟨[], (List.append_nil _).symm, ?_⟩
          unfold EventStream.live
          dsimp only
          rw [same, List.append_nil] }
      exact (resumable.phase stays).after_beside beside recorded recordedNext
  | remove =>
    rw [EventStream.step] at isStep
    split at isStep
    case h_1 => cases isStep
    case h_2 oldest rows isRows =>
      cases isStep
      refine resumable.next stepped (fun _ => quiet rfl rfl) fun stays => ?_
      have beside : Beside opened stream { stream with rows } := {
        committed := List.prefix_refl _
        delivered := rfl
        subscriber := rfl
        pull := .inl ⟨rfl, .inl rfl⟩
        queued := ⟨[], (List.append_nil _).symm, (List.append_nil _).symm⟩ }
      exact (resumable.phase stays).after_beside beside recorded recordedNext
  | publish =>
    rw [EventStream.step] at isStep
    split at isStep
    case h_1 => cases isStep
    case h_2 event isNext =>
      cases isStep
      refine resumable.next stepped (fun _ => quiet rfl rfl) fun stays => ?_
      obtain ⟨wasOpen, stays⟩ := closed_publishOperational stays
      have notClosed : ¬ stream.subscriber.closed =
          true := by rw [wasOpen]; exact Bool.false_ne_true
      rw [if_neg notClosed] at recordedNext ⊢
      exact (resumable.phase wasOpen).after_beside (beside_publish recorded isNext stays) recorded
        recordedNext
  | publishPerformance status =>
    cases isStep
    refine resumable.next stepped (fun _ => quiet rfl rfl) fun stays => ?_
    have wasOpen := closed_of_enqueue stays
    rcases @liveEvents_enqueue stream.subscriber (.performance status) none with isClosed | isNew
    · cases isClosed.symm.trans stays
    · exact (resumable.phase wasOpen).after_beside
        (@beside_enqueue opened stream ⟨.performance status, true, none⟩ _ rfl
          (by rw [isNew])) recorded recordedNext
  | heartbeat =>
    cases isStep
    refine resumable.next stepped (fun _ => quiet rfl rfl) fun stays => ?_
    have wasOpen : stream.subscriber.closed = false := by
      apply Bool.eq_false_iff.mpr
      intro isClosed
      have stays : stream.subscriber.enqueueHeartbeat.closed = false := stays
      rw [Subscriber.enqueueHeartbeat, if_pos isClosed, isClosed] at stays
      cases stays
    have notClosed : ¬ stream.subscriber.closed = true := by rw [wasOpen]; exact Bool.false_ne_true
    by_cases busy : stream.subscriber.queue ≠ [] ∨ stream.subscriber.replay ≠ [] ∨
        stream.subscriber.performancePending = true
    · have same : stream.subscriber.enqueueHeartbeat = stream.subscriber := by
        rw [Subscriber.enqueueHeartbeat, if_neg notClosed, if_pos busy]
      rw [same] at recordedNext ⊢
      exact (resumable.phase wasOpen).after_beside
        (@beside_touch opened stream stream.subscriber stream.published [] rfl
          (List.append_nil _).symm (List.append_nil _).symm) recorded recordedNext
    · have isNew : stream.subscriber.enqueueHeartbeat = { stream.subscriber with
          queue := stream.subscriber.queue ++ [⟨.keepAlive, false, none⟩] } := by
        rw [Subscriber.enqueueHeartbeat, if_neg notClosed, if_neg busy]
      exact (resumable.phase wasOpen).after_beside
        (@beside_enqueue opened stream ⟨.keepAlive, false, none⟩ _ rfl
          (by rw [isNew])) recorded recordedNext
  | abort =>
    cases isStep
    refine resumable.next stepped (fun _ => quiet rfl rfl) fun stays => ?_
    cases Subscriber.closed_close.symm.trans stays
  | pull =>
    rw [EventStream.step] at isStep
    split at isStep
    case isFalse => cases isStep
    case isTrue isIdle =>
      cases isStep
      have sameDelivered : stream.startPull.delivered = stream.delivered := by
        rw [EventStream.startPull]
        split
        · rfl
        · split <;> rfl
      refine resumable.next stepped
        (fun _ => quiet sameRecord_startPull.committed sameDelivered) fun stays => ?_
      have wasOpen : stream.subscriber.closed = false := by
        apply Bool.eq_false_iff.mpr
        intro isClosed
        rw [EventStream.startPull, if_pos isClosed] at stays
        cases isClosed.symm.trans stays
      exact (resumable.phase wasOpen).startPull isIdle wasOpen
  | read =>
    rw [EventStream.step] at isStep
    split at isStep
    case h_1 cursor isReading =>
      cases isStep
      exact resumable.next stepped (fun _ => quiet rfl rfl) fun stays =>
        (resumable.phase stays).read recorded isReading
    case h_2 => cases isStep
  | readFails =>
    rw [EventStream.step] at isStep
    split at isStep
    case h_1 =>
      cases isStep
      refine resumable.next stepped (fun _ => quiet rfl rfl) fun stays => ?_
      cases Subscriber.closed_close.symm.trans stays
    case h_2 => cases isStep
  | continueReplay =>
    rw [EventStream.step] at isStep
    split at isStep
    case h_1 replay isAnswered =>
      cases isStep
      have sameDelivered : (stream.continueReplay replay).delivered = stream.delivered := by
        rw [EventStream.continueReplay]
        split <;> rfl
      refine resumable.next stepped
        (fun _ => quiet (sameRecord_continueReplay replay).committed sameDelivered) fun stays => ?_
      have wasOpen : stream.subscriber.closed = false := by
        apply Bool.eq_false_iff.mpr
        intro isClosed
        rw [EventStream.continueReplay, if_pos isClosed] at stays
        cases isClosed.symm.trans stays
      exact (resumable.phase wasOpen).continueReplay recorded counted isAnswered inPlace stays
    case h_2 => cases isStep
  | resumePull status =>
    rw [EventStream.step] at isStep
    split at isStep
    case h_1 frame isReturned =>
      cases isStep
      by_cases isClosed : stream.subscriber.closed = true
      · have ended : stream.resumePull frame status = stream.endPull := by
          unfold EventStream.resumePull
          rw [if_pos isClosed]
        rw [ended] at stepped ⊢
        refine resumable.next stepped (fun _ => quiet rfl rfl) fun stays => ?_
        cases isClosed.symm.trans stays
      · have wasOpen := Bool.eq_false_iff.mpr isClosed
        cases frame with
        | some frame =>
          have sends : stream.resumePull (some frame) status = stream.deliver frame := by
            unfold EventStream.resumePull
            rw [if_neg isClosed]
          rw [sends] at stepped ⊢
          refine resumable.next stepped (fun nowClosed => ?_) fun _ =>
            (resumable.phase wasOpen).deliver isReturned
          cases wasOpen.symm.trans nowClosed
        | none =>
          have sends : stream.resumePull none status = stream.sendNext status := by
            unfold EventStream.resumePull
            rw [if_neg isClosed]
          rw [sends] at stepped ⊢
          exact resumable.next stepped (fun nowClosed =>
            quiet (sameRecord_sendNext status).committed (sendNext_closed nowClosed wasOpen))
            fun stays => (resumable.phase wasOpen).sendNext counted isReturned status stays
    case h_2 => cases isStep
  | wake =>
    rw [EventStream.step] at isStep
    split at isStep
    case h_1 isWoken =>
      cases isStep
      by_cases isClosed : stream.subscriber.closed = true
      · rw [if_pos isClosed] at stepped ⊢
        refine resumable.next stepped (fun _ => quiet rfl rfl) fun stays => ?_
        cases isClosed.symm.trans stays
      · have wasOpen := Bool.eq_false_iff.mpr isClosed
        rw [if_neg isClosed] at stepped ⊢
        refine resumable.next stepped (fun nowClosed => ?_) fun _ =>
          (resumable.phase wasOpen).wake counted isWoken
        rw [EventStream.shiftQueue] at nowClosed
        split at nowClosed
        · cases wasOpen.symm.trans nowClosed
        · cases wasOpen.symm.trans nowClosed
    case h_2 => cases isStep

/-! ## Every run -/

theorem resumable_start {published : Nat}
    (ascending : Ascending eventId committed) (isSuffix : rows <:+ committed)
    (isPublished : published ≤ committed.length) :
    (EventStream.start (some lastEventId) rows committed published).Resumable lastEventId
      published where
  recorded := {
    ascending := ascending
    rows := isSuffix
    published := isPublished
    opened := Nat.le_refl _
    latest := fun _ none => nomatch none }
  counted := Subscriber.counted_start _
  resumed := resumed_of_noReset (fun _ member => nomatch member) List.nil_prefix
  phase := fun _ => .starting {
    notStarted := rfl
    notDone := rfl
    readsFrom := rfl
    upTo := rfl
    noFrame := rfl
    noReplay := rfl
    nothingSent := rfl
    queued := by
      show [] = (committed.take published).drop published
      rw [List.drop_take, Nat.sub_self, List.take_zero]
    pull := .inl rfl }

/-- A stream that resumes after an event sends the committed events above it in their order, as
far as it has come, and after a reset frame those above the event it names; where it waits,
everything that was committed and published has been sent. What waits is within the limits. -/
theorem eventStream_resumed {published : Nat} {rows committed : List AdminOperationalEvent}
    {labels : List EventStep} (ascending : Ascending eventId committed)
    (isSuffix : rows <:+ committed) (isPublished : published ≤ committed.length)
    (along : eventStream.Along EventStream.ResetsInPlace
      (.start (some lastEventId) rows committed published) labels)
    (ran : eventStream.run (.start (some lastEventId) rows committed published) labels =
      some stream) :
    Resumed lastEventId stream.committed stream.delivered ∧ stream.subscriber.Bounded ∧
      (stream.subscriber.closed = false → stream.pull = .waiting →
        stream.published = stream.committed.length → stream.CaughtUp lastEventId) := by
  have kept : ∀ {state next : EventStream} {label : EventStep}, state.ResetsInPlace label →
      state.Resumable lastEventId published → eventStream.step state label = some next →
      next.Resumable lastEventId published :=
    fun inPlace resumable stepped => resumable_step inPlace resumable stepped
  have resumable := Concurrent.invariant_of_along kept along ran
    (resumable_start ascending isSuffix isPublished)
  have counted := resumable.counted
  have events := counted.eventCap
  have bytes := counted.byteCap
  rw [counted.events] at events
  rw [counted.bytes, counted.replayBytes] at bytes
  refine ⟨resumable.resumed, ⟨events, bytes⟩, fun isOpen isWaiting allPublished => ?_⟩
  exact (resumable.phase isOpen).caughtUp resumable.recorded isWaiting allPublished

/-- The events with the ids from one up to a number. -/
def firstEvents (count : Nat) : List AdminOperationalEvent :=
  (List.range' 1 count).map fun eventId => ⟨eventId, []⟩

theorem ascending_firstEvents (count : Nat) :
    Ascending eventId (firstEvents count) := by
  apply List.pairwise_map.mpr
  exact List.pairwise_lt_range'

/-- One event is replayed, and one that is committed meanwhile is sent after it. -/
theorem eventStream_resumed_two_events :
    (eventStream.run (.start (some 1) (firstEvents 2) (firstEvents 2) 2)
        [.pull, .read, .commit ⟨3, []⟩, .publish, .continueReplay, .resumePull none, .pull,
          .resumePull (some []), .pull, .resumePull none]).map EventStream.delivered =
      some [.operational ⟨2, []⟩, .performance [], .operational ⟨3, []⟩] ∧
    Resumed 1 (firstEvents 3) [.operational ⟨2, []⟩, .performance [], .operational ⟨3, []⟩] := by
  have ran : (eventStream.run (.start (some 1) (firstEvents 2) (firstEvents 2) 2)
        [.pull, .read, .commit ⟨3, []⟩, .publish, .continueReplay, .resumePull none, .pull,
          .resumePull (some []), .pull, .resumePull none]).map
        (fun stream => (stream.committed, stream.delivered)) =
      some (firstEvents 3, [.operational ⟨2, []⟩, .performance [], .operational ⟨3, []⟩]) := by
    decide
  obtain ⟨stream, isStream, isState⟩ := Option.map_eq_some_iff.mp ran
  obtain ⟨isCommitted, isDelivered⟩ := Prod.mk.inj isState
  have resumed := (eventStream_resumed (ascending_firstEvents 2) (List.suffix_refl _) (by decide)
    (by decide) isStream).1
  rw [isCommitted, isDelivered] at resumed
  refine ⟨?_, resumed⟩
  rw [isStream, Option.map_some, isDelivered]

/-- A replay of two batches: the rows it has come to are removed and another event is committed
before the second batch is read. -/
def removedCursor : List EventStep :=
  [.pull, .read, .continueReplay, .resumePull none] ++
    (List.replicate 31 [EventStep.pull, .resumePull none]).flatten ++
    List.replicate 34 .remove ++
    [.commit ⟨41, []⟩, .publish, .pull, .read, .continueReplay, .resumePull none, .pull,
      .resumePull (some []), .pull, .resumePull none]

set_option maxRecDepth 20000 in
/-- The event that a reset frame names is sent after it. -/
theorem not_eventStream_resumed : ¬ ∀ (lastEventId published : Nat)
    (rows committed : List AdminOperationalEvent) (labels : List EventStep) (stream : EventStream),
    Ascending eventId committed → rows <:+ committed →
    published ≤ committed.length →
    eventStream.run (.start (some lastEventId) rows committed published) labels = some stream →
    Resumed lastEventId stream.committed stream.delivered := by
  intro always
  have ran : (eventStream.run (.start (some 1) (firstEvents 40) (firstEvents 40) 40)
      removedCursor).map
        (fun stream => (stream.delivered.drop 32, eventsAbove stream.committed 41)) =
      some ([.reset (some 41), .performance [], .operational ⟨41, []⟩], []) := by
    decide
  obtain ⟨stream, isStream, isState⟩ := Option.map_eq_some_iff.mp ran
  obtain ⟨isDelivered, noneAbove⟩ := Prod.mk.inj isState
  have resumed := always 1 40 (firstEvents 40) (firstEvents 40) removedCursor stream
    (ascending_firstEvents 40) (List.suffix_refl _) (by decide) isStream
  have split : stream.delivered = stream.delivered.take 32 ++
      .reset (some 41) :: [.performance [], .operational ⟨41, []⟩] := by
    rw [← isDelivered, List.take_append_drop]
  have named := (resumed.afterReset _ _ _ split).2 41 rfl
  rw [noneAbove] at named
  cases List.prefix_nil.mp named

end GhcGateway.Admin
