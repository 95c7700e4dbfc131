/-
# What an open stream is doing

A subscriber that resumes after an event first waits for the first answer of the history. Then
the history is replayed up to the newest event this answer knew, and after it what was published
above that event is sent. A history that cannot be continued is given up, with a reset frame.
Each phase says what has been sent and what is queued, and with it the subscriber gets the later
events in their order, none twice and none left out.
-/

import GhcGateway.Admin.EventQueue

namespace GhcGateway.Admin

open Library

variable {through : Nat}

/-! ## What is to be shown -/

abbrev eventsAbove (log : List AdminOperationalEvent) (low : Nat) : List AdminOperationalEvent :=
  above AdminOperationalEvent.eventId log low

/-- The events above one id, up to another. -/
abbrev eventsWithin (log : List AdminOperationalEvent) (low high : Nat) :
    List AdminOperationalEvent :=
  within AdminOperationalEvent.eventId log low high

theorem eventsWithin_append_eventsAbove {log : List AdminOperationalEvent} {low high : Nat}
    (ascending : Ascending AdminOperationalEvent.eventId log) (ordered : low ≤ high) :
    eventsWithin log low high ++ eventsAbove log high = eventsAbove log low :=
  ascending.within_append_above ordered

/-- What was sent to a subscriber that resumes after an event. -/
structure Resumed (lastEventId : Nat) (committed : List AdminOperationalEvent)
    (delivered : List Frame) : Prop where
  upToReset : operationalEvents (delivered.takeWhile fun frame => !frame.isReset) <+:
    eventsAbove committed lastEventId
  afterReset : ∀ front latest back, delivered = front ++ .reset latest :: back →
    (operationalEvents back).Sublist committed ∧
      ∀ latestId, latest = some latestId →
        operationalEvents back <+: eventsAbove committed latestId

/-- Nothing is missing where the stream waits for the next event. -/
structure EventStream.CaughtUp (lastEventId : Nat) (stream : EventStream) : Prop where
  noReset : (∀ frame ∈ stream.delivered, frame.isReset = false) →
    operationalEvents stream.delivered = eventsAbove stream.committed lastEventId
  reset : ∀ front latestId back, stream.delivered = front ++ .reset (some latestId) :: back →
    operationalEvents back = eventsAbove stream.committed latestId

/-- The limits on what waits to be sent. -/
structure Subscriber.Bounded (subscriber : Subscriber) : Prop where
  events : (countedFrames subscriber.queue).length + subscriber.replay.length ≤ eventQueueCap
  bytes : totalBytes (countedFrames subscriber.queue) + totalBytes subscriber.replay ≤
    eventQueueBytes

/-- The answer of the history that is handled next. -/
def Pull.answer? : Pull → Option AdminEventReplay
  | answered replay => some replay
  | _ => none

/-- Where a later read has found its cursor removed, nothing was committed since the first
read. -/
def EventStream.ResetsInPlace (stream : EventStream) (label : EventStep) : Prop :=
  label = .continueReplay → ∀ replay ∈ stream.pull.answer?,
    stream.subscriber.replayStarted = true → replay.found = false →
      ∀ latest ∈ replay.latestEventId, ∀ through ∈ stream.subscriber.replayThrough, latest ≤ through

instance decidableResetsInPlace (stream : EventStream) (label : EventStep) :
    Decidable (stream.ResetsInPlace label) :=
  inferInstanceAs (Decidable (label = .continueReplay → ∀ replay ∈ stream.pull.answer?,
    stream.subscriber.replayStarted = true → replay.found = false →
      ∀ latest ∈ replay.latestEventId, ∀ through ∈ stream.subscriber.replayThrough,
        latest ≤ through))

/-! ## Frames -/

theorem operationalEvents_append (frames more : List Frame) :
    operationalEvents (frames ++ more) = operationalEvents frames ++ operationalEvents more :=
  List.filterMap_append

theorem operationalEvents_operational (events : List AdminOperationalEvent) :
    operationalEvents (events.map Frame.operational) = events := by
  induction events with
  | nil => rfl
  | cons event events ih =>
    show event :: operationalEvents (events.map Frame.operational) = event :: events
    rw [ih]

def Subscriber.liveEvents (subscriber : Subscriber) : List AdminOperationalEvent :=
  operationalEvents (subscriber.queue.map QueuedFrame.frame)

def Pull.held : Pull → List Frame
  | returned (some frame) => [frame]
  | _ => []

/-- What was published since the stream was opened, above what is replayed. -/
def EventStream.live (opened : Nat) (through : Option Nat) (stream : EventStream) :
    List AdminOperationalEvent :=
  let published := (stream.committed.take stream.published).drop opened
  match through with
  | none => published
  | some through => eventsAbove published through

/-! ## Phases -/

/-- The history is asked from an id, by a read that saw a log of a given kind. -/
def EventStream.Asks (cursor : Nat) (saw : List AdminOperationalEvent → Prop)
    (stream : EventStream) : Prop :=
  stream.pull = .reading cursor ∨
    ∃ log rows, log <+: stream.committed ∧ rows <:+ log ∧ saw log ∧
      stream.pull = .answered (replayEvents rows cursor)

/-- No answer of the history has been handled. -/
structure EventStream.Starting (lastEventId opened : Nat) (stream : EventStream) : Prop where
  notStarted : stream.subscriber.replayStarted = false
  notDone : stream.subscriber.replayDone = false
  readsFrom : stream.subscriber.replayCursor = some lastEventId
  upTo : stream.subscriber.replayThrough = none
  noFrame : stream.subscriber.initialFrame = none
  noReplay : stream.subscriber.replay = []
  nothingSent : stream.delivered = []
  queued : stream.subscriber.liveEvents = stream.live opened none
  pull : stream.pull = .idle ∨ stream.Asks lastEventId fun log => opened ≤ log.length

/-- The newest event the first read saw, which nothing published before is above. -/
structure EventStream.Through (opened through : Nat) (stream : EventStream) : Prop where
  started : stream.subscriber.replayStarted = true
  noFrame : stream.subscriber.initialFrame = none
  upTo : stream.subscriber.replayThrough = some through
  newest : ∃ event ∈ stream.committed, event.eventId = through
  earlier : ∀ event ∈ stream.committed.take opened, event.eventId ≤ through

/-- The frames that were sent or are about to be. -/
def EventStream.replayed (stream : EventStream) : List Frame :=
  stream.delivered ++ (stream.pull.held ++ stream.subscriber.replay)

structure EventStream.Replaying (lastEventId opened cursor through : Nat) (stream : EventStream) :
    Prop extends stream.Through opened through where
  notDone : stream.subscriber.replayDone = false
  readsFrom : stream.subscriber.replayCursor = some cursor
  lower : lastEventId ≤ cursor
  upper : cursor ≤ through
  noReset : ∀ frame ∈ stream.replayed, frame.isReset = false
  sent : operationalEvents stream.replayed = eventsWithin stream.committed lastEventId cursor
  queued : stream.subscriber.liveEvents = stream.live opened (some through)
  pull : stream.pull = .idle ∨ (∃ frame, stream.pull = .returned (some frame)) ∨
    stream.subscriber.replay = [] ∧
      stream.Asks cursor fun log => ∃ event ∈ log, event.eventId = through

/-- Where a pull may be that has nothing more to replay. -/
inductive EventStream.Draining (stream : EventStream) : Prop
  | returned (isReturned : stream.pull = .returned none)
  | waiting (isWaiting : stream.pull = .waiting) (noQueue : stream.subscriber.queue = [])
  | woken (isWoken : stream.pull = .woken)

/-- The replay has been read to its end. -/
structure EventStream.Live (lastEventId opened through : Nat) (stream : EventStream) : Prop
    extends stream.Through opened through where
  done : stream.subscriber.replayDone = true
  lower : lastEventId ≤ through
  noReset : ∀ frame ∈ stream.replayed, frame.isReset = false
  sent : operationalEvents stream.replayed ++ stream.subscriber.liveEvents =
    eventsWithin stream.committed lastEventId through ++ stream.live opened (some through)
  pull : stream.pull = .idle ∨ (∃ frame, stream.pull = .returned (some frame)) ∨
    stream.subscriber.replay = [] ∧ stream.Draining

/-- The reset frame is sent next. -/
structure EventStream.ResetPending (lastEventId opened through : Nat) (latest : Option Nat)
    (stream : EventStream) : Prop where
  pull : stream.pull = .returned (some (.reset latest))
  noReset : ∀ frame ∈ stream.delivered, frame.isReset = false
  sent : operationalEvents stream.delivered <+: eventsAbove stream.committed lastEventId
  queued : stream.subscriber.liveEvents = stream.live opened (some through)

structure EventStream.ResetSent (lastEventId opened through : Nat) (latest : Option Nat)
    (front back : List Frame) (stream : EventStream) : Prop where
  pull : stream.pull = .idle ∨ stream.Draining
  split : stream.delivered = front ++ .reset latest :: back
  noReset : ∀ frame ∈ front ++ back, frame.isReset = false
  before : operationalEvents front <+: eventsAbove stream.committed lastEventId
  after : operationalEvents back ++ stream.subscriber.liveEvents = stream.live opened (some through)

/-- The history was given up. -/
structure EventStream.Reset (lastEventId opened through : Nat) (latest : Option Nat)
    (stream : EventStream) : Prop where
  done : stream.subscriber.replayDone = true
  noFrame : stream.subscriber.initialFrame = none
  upTo : stream.subscriber.replayThrough = some through
  noReplay : stream.subscriber.replay = []
  named : ∀ latestId, latest = some latestId → latestId = through ∧
    ∀ event ∈ stream.committed.take opened, event.eventId ≤ through
  progress : stream.ResetPending lastEventId opened through latest ∨
    ∃ front back, stream.ResetSent lastEventId opened through latest front back

inductive EventStream.Phase (lastEventId opened : Nat) (stream : EventStream) : Prop
  | starting (phase : stream.Starting lastEventId opened)
  | replaying (cursor through : Nat) (phase : stream.Replaying lastEventId opened cursor through)
  | live (through : Nat) (phase : stream.Live lastEventId opened through)
  | reset (through : Nat) (latest : Option Nat)
      (phase : stream.Reset lastEventId opened through latest)

structure EventStream.Recorded (opened : Nat) (stream : EventStream) : Prop where
  ascending : Ascending AdminOperationalEvent.eventId stream.committed
  rows : stream.rows <:+ stream.committed
  published : stream.published ≤ stream.committed.length
  opened : opened ≤ stream.published
  latest : ∀ latest, stream.subscriber.latestLiveEventId = some latest →
    ∃ event ∈ stream.committed.take stream.published, event.eventId = latest

variable {lastEventId opened : Nat} {stream next : EventStream}

/-! ## What the phases give -/

/-- Nothing published before the stream was opened is above the replay. -/
theorem EventStream.live_eq (earlier : ∀ event ∈ stream.committed.take opened,
    event.eventId ≤ through) (fits : opened ≤ stream.published) :
    stream.live opened (some through) =
      eventsAbove (stream.committed.take stream.published) through := by
  have split : (stream.committed.take stream.published).take opened ++
      (stream.committed.take stream.published).drop opened =
        stream.committed.take stream.published := List.take_append_drop _ _
  show eventsAbove ((stream.committed.take stream.published).drop opened) through = _
  rw [List.take_take, Nat.min_eq_left fits] at split
  rw [eventsAbove, eventsAbove, ← split, above_append, above_eq_nil earlier, List.nil_append, split]

theorem EventStream.live_isPrefix (earlier : ∀ event ∈ stream.committed.take opened,
    event.eventId ≤ through) (fits : opened ≤ stream.published) :
    stream.live opened (some through) <+: eventsAbove stream.committed through := by
  rw [live_eq earlier fits]
  exact above_isPrefix (List.take_prefix _ _) through

theorem EventStream.live_sublist : (stream.live opened (some through)).Sublist stream.committed :=
  List.filter_sublist.trans ((List.drop_sublist _ _).trans (List.take_sublist _ _))

theorem takeWhile_noReset {frames : List Frame}
    (noReset : ∀ frame ∈ frames, frame.isReset = false) :
    (frames.takeWhile fun frame => !frame.isReset) = frames := by
  rw [List.takeWhile_eq_self_iff]
  intro frame member
  rw [noReset frame member]
  rfl

/-- Frames without a reset, of which the events are the first above an id. -/
theorem resumed_of_noReset {committed : List AdminOperationalEvent} {delivered : List Frame}
    (noReset : ∀ frame ∈ delivered, frame.isReset = false)
    (sent : operationalEvents delivered <+: eventsAbove committed lastEventId) :
    Resumed lastEventId committed delivered where
  upToReset := by
    rw [takeWhile_noReset noReset]
    exact sent
  afterReset := fun front latest back split => by
    have isReset := noReset (.reset latest)
      (by rw [split]; exact List.mem_append_right front List.mem_cons_self)
    cases isReset

/-- What was sent before the rest of the replay and of the queue. -/
theorem operationalEvents_delivered_isPrefix (stream : EventStream) :
    operationalEvents stream.delivered <+: operationalEvents stream.replayed := by
  rw [EventStream.replayed, operationalEvents_append]
  exact List.prefix_append _ _

theorem reset_append_unique {front back other : List Frame} {latest otherLatest : Option Nat}
    {rest : List Frame} (noReset : ∀ frame ∈ front ++ back, frame.isReset = false)
    (split : front ++ .reset latest :: back = other ++ .reset otherLatest :: rest) :
    front = other ∧ latest = otherLatest ∧ back = rest := by
  rcases List.append_eq_append_iff.mp split with ⟨more, isOther, isBack⟩ | ⟨more, isFront, isRest⟩
  · cases more with
    | nil =>
      have same := List.cons.inj isBack
      rw [List.append_nil] at isOther
      exact ⟨isOther.symm, Frame.reset.inj same.1, same.2⟩
    | cons first more =>
      have same := (List.cons.inj isBack).2
      have isReset := noReset (.reset otherLatest)
        (by rw [same]; exact List.mem_append_right _ (List.mem_append_right _ List.mem_cons_self))
      cases isReset
  · cases more with
    | nil =>
      have same := List.cons.inj isRest
      rw [List.append_nil] at isFront
      exact ⟨isFront, (Frame.reset.inj same.1).symm, same.2.symm⟩
    | cons first more =>
      have same := (List.cons.inj isRest).1
      have isReset := noReset first
        (by rw [isFront]; exact List.mem_append_left _ (List.mem_append_right _ List.mem_cons_self))
      rw [← same] at isReset
      cases isReset

/-- In every phase, what was sent is as it should be. -/
theorem EventStream.Phase.resumed (phase : stream.Phase lastEventId opened)
    (recorded : stream.Recorded opened) : Resumed lastEventId stream.committed
      stream.delivered := by
  cases phase with
  | starting phase =>
    rw [phase.nothingSent]
    exact resumed_of_noReset (fun _ member => nomatch member) (List.nil_prefix)
  | replaying cursor through phase =>
    apply resumed_of_noReset
    · exact fun frame member => phase.noReset frame (List.mem_append_left _ member)
    · apply (operationalEvents_delivered_isPrefix stream).trans
      rw [phase.sent, ← eventsWithin_append_eventsAbove recorded.ascending phase.lower]
      exact List.prefix_append _ _
  | live through phase =>
    apply resumed_of_noReset
    · exact fun frame member => phase.noReset frame (List.mem_append_left _ member)
    · apply (operationalEvents_delivered_isPrefix stream).trans
      apply (List.prefix_append _ stream.subscriber.liveEvents).trans
      rw [phase.sent, ← eventsWithin_append_eventsAbove recorded.ascending phase.lower]
      exact (List.prefix_append_right_inj _).mpr (live_isPrefix phase.earlier recorded.opened)
  | reset through latest phase =>
    rcases phase.progress with pending | ⟨front, back, sent⟩
    · exact resumed_of_noReset pending.noReset pending.sent
    · have noFront : ∀ frame ∈ front, frame.isReset = false :=
        fun frame member => sent.noReset frame (List.mem_append_left _ member)
      rw [sent.split]
      constructor
      · have stops : (front ++ .reset latest :: back).takeWhile (fun frame => !frame.isReset) =
            front := by
          rw [List.takeWhile_append_of_pos, List.takeWhile_cons_of_neg, List.append_nil]
          · nofun
          · intro frame member
            rw [noFront frame member]
            rfl
        rw [stops]
        exact sent.before
      · intro other otherLatest rest split
        obtain ⟨rfl, rfl, rfl⟩ := reset_append_unique sent.noReset split
        have isPrefix : operationalEvents back <+: stream.live opened (some through) := by
          rw [← sent.after]
          exact List.prefix_append _ _
        refine ⟨isPrefix.sublist.trans live_sublist, fun latestId isLatest => ?_⟩
        obtain ⟨rfl, earlier⟩ := phase.named latestId isLatest
        exact isPrefix.trans (live_isPrefix earlier recorded.opened)

/-- Where a stream waits for the next event, nothing that was published is missing. -/
theorem EventStream.Phase.caughtUp (phase : stream.Phase lastEventId opened)
    (recorded : stream.Recorded opened) (isWaiting : stream.pull = .waiting)
    (allPublished : stream.published = stream.committed.length) :
    stream.CaughtUp lastEventId := by
  have all : stream.committed.take stream.published = stream.committed := by
    rw [allPublished, List.take_length]
  have noLive (noQueue : stream.subscriber.queue = []) : stream.subscriber.liveEvents = [] := by
    rw [Subscriber.liveEvents, noQueue]
    rfl
  have noQueue (draining : stream.Draining) : stream.subscriber.queue = [] := by
    cases draining with
    | returned isReturned =>
      rw [isWaiting] at isReturned
      cases isReturned
    | waiting _ noQueue => exact noQueue
    | woken isWoken =>
      rw [isWaiting] at isWoken
      cases isWoken
  cases phase with
  | starting phase =>
    rcases phase.pull with isIdle | isReading | ⟨_, _, _, _, _, isAnswered⟩
    · cases isWaiting.symm.trans isIdle
    · cases isWaiting.symm.trans isReading
    · cases isWaiting.symm.trans isAnswered
  | replaying cursor through phase =>
    rcases phase.pull with isIdle | ⟨_, isReturned⟩ | ⟨-, isReading | ⟨_, _, _, _, _, isAnswered⟩⟩
    · cases isWaiting.symm.trans isIdle
    · cases isWaiting.symm.trans isReturned
    · cases isWaiting.symm.trans isReading
    · cases isWaiting.symm.trans isAnswered
  | live through phase =>
    rcases phase.pull with isIdle | ⟨_, isReturned⟩ | ⟨noReplay, draining⟩
    · cases isWaiting.symm.trans isIdle
    · cases isWaiting.symm.trans isReturned
    · have replayed : stream.replayed = stream.delivered := by
        rw [replayed, isWaiting, noReplay]
        exact List.append_nil _
      constructor
      · intro _
        have sent := phase.sent
        rw [replayed, noLive (noQueue draining), List.append_nil] at sent
        rw [sent, live_eq phase.earlier recorded.opened, all,
          eventsWithin_append_eventsAbove recorded.ascending phase.lower]
      · intro front latestId back split
        have noReset := phase.noReset (.reset (some latestId)) (by
          rw [replayed, split]
          exact List.mem_append_right front List.mem_cons_self)
        cases noReset
  | reset through latest phase =>
    rcases phase.progress with pending | ⟨front, back, sent⟩
    · cases isWaiting.symm.trans pending.pull
    · rcases sent.pull with isIdle | draining
      · cases isWaiting.symm.trans isIdle
      · constructor
        · intro noReset
          have isReset := noReset (.reset latest) (by
            rw [sent.split]
            exact List.mem_append_right front List.mem_cons_self)
          cases isReset
        · intro otherFront latestId otherBack split
          rw [sent.split] at split
          obtain ⟨rfl, rfl, rfl⟩ := reset_append_unique sent.noReset split
          obtain ⟨rfl, earlier⟩ := phase.named latestId rfl
          have after := sent.after
          rw [noLive (noQueue draining), List.append_nil, live_eq earlier recorded.opened,
            all] at after
          exact after

end GhcGateway.Admin
