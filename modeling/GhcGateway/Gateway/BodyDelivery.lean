/-
# Delivery of a response body

What has been read, followed by what the stream has queued, is what the producer was told is
accepted. An end that is neither an error nor a cancellation comes after the last of it. A waiting
call of `enqueue` is the one whose chunk is the lookahead, and it settles with it.
-/

import GhcGateway.Gateway.BodyWriter

namespace GhcGateway.Gateway.BodyWriter

open Library ReadableStream

variable {α : Type} {stream : ReadableStream α} {chunk : α}

/-! ## The invariant -/

/-- What holds of a writer whatever its controller is about to do. -/
structure Sound (writer : BodyWriter α) : Prop where
  stream : writer.stream.WellFormed
  openStream : writer.closed = false → writer.stream.isOpen = true
  closedStream : writer.closed = true → writer.stream.isOpen = false ∧ writer.lookahead = none
  waits : writer.settleLookahead = writer.lookahead
  alone : writer.waitingProducer = none ∧ writer.woken = none
  ahead : writer.lookahead ≠ none → writer.outstandingPulls = 0
  settled : writer.calls = writer.outcomes.map Prod.fst ++ writer.lookahead.toList
  queued : writer.stream.state = .readable →
    writer.reads ++ writer.stream.queue = acceptedOf writer.outcomes
  complete : writer.stream.state = .closed → writer.cancelled = false →
    writer.reads = acceptedOf writer.outcomes
  isPrefix : writer.reads <+: acceptedOf writer.outcomes
  notThrown : writer.thrown = false

/-- The writer knows of the reads that wait, or the controller is going to ask. -/
def Asked (writer : BodyWriter α) : Prop :=
  writer.stream.shouldCallPull = true →
    ¬ (writer.stream.pulling = true ∧ writer.stream.pullAgain = true) → 0 < writer.outstandingPulls

/-- The invariant between two steps. -/
structure Consistent (writer : BodyWriter α) : Prop extends Sound writer where
  asked : writer.Asked

theorem consistent_new : (new : BodyWriter α).Consistent where
  stream := wellFormed_new
  openStream _ := rfl
  closedStream isClosed := by cases isClosed
  waits := rfl
  alone := ⟨rfl, rfl⟩
  ahead apart := absurd rfl apart
  settled := rfl
  queued _ := rfl
  complete isClosed := by cases isClosed
  isPrefix := List.prefix_rfl
  notThrown := rfl
  asked should := by cases should

/-! ## What the pieces do -/

variable {writer : BodyWriter α}

theorem wakeProducer_of_none (alone : writer.waitingProducer = none) :
    writer.wakeProducer = writer := by
  rw [wakeProducer, alone]

/-- A chunk goes to the first read or into the queue. -/
theorem deliver_of_open (pull : BodyWriter α → BodyWriter α) (writer : BodyWriter α)
    (isOpen : writer.stream.isOpen = true) (chunk : α) :
    deliver pull writer chunk =
      (answer pull
        { writer with
          committed := true
          reads := if 0 < writer.stream.requests then writer.reads ++ [chunk] else writer.reads }
        (writer.stream.take chunk).callPullIfNeeded).settle true := by
  simp [deliver, ReadableStream.enqueue, isOpen]

theorem pull_of_none (writer : BodyWriter α) (noAhead : writer.lookahead = none)
    (alone : writer.waitingProducer = none) :
    pull writer = { writer with outstandingPulls := writer.outstandingPulls + 1 } := by
  rw [pull, noAhead]
  exact wakeProducer_of_none alone

/-- Without a lookahead a pull is only counted. -/
theorem answer_of_none (writer : BodyWriter α) (noAhead : writer.lookahead = none)
    (alone : writer.waitingProducer = none) (asked : ReadableStream α × Bool) :
    answer pull writer asked =
      { writer with
        stream := asked.1
        outstandingPulls := writer.outstandingPulls + if asked.2 then 1 else 0 } := by
  have counted := pull_of_none { writer with stream := asked.1 } noAhead alone
  unfold answer
  cases asked.2 with
  | false => rfl
  | true => exact counted

/-- Without a lookahead a chunk is delivered to whoever reads, and the pull that this calls for is
counted. -/
theorem deliver_of_pull (writer : BodyWriter α) (isOpen : writer.stream.isOpen = true)
    (noAhead : writer.lookahead = none) (noCall : writer.settleLookahead = none)
    (alone : writer.waitingProducer = none) (chunk : α) :
    { deliver pull writer chunk with
      outcomes := (deliver pull writer chunk).outcomes ++ [(chunk, true)] } =
      answer pull
        { writer with
          stream := writer.stream.take chunk
          committed := true
          lookahead := none
          settleLookahead := none
          outcomes := writer.outcomes ++ [(chunk, true)]
          reads := if 0 < writer.stream.requests then writer.reads ++ [chunk] else writer.reads }
        (writer.stream.take chunk).callPullIfNeeded := by
  have answered := answer_of_none
    { writer with
      committed := true
      reads := if 0 < writer.stream.requests then writer.reads ++ [chunk] else writer.reads }
    noAhead alone (writer.stream.take chunk).callPullIfNeeded
  have accepted := answer_of_none
    { writer with
      stream := writer.stream.take chunk
      committed := true
      lookahead := none
      settleLookahead := none
      outcomes := writer.outcomes ++ [(chunk, true)]
      reads := if 0 < writer.stream.requests then writer.reads ++ [chunk] else writer.reads }
    rfl alone (writer.stream.take chunk).callPullIfNeeded
  rw [deliver_of_open pull writer isOpen, answered, accepted]
  simp [settle, noAhead, noCall]

/-- The lookahead goes to the read that the controller asks for. -/
theorem pull_of_some (writer : BodyWriter α) (isAhead : writer.lookahead = some chunk)
    (isCall : writer.settleLookahead = some chunk) (alone : writer.waitingProducer = none)
    (should : writer.stream.shouldCallPull = true) (pulling : writer.stream.pulling = true) :
    pull writer =
      { writer with
        stream := (writer.stream.take chunk).callPullIfNeeded.1
        committed := true
        lookahead := none
        settleLookahead := none
        outcomes := writer.outcomes ++ [(chunk, true)]
        reads := writer.reads ++ [chunk] } := by
  obtain ⟨isOpen, -, waits⟩ := shouldCallPull_iff.mp should
  have quiet : (writer.stream.take chunk).callPullIfNeeded.2 = false := by
    apply quiet_of_pulling
    simpa using pulling
  rw [pull, isAhead]
  dsimp only
  rw [deliver_of_open id { writer with lookahead := none } isOpen chunk, answer, quiet]
  simp [settle, isCall, wakeProducer, alone, waits]

/-- The invariant speaks of the stream's chunks and its end, not of its pulls. -/
theorem Sound.callPullIfNeeded (sound : writer.Sound) :
    Sound { writer with stream := writer.stream.callPullIfNeeded.1 } where
  stream := sound.stream.callPullIfNeeded
  openStream := by simpa using sound.openStream
  closedStream := by simpa using sound.closedStream
  waits := sound.waits
  alone := sound.alone
  ahead := sound.ahead
  settled := sound.settled
  queued := by simpa using sound.queued
  complete := by simpa using sound.complete
  isPrefix := sound.isPrefix
  notThrown := sound.notThrown

/-- A chunk that is delivered is accepted: it is read or queued, and its call settles. -/
theorem Sound.accept (sound : writer.Sound) (isOpen : writer.stream.isOpen = true) (chunk : α)
    {calls : List α} (isLast : calls = writer.outcomes.map Prod.fst ++ [chunk])
    (outstandingPulls : Nat) :
    Sound { writer with
      stream := writer.stream.take chunk
      committed := true
      outstandingPulls := outstandingPulls
      lookahead := none
      settleLookahead := none
      calls := calls
      outcomes := writer.outcomes ++ [(chunk, true)]
      reads := if 0 < writer.stream.requests then writer.reads ++ [chunk] else writer.reads } := by
  have readable := (isOpen_iff.mp isOpen).1
  have held := sound.queued readable
  have handed : (if 0 < writer.stream.requests then writer.reads ++ [chunk] else writer.reads) ++
      (writer.stream.take chunk).queue = acceptedOf writer.outcomes ++ [chunk] := by
    rw [← held, ReadableStream.take]
    split
    · next waits =>
      have noChunk := sound.stream.queueOrRequests.resolve_right (Nat.ne_of_gt waits)
      simp [noChunk]
    · simp
  exact {
    stream := sound.stream.take isOpen chunk
    openStream := by simpa using fun _ => isOpen
    closedStream := fun isClosed =>
      absurd (isOpen.symm.trans (sound.closedStream isClosed).1) Bool.noConfusion
    waits := rfl
    alone := sound.alone
    ahead := fun apart => absurd rfl apart
    settled := by simp [isLast]
    queued := fun _ => by simpa using handed
    complete := fun isClosed => by simp [readable] at isClosed
    isPrefix := ⟨(writer.stream.take chunk).queue, by simpa using handed⟩
    notThrown := sound.notThrown }

/-- A request that the controller only remembers establishes the invariant. -/
theorem consistent_remember (sound : writer.Sound)
    (quiet : writer.stream.shouldCallPull = false ∨ writer.stream.pulling = true) :
    Consistent { writer with stream := writer.stream.callPullIfNeeded.1 } := by
  refine { sound.callPullIfNeeded with asked := ?_ }
  cases should : writer.stream.shouldCallPull with
  | false =>
    rw [callPullIfNeeded_of_not should]
    intro asks
    cases should.symm.trans asks
  | true =>
    have pulling := quiet.resolve_left (by simp [should])
    rw [callPullIfNeeded_of_pulling should pulling]
    intro _ notAgain
    exact absurd ⟨pulling, rfl⟩ notAgain

/-- A pull establishes the invariant: it is counted, or the lookahead goes to a read. -/
theorem consistent_pull (sound : writer.Sound) (should : writer.stream.shouldCallPull = true)
    (pulling : writer.stream.pulling = true) : writer.pull.Consistent := by
  obtain ⟨isOpen, -, waits⟩ := shouldCallPull_iff.mp should
  cases isAhead : writer.lookahead with
  | none =>
    rw [pull_of_none _ isAhead sound.alone.1]
    exact { sound with
      ahead := fun apart => absurd isAhead apart
      asked := fun _ _ => Nat.succ_pos _ }
  | some chunk =>
    have last : writer.calls = writer.outcomes.map Prod.fst ++ [chunk] := by
      simpa [isAhead] using sound.settled
    have accepted := sound.accept isOpen chunk last writer.outstandingPulls
    rw [if_pos waits] at accepted
    rw [pull_of_some _ isAhead (sound.waits.trans isAhead) sound.alone.1 should pulling]
    exact consistent_remember accepted (.inr (by simpa using pulling))

/-- Asking the controller establishes the invariant. -/
theorem consistent_ask (sound : writer.Sound) :
    (writer.answer pull writer.stream.callPullIfNeeded).Consistent := by
  by_cases quiet : writer.stream.shouldCallPull = false ∨ writer.stream.pulling = true
  · have silent : writer.stream.callPullIfNeeded.2 = false := by
      cases quiet with
      | inl not => rw [callPullIfNeeded_of_not not]
      | inr pulling => exact quiet_of_pulling pulling
    rw [answer, silent]
    exact consistent_remember sound quiet
  · simp only [not_or, Bool.not_eq_false, Bool.not_eq_true] at quiet
    obtain ⟨should, idle⟩ := quiet
    have asking := sound.callPullIfNeeded
    rw [callPullIfNeeded_of_not_pulling should idle] at asking ⊢
    exact consistent_pull asking should rfl

/-- While there is a lookahead the controller asks for nothing. -/
theorem quiet_of_ahead (consistent : writer.Consistent) (isAhead : writer.lookahead = some chunk) :
    (writer.stream.take chunk).shouldCallPull = false ∨
      (writer.stream.take chunk).pulling = true := by
  cases should : (writer.stream.take chunk).shouldCallPull with
  | false => exact .inl rfl
  | true =>
    obtain ⟨isOpen, started, waits⟩ := shouldCallPull_iff.mp should
    rw [isOpen_take] at isOpen
    have asks : writer.stream.shouldCallPull = true :=
      shouldCallPull_iff.mpr ⟨isOpen, by simpa using started, by
        simp only [ReadableStream.take] at waits
        split at waits
        · assumption
        · exact waits⟩
    have noPull := consistent.ahead (by simp [isAhead])
    by_contra apart
    simp only [not_or, pulling_take] at apart
    have some := consistent.asked asks fun both => apart.2 both.1
    omega

/-! ## Steps -/

theorem consistent_started (consistent : writer.Consistent) :
    (writer.step .started).Consistent := by
  rw [step]
  split
  · exact consistent
  · have sound : Sound { writer with stream := { writer.stream with started := true } } := {
      consistent.toSound with stream := { consistent.stream with } }
    exact consistent_ask sound

theorem consistent_pulled (consistent : writer.Consistent) : (writer.step .pulled).Consistent := by
  rw [step]
  split
  · next pulling =>
    unfold ReadableStream.finishPull
    dsimp only
    split
    · have sound : Sound { writer with
          stream := { writer.stream with pulling := false, pullAgain := false } } := {
        consistent.toSound with stream := { consistent.stream with remembered := id } }
      exact consistent_ask sound
    · next notAgain =>
      exact { consistent.toSound with
        stream := { consistent.stream with remembered := fun again => absurd again notAgain }
        asked := fun should _ => consistent.asked should fun both => notAgain both.2 }
  · exact consistent

theorem step_read (writer : BodyWriter α) :
    writer.step .read =
      { writer.answer pull (writer.stream.read.1, writer.stream.read.2.2) with
        reads := (writer.answer pull (writer.stream.read.1, writer.stream.read.2.2)).reads ++
          writer.stream.read.2.1.toList } := rfl

theorem consistent_read (consistent : writer.Consistent) : (writer.step .read).Consistent := by
  rw [step_read, ReadableStream.read]
  split
  case isFalse => simpa [answer] using consistent
  case isTrue readable =>
    have held := consistent.queued readable
    split
    case h_1 chunk queue isQueue =>
      have noRead : writer.stream.requests = 0 :=
        consistent.stream.queueOrRequests.resolve_left (by simp [isQueue])
      rw [isQueue] at held
      split
      case isTrue last =>
        have noMore : queue = [] := by simp at last; exact last.2
        have notOpen : writer.stream.isOpen = false := by
          simp at last
          simp [ReadableStream.isOpen, last.1]
        have isClosed : writer.closed = true := by
          by_contra isOpen
          have stillOpen := consistent.openStream (by simpa using isOpen)
          cases notOpen.symm.trans stillOpen
        rw [noMore] at held
        exact { consistent with
          stream := ⟨.inl rfl, fun _ => ⟨rfl, rfl⟩, by rintro ⟨⟩, consistent.stream.remembered⟩
          openStream := fun isOpen => by cases isClosed.symm.trans isOpen
          closedStream := fun _ => ⟨rfl, (consistent.closedStream isClosed).2⟩
          queued := by rintro ⟨⟩
          complete := fun _ _ => held
          isPrefix := held ▸ List.prefix_rfl
          asked := by rintro ⟨⟩ }
      case isFalse more =>
        have quiet : ReadableStream.shouldCallPull { writer.stream with queue := queue } =
            false := by
          simp [ReadableStream.shouldCallPull, noRead]
        have sound : Sound { writer with
            stream := { writer.stream with queue := queue }, reads := writer.reads ++ [chunk] } := {
          consistent.toSound with
          stream := {
            queueOrRequests := .inr noRead
            ended := fun apart => absurd readable apart
            closing := fun _ closing none => more (by simp_all)
            remembered := consistent.stream.remembered }
          queued := fun _ => by simpa using held
          complete := fun isClosed => by cases readable.symm.trans isClosed
          isPrefix := ⟨queue, by simpa using held⟩ }
        have asked := consistent_remember sound (.inl quiet)
        rw [callPullIfNeeded_of_not quiet] at asked ⊢
        exact asked
    case h_2 isQueue =>
      have sound : Sound { writer with
          stream := { writer.stream with requests := writer.stream.requests + 1 } } := {
        consistent.toSound with
        stream := {
          queueOrRequests := .inl isQueue
          ended := fun apart => absurd readable apart
          closing := consistent.stream.closing
          remembered := consistent.stream.remembered } }
      have asked := consistent_ask sound
      dsimp only [Option.toList_none]
      rw [List.append_nil]
      exact asked

/-- A call of `enqueue` by a producer that waits for no other. -/
theorem consistent_offer (consistent : writer.Consistent) (idle : writer.settleLookahead = none)
    (chunk : α) :
    (offer { writer with calls := writer.calls ++ [chunk] } chunk).Consistent := by
  have noAhead : writer.lookahead = none := consistent.waits.symm.trans idle
  have isLast : writer.calls ++ [chunk] = writer.outcomes.map Prod.fst ++ [chunk] := by
    simpa [noAhead] using consistent.settled
  unfold offer
  split
  case isTrue isClosed =>
    exact { consistent with
      settled := by simpa [noAhead] using consistent.settled
      queued := by simpa using consistent.queued
      complete := by simpa using consistent.complete
      isPrefix := by simpa using consistent.isPrefix
      asked := consistent.asked }
  case isFalse notClosed =>
    have isOpen := consistent.openStream (by simpa using notClosed)
    rw [if_neg (by simp [noAhead])]
    split
    case isTrue pulls =>
      have delivered := deliver_of_pull { writer with
        outstandingPulls := writer.outstandingPulls - 1, calls := writer.calls ++ [chunk] }
        isOpen noAhead idle consistent.alone.1 chunk
      dsimp only at delivered ⊢
      rw [delivered]
      exact consistent_ask (consistent.accept isOpen chunk isLast (writer.outstandingPulls - 1))
    case isFalse noPull =>
      exact { consistent with
        closedStream := fun isClosed => absurd isClosed notClosed
        waits := rfl
        ahead := fun _ => Nat.eq_zero_of_not_pos noPull
        settled := isLast
        asked := consistent.asked }

/-- The stream is closed, or is to be closed behind what it has queued. -/
theorem consistent_finish (consistent : writer.Consistent) (noAhead : writer.lookahead = none) :
    Consistent { writer with
      closed := true, stream := writer.stream.close.getD writer.stream } := by
  unfold ReadableStream.close
  cases isOpen : writer.stream.isOpen with
  | false =>
    exact { consistent with
      openStream := nofun
      closedStream := fun _ => ⟨isOpen, noAhead⟩ }
  | true =>
    obtain ⟨readable, -⟩ := isOpen_iff.mp isOpen
    have held := consistent.queued readable
    rw [if_pos rfl]
    cases isQueue : writer.stream.queue with
    | nil =>
      rw [isQueue, List.append_nil] at held
      exact { consistent with
        stream := ⟨.inl rfl, fun _ => ⟨rfl, rfl⟩, nofun, consistent.stream.remembered⟩
        openStream := nofun
        closedStream := fun _ => ⟨rfl, noAhead⟩
        queued := nofun
        complete := fun _ _ => held
        asked := nofun }
    | cons chunk queue =>
      have noRead : writer.stream.requests = 0 :=
        consistent.stream.queueOrRequests.resolve_left (by simp [isQueue])
      rw [isQueue] at held
      exact { consistent with
        stream := {
          queueOrRequests := .inr noRead
          ended := fun apart => absurd readable apart
          closing := fun _ _ => List.cons_ne_nil _ _
          remembered := consistent.stream.remembered }
        openStream := nofun
        closedStream := fun _ => ⟨by simp [ReadableStream.isOpen], noAhead⟩
        queued := fun _ => held
        complete := fun isClosed => by cases readable.symm.trans isClosed
        asked := fun should => by
          have isOpen := (shouldCallPull_iff.mp should).1
          simp [ReadableStream.isOpen] at isOpen }

/-- What `close` delivers. No read is asked for meanwhile, so that the lookahead, which is still
there, is not delivered a second time. -/
theorem flush_spec (consistent : writer.Consistent) :
    ∃ flushed : BodyWriter α, flushed.Consistent ∧ flushed.lookahead = none ∧
      flush { writer with closed := true } = { flushed with closed := true } := by
  rw [flush]
  cases isAhead : writer.lookahead with
  | none => exact ⟨writer, consistent, isAhead, by rw [isAhead]⟩
  | some chunk =>
    have isOpen : writer.stream.isOpen = true := by
      apply consistent.openStream
      by_contra isClosed
      have noAhead := (consistent.closedStream (by simpa using isClosed)).2
      cases isAhead.symm.trans noAhead
    have last : writer.calls = writer.outcomes.map Prod.fst ++ [chunk] := by
      simpa [isAhead] using consistent.settled
    have silent := quiet_of_ahead consistent isAhead
    have quiet : (writer.stream.take chunk).callPullIfNeeded.2 = false := by
      cases silent with
      | inl not => rw [callPullIfNeeded_of_not not]
      | inr pulling => exact quiet_of_pulling pulling
    refine ⟨_, consistent_remember
      (consistent.accept isOpen chunk last writer.outstandingPulls) silent, rfl, ?_⟩
    have delivered := deliver_of_open pull
      { writer with closed := true, lookahead := some chunk } isOpen chunk
    dsimp only at delivered ⊢
    rw [delivered, answer, quiet]
    simp [settle, consistent.waits, isAhead]

theorem consistent_close (consistent : writer.Consistent) : (writer.step .close).Consistent := by
  obtain ⟨flushed, still, noAhead, isFlushed⟩ := flush_spec consistent
  rw [step, close, isFlushed]
  dsimp only
  have finished := consistent_finish still noAhead
  rwa [wakeProducer_of_none finished.alone.1]

/-- A stream that ends at once leaves the consumer what it has read, and the waiting call is
refused. -/
theorem consistent_stop (consistent : writer.Consistent) {cancelled : Bool}
    (wellFormed : stream.WellFormed) (ended : stream.state ≠ .readable)
    (complete : stream.state = .closed → cancelled = false →
      writer.stream.state = .closed ∧ writer.cancelled = false) :
    Consistent (settle { writer with
      stream := stream, cancelled := cancelled, closed := true, lookahead := none } false) := by
  have notOpen : stream.isOpen = false := by simp [ReadableStream.isOpen, ended]
  have settled : settle { writer with
      stream := stream, cancelled := cancelled, closed := true, lookahead := none } false =
      { writer with
        stream := stream
        cancelled := cancelled
        closed := true
        lookahead := none
        settleLookahead := none
        outcomes := writer.outcomes ++ writer.lookahead.toList.map fun chunk =>
          (chunk, false) } := by
    cases isAhead : writer.lookahead with
    | none => simp [settle, consistent.waits, isAhead]
    | some chunk => simp [settle, consistent.waits, isAhead]
  have same : acceptedOf (writer.outcomes ++ writer.lookahead.toList.map fun chunk =>
      (chunk, false)) = acceptedOf writer.outcomes := by
    cases writer.lookahead with
    | none => simp
    | some chunk => simp
  rw [settled]
  exact { consistent with
    stream := wellFormed
    openStream := by rintro ⟨⟩
    closedStream := fun _ => ⟨notOpen, rfl⟩
    waits := rfl
    ahead := fun apart => absurd rfl apart
    settled := by simp [consistent.settled, Function.comp_def]
    queued := fun readable => absurd readable ended
    complete := fun isClosed notCancelled => by
      have before := complete isClosed notCancelled
      exact (consistent.complete before.1 before.2).trans same.symm
    isPrefix := same ▸ consistent.isPrefix
    asked := fun should => by
      cases notOpen.symm.trans (shouldCallPull_iff.mp should).1 }

theorem settle_with_stream (writer : BodyWriter α) (accepted : Bool) (stream : ReadableStream α) :
    { writer.settle accepted with stream := stream } =
      settle { writer with stream := stream } accepted := by
  cases writer with
  | mk before committed closed outstandingPulls lookahead settleLookahead =>
    cases settleLookahead with
    | none => rfl
    | some chunk => rfl

theorem stream_settle (writer : BodyWriter α) (accepted : Bool) :
    (writer.settle accepted).stream = writer.stream := by
  unfold settle
  cases writer.settleLookahead with
  | none => rfl
  | some chunk => rfl

theorem consistent_abort (consistent : writer.Consistent) : (writer.step .abort).Consistent := by
  have stopped : Consistent (settle { writer with
      stream := writer.stream.error, closed := true, lookahead := none } false) := by
    unfold ReadableStream.error
    split
    · exact consistent_stop consistent
        ⟨.inl rfl, fun _ => ⟨rfl, rfl⟩, nofun, consistent.stream.remembered⟩ nofun nofun
    · next ended => exact consistent_stop consistent consistent.stream ended .intro
  rw [step, abort, stream_settle, settle_with_stream]
  rwa [wakeProducer_of_none stopped.alone.1]

theorem step_cancel (writer : BodyWriter α) :
    writer.step .cancel =
      if writer.stream.cancel.2 then
        (settle { writer with
          stream := writer.stream.cancel.1
          cancelled := true
          closed := true
          lookahead := none } false).wakeProducer
      else writer := rfl

theorem consistent_cancel (consistent : writer.Consistent) : (writer.step .cancel).Consistent := by
  rw [step_cancel, ReadableStream.cancel]
  by_cases readable : writer.stream.state = .readable
  · rw [if_pos readable]
    have stopped : Consistent (settle { writer with
        stream := { writer.stream with state := .closed, queue := [], requests := 0 }
        cancelled := true
        closed := true
        lookahead := none } false) :=
      consistent_stop consistent
        ⟨.inl rfl, fun _ => ⟨rfl, rfl⟩, nofun, consistent.stream.remembered⟩ nofun nofun
    rwa [if_pos rfl, wakeProducer_of_none stopped.alone.1]
  · rw [if_neg readable]
    exact consistent

/-! ## Runs -/

theorem consistent_step (consistent : writer.Consistent) (input : BodyInput α) :
    (writer.step input).Consistent := by
  cases input with
  | started => exact consistent_started consistent
  | pulled => exact consistent_pulled consistent
  | read => exact consistent_read consistent
  | enqueue chunk =>
    rw [step]
    split
    · next idle =>
      simp only [isIdle, Bool.and_eq_true, Option.isNone_iff_eq_none] at idle
      exact consistent_offer consistent idle.1.1 chunk
    · exact consistent
  | resume =>
    rw [step, consistent.alone.2]
    exact consistent
  | close => exact consistent_close consistent
  | abort => exact consistent_abort consistent
  | cancel => exact consistent_cancel consistent

theorem consistent_steps (consistent : writer.Consistent) (inputs : List (BodyInput α)) :
    (inputs.foldl step writer).Consistent := by
  induction inputs generalizing writer with
  | nil => exact consistent
  | cons input inputs ih => exact ih (consistent_step consistent input)

theorem consistent_run (inputs : List (BodyInput α)) : (run inputs).Consistent :=
  consistent_steps consistent_new inputs

/-! ## After the end -/

@[simp]
theorem reads_settle (writer : BodyWriter α) (accepted : Bool) :
    (writer.settle accepted).reads = writer.reads := by
  unfold settle
  split
  · rfl
  · rfl

@[simp]
theorem reads_wakeProducer (writer : BodyWriter α) : writer.wakeProducer.reads = writer.reads := by
  unfold wakeProducer
  split
  · rfl
  · rfl

@[simp]
theorem stream_wakeProducer (writer : BodyWriter α) :
    writer.wakeProducer.stream = writer.stream := by
  unfold wakeProducer
  split
  · rfl
  · rfl

theorem answer_of_ended (ended : writer.stream.state ≠ .readable)
    (same : stream.state = writer.stream.state) :
    writer.answer pull stream.callPullIfNeeded = { writer with stream := stream } := by
  have quiet : stream.shouldCallPull = false := by
    simp [ReadableStream.shouldCallPull, ReadableStream.isOpen, same, ended]
  rw [callPullIfNeeded_of_not quiet]
  rfl

/-- Nothing is read of a stream that has ended, whatever happens next. -/
theorem step_of_ended (consistent : writer.Consistent) (ended : writer.stream.state ≠ .readable)
    (input : BodyInput α) :
    (writer.step input).reads = writer.reads ∧
      (writer.step input).stream.state = writer.stream.state := by
  have notOpen : writer.stream.isOpen = false := by simp [ReadableStream.isOpen, ended]
  have isClosed : writer.closed = true := by
    by_contra isOpen
    have stillOpen := consistent.openStream (by simpa using isOpen)
    cases notOpen.symm.trans stillOpen
  have noAhead := (consistent.closedStream isClosed).2
  cases input with
  | started =>
    rw [step]
    split
    · exact ⟨rfl, rfl⟩
    · have answered := answer_of_ended ended
        (show ReadableStream.state { writer.stream with started := true } = _ from rfl)
      rw [ReadableStream.finishStart, answered]
      exact ⟨rfl, rfl⟩
  | pulled =>
    rw [step]
    split
    · unfold ReadableStream.finishPull
      dsimp only
      split
      · have answered := answer_of_ended ended (show ReadableStream.state
          { writer.stream with pulling := false, pullAgain := false } = _ from rfl)
        rw [answered]
        exact ⟨rfl, rfl⟩
      · exact ⟨rfl, rfl⟩
    · exact ⟨rfl, rfl⟩
  | read =>
    have nothing : writer.stream.read = (writer.stream, none, false) := by
      rw [ReadableStream.read, if_neg ended]
    simp [step, read, nothing, answer]
  | enqueue chunk =>
    rw [step]
    split
    · simp [offer, isClosed]
    · exact ⟨rfl, rfl⟩
  | resume =>
    rw [step, consistent.alone.2]
    exact ⟨rfl, rfl⟩
  | close =>
    have shut : writer.stream.close = none := by simp [ReadableStream.close, notOpen]
    simp [step, close, flush, noAhead, shut]
  | abort =>
    have same : writer.stream.error = writer.stream := by rw [ReadableStream.error, if_neg ended]
    simp [step, abort, stream_settle, same]
  | cancel =>
    have untold : writer.stream.cancel = (writer.stream, false) := by
      rw [ReadableStream.cancel, if_neg ended]
    simp [step, cancel, untold]

theorem steps_of_ended (consistent : writer.Consistent) (ended : writer.stream.state ≠ .readable)
    (inputs : List (BodyInput α)) : (inputs.foldl step writer).reads = writer.reads := by
  induction inputs generalizing writer with
  | nil => rfl
  | cons input inputs ih =>
    obtain ⟨sameReads, sameState⟩ := step_of_ended consistent ended input
    exact (ih (consistent_step consistent input) (sameState ▸ ended)).trans sameReads

/-- `abort` and `cancel` end the stream and give the consumer nothing. -/
theorem ended_of_stop {stop : BodyInput α} (stops : stop = .abort ∨ stop = .cancel)
    (writer : BodyWriter α) :
    (writer.step stop).stream.state ≠ .readable ∧ (writer.step stop).reads = writer.reads := by
  rcases stops with rfl | rfl
  · rw [step, abort]
    simp only [stream_wakeProducer, stream_settle, reads_wakeProducer, reads_settle, and_true]
    unfold ReadableStream.error
    split
    · nofun
    · assumption
  · rw [step_cancel]
    by_cases readable : writer.stream.state = .readable
    · simp [ReadableStream.cancel, readable, stream_settle]
    · simp [ReadableStream.cancel, readable]

structure Delivers (inputs : List (BodyInput α)) : Prop where
  notThrown : (run inputs).thrown = false
  /-- Every call settles once and in order; the one that has not yet is the last. -/
  settled : (run inputs).calls =
    (run inputs).outcomes.map Prod.fst ++ (run inputs).settleLookahead.toList
  settledAtEnd : (run inputs).closed = true →
    (run inputs).calls = (run inputs).outcomes.map Prod.fst
  isPrefix : (run inputs).reads <+: (run inputs).accepted
  queued : (run inputs).stream.state = .readable →
    (run inputs).reads ++ (run inputs).stream.queue = (run inputs).accepted
  complete : (run inputs).stream.state = .closed → (run inputs).cancelled = false →
    (run inputs).reads = (run inputs).accepted
  stopped : ∀ stop : BodyInput α, stop = .abort ∨ stop = .cancel →
    ∀ more, (run (inputs ++ stop :: more)).reads = (run inputs).reads

/-- Accepted chunks are read in order and once, and all of them by a consumer who reads to the end
of a closed stream; what the stream has queued is lost in an abort or a cancellation. -/
theorem run_delivers (inputs : List (BodyInput α)) : Delivers inputs := by
  have consistent := consistent_run inputs
  have settled : (run inputs).calls =
      (run inputs).outcomes.map Prod.fst ++ (run inputs).settleLookahead.toList := by
    rw [consistent.waits]
    exact consistent.settled
  refine ⟨consistent.notThrown, settled, ?_, consistent.isPrefix, consistent.queued,
    consistent.complete, ?_⟩
  · intro isClosed
    rw [settled, consistent.waits, (consistent.closedStream isClosed).2, Option.toList_none,
      List.append_nil]
  · intro stop stops more
    obtain ⟨ended, same⟩ := ended_of_stop stops (run inputs)
    rw [run, List.foldl_append, List.foldl_cons]
    exact (steps_of_ended (consistent_step consistent stop) ended more).trans same

/-- With two reads pending the writer counts one pull too many, and the third chunk is accepted
into the queue of the stream; `close` leaves the lookahead there. Neither is read after an abort or
a cancellation. -/
theorem accepted_not_read :
    (run [.started, .read, .read, .pulled, .enqueue 1, .pulled, .enqueue 2, .pulled, .enqueue 3,
        .abort] : BodyWriter Nat).outcomes = [(1, true), (2, true), (3, true)] ∧
      (run [.started, .read, .read, .pulled, .enqueue 1, .pulled, .enqueue 2, .pulled, .enqueue 3,
        .abort] : BodyWriter Nat).reads = [1, 2] ∧
      (run [.started, .enqueue 1, .close, .cancel] : BodyWriter Nat).outcomes = [(1, true)] ∧
      (run [.started, .enqueue 1, .close, .cancel] : BodyWriter Nat).reads = [] := by
  decide

end GhcGateway.Gateway.BodyWriter
