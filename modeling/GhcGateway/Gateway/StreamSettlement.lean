/-
# A stream execution settles once

What an execution has reported is determined by how far the work of `finish` is, and
that work begins once. The body writer is the exception: `finish` ends the writer it
finds when it begins, so a writer that is made while `finish` is already at work is
never ended. The condition on a schedule is that the first emission does not come
after an abort.
-/

import GhcGateway.Gateway.StreamExecution

namespace GhcGateway.Gateway

open Library StreamExecution

variable {α : Type} {input : StreamExecutionInput}
  {state next : StreamExecution α} {terminalCause : StreamExecutionTerminalCause}
  {writer : StreamResponseWriter} {result : StreamOutcome α} {fromProducer : Bool}

/-- What the first emission finds: no signal has been aborted before it. -/
def FirstBeforeAbort (state : StreamExecution α) : StreamExecutionStep α → Prop
  | .first (.wire _) => state.signal = none ∧ state.deliverySignal = false
  | _ => True

instance (state : StreamExecution α) (label : StreamExecutionStep α) :
    Decidable (FirstBeforeAbort state label) := by
  unfold FirstBeforeAbort
  split <;> infer_instance

structure SettlesOnce (state : StreamExecution α) : Prop where
  terminalsOnce : state.terminals.length ≤ 1
  terminal : state.state = .completed → state.terminals.length = 1
  finalizesOnce : state.finalizations.length ≤ 1
  finalizesSuccess : state.finalizations ≠ [] →
    ∃ barrier, state.barrier = some barrier ∧ barrier.terminalCause = .semanticSuccess
  success : (∃ value, .success value ∈ state.terminals) ↔ state.finalized = some (.ok ())
  cancelled : state.state = .completed → state.upstreamCancels = 1
  finalizerOnce : state.finalizerRuns ≤ 1
  finalizer : state.state = .completed → state.deliveryAdapterClaimed = true →
    state.finalizerRuns = 1
  bodyEnded : state.state = .completed → state.stage = .returned →
    ∃ writer, state.writer = some writer ∧ writer.closed = true

/-- `finish` has not been called. -/
structure Unsettled (state : StreamExecution α) : Prop where
  terminals : state.terminals = []
  finalizations : state.finalizations = []
  finalized : state.finalized = none
  upstreamCancels : state.upstreamCancels = 0
  finalizerRuns : state.finalizerRuns = 0
  deliveryFinalized : state.deliveryFinalized = false
  phase : state.state = .precommit ∨ state.state = .committed

/-- How far `finish` is determines what has been reported. -/
structure Settling (state : StreamExecution α) (barrier : Barrier α) : Prop where
  pending : barrier.stage = .finalizing →
    state.terminals = [] ∧ state.finalized = none ∧ barrier.terminalCause = .semanticSuccess ∧
      ∃ value, barrier.result = .success value
  reported : barrier.stage ≠ .finalizing →
    state.terminals = [barrier.result] ∧
      ((∃ value, barrier.result = .success value) ↔ state.finalized = some (.ok ()))
  finalizations : state.finalizations.length ≤ 1
  semantic : state.finalizations ≠ [] → barrier.terminalCause = .semanticSuccess
  cancels : state.upstreamCancels =
    if barrier.stage = .finalizing ∨ barrier.stage = .cancelling then 0 else 1
  phase : state.state = if barrier.stage = .done then .completed else .terminating
  finalized : state.deliveryFinalized =
    (decide (barrier.stage = .done) && state.deliveryAdapterClaimed)
  runs : state.finalizerRuns = if state.deliveryFinalized then 1 else 0
  body : ∀ writer, state.writer = some writer →
    (barrier.writerMode = .abort ∧ barrier.stage ≠ .finalizing) ∨ barrier.stage = .settling ∨
      barrier.stage = .done → writer.closed = true

structure StreamSound (state : StreamExecution α) : Prop where
  returned : state.stage = .returned → state.writer.isSome = true
  early : state.stage ≠ .returned → state.producer = .unset ∧ state.cancellation = false
  waiting : state.stage = .awaitingFirst → state.signal = none → state.deliverySignal = false →
    state.barrier = none
  unsettled : state.barrier = none → Unsettled state
  settling : ∀ barrier, state.barrier = some barrier → Settling state barrier

/-! ## Moves that settle nothing -/

/-- The second state differs from the first in what the producer and the body stream
are at, and a writer that was closed still is. -/
structure SameSettlement (state next : StreamExecution α) : Prop where
  signal : next.signal = state.signal
  deliverySignal : next.deliverySignal = state.deliverySignal
  stage : next.stage = state.stage
  barrier : next.barrier = state.barrier
  claimed : next.deliveryAdapterClaimed = state.deliveryAdapterClaimed
  deliveryFinalized : next.deliveryFinalized = state.deliveryFinalized
  finalizerRuns : next.finalizerRuns = state.finalizerRuns
  terminals : next.terminals = state.terminals
  finalizations : next.finalizations = state.finalizations
  finalized : next.finalized = state.finalized
  upstreamCancels : next.upstreamCancels = state.upstreamCancels
  phase : next.state = state.state ∨ state.state = .precommit ∧ next.state = .committed
  writer : next.writer.isSome = state.writer.isSome
  closed : ∀ later, next.writer = some later → ∃ writer, state.writer = some writer ∧
    (writer.closed = true → later.closed = true)

namespace SameSettlement

variable {middle : StreamExecution α}

theorem refl (state : StreamExecution α) : SameSettlement state state :=
  ⟨rfl, rfl, rfl, rfl, rfl, rfl, rfl, rfl, rfl, rfl, rfl, .inl rfl, rfl,
    fun writer found => ⟨writer, found, fun closed => closed⟩⟩

theorem trans (first : SameSettlement state middle) (second : SameSettlement middle next) :
    SameSettlement state next where
  signal := second.signal.trans first.signal
  deliverySignal := second.deliverySignal.trans first.deliverySignal
  stage := second.stage.trans first.stage
  barrier := second.barrier.trans first.barrier
  claimed := second.claimed.trans first.claimed
  deliveryFinalized := second.deliveryFinalized.trans first.deliveryFinalized
  finalizerRuns := second.finalizerRuns.trans first.finalizerRuns
  terminals := second.terminals.trans first.terminals
  finalizations := second.finalizations.trans first.finalizations
  finalized := second.finalized.trans first.finalized
  upstreamCancels := second.upstreamCancels.trans first.upstreamCancels
  phase := by
    rcases first.phase, second.phase with ⟨same | ⟨was, is⟩, same' | ⟨was', is'⟩⟩
    · exact .inl (same'.trans same)
    · exact .inr ⟨same ▸ was', is'⟩
    · exact .inr ⟨was, same'.trans is⟩
    · rw [is] at was'
      cases was'
  writer := second.writer.trans first.writer
  closed := by
    intro later found
    obtain ⟨between, foundBetween, closes⟩ := second.closed later found
    obtain ⟨writer, foundWriter, closes'⟩ := first.closed between foundBetween
    exact ⟨writer, foundWriter, fun closed => closes (closes' closed)⟩

/-- Only the producer moves. -/
theorem producer (producer : ProducerStage) : SameSettlement state { state with producer } :=
  { refl state with }

theorem settleDelivery (state : StreamExecution α) : SameSettlement state state.settleDelivery :=
  { refl state with }

theorem markDelivered (state : StreamExecution α) : SameSettlement state state.markDelivered := by
  unfold StreamExecution.markDelivered
  split
  · exact refl state
  · split
    · next precommit => exact { refl state with phase := .inr ⟨precommit, rfl⟩ }
    · exact { refl state with }

theorem onCommit (state : StreamExecution α) : SameSettlement state state.onCommit := by
  unfold StreamExecution.onCommit
  split
  · exact refl state
  · exact markDelivered state

theorem settleLookahead (state : StreamExecution α) (accepted : Bool) :
    SameSettlement state (state.settleLookahead accepted) := by
  unfold StreamExecution.settleLookahead
  split
  · exact producer _
  · exact refl state

/-- The writer changes and stays closed if it was. -/
theorem changeWriter {later : StreamResponseWriter} (found : state.writer = some writer)
    (closes : writer.closed = true → later.closed = true) :
    SameSettlement state { state with writer := some later } :=
  { refl state with
    writer := by rw [found]; rfl
    closed := by
      intro other same
      cases same
      exact ⟨writer, found, closes⟩ }

theorem abortWriter (state : StreamExecution α) (error : Option StreamError) :
    SameSettlement state (state.abortWriter error) := by
  unfold StreamExecution.abortWriter
  split
  · next writer found => exact (changeWriter found fun _ => rfl).trans (settleLookahead _ _)
  · exact refl state

theorem closeWriter (state : StreamExecution α) : SameSettlement state state.closeWriter := by
  unfold StreamExecution.closeWriter
  split
  · next writer found =>
    have closes := changeWriter found fun _ => writer.closed_close
    dsimp only
    split
    · exact (closes.trans (onCommit _)).trans (settleLookahead _ _)
    · exact closes
  · exact refl state

theorem enqueue (state : StreamExecution α) (chunk : List UInt8) (first : Bool) :
    SameSettlement state (state.enqueue chunk first) := by
  unfold StreamExecution.enqueue
  split
  · next writer found =>
    have enqueues : SameSettlement state { state with writer := some (writer.enqueue chunk).1 } :=
      changeWriter found fun closed => by rw [writer.closed_enqueue, closed]
    dsimp only
    split
    · exact enqueues.trans (producer _)
    · exact (enqueues.trans (onCommit _)).trans (producer _)
    · exact enqueues.trans (producer _)
    · exact enqueues.trans (producer _)
  · exact refl state

end SameSettlement

/-- A state whose settlement is the same is sound too. -/
theorem StreamSound.same (sound : StreamSound state)
    (same : SameSettlement state next)
    (early : state.stage ≠ .returned → next.producer = .unset ∧ next.cancellation = false) :
    StreamSound next where
  returned := by
    rw [same.stage, same.writer]
    exact sound.returned
  early := by
    rw [same.stage]
    exact early
  waiting := by
    rw [same.stage, same.signal, same.deliverySignal, same.barrier]
    exact sound.waiting
  unsettled := by
    intro none
    rw [same.barrier] at none
    have was := sound.unsettled none
    constructor
    case phase =>
      rcases same.phase with kept | ⟨-, committed⟩
      · rw [kept]
        exact was.phase
      · exact .inr committed
    case terminals => exact same.terminals.trans was.terminals
    case finalizations => exact same.finalizations.trans was.finalizations
    case finalized => exact same.finalized.trans was.finalized
    case upstreamCancels => exact same.upstreamCancels.trans was.upstreamCancels
    case finalizerRuns => exact same.finalizerRuns.trans was.finalizerRuns
    case deliveryFinalized => exact same.deliveryFinalized.trans was.deliveryFinalized
  settling := by
    intro barrier found
    rw [same.barrier] at found
    have was := sound.settling barrier found
    constructor
    case pending =>
      rw [same.terminals, same.finalized]
      exact was.pending
    case reported =>
      rw [same.terminals, same.finalized]
      exact was.reported
    case finalizations =>
      rw [same.finalizations]
      exact was.finalizations
    case semantic =>
      rw [same.finalizations]
      exact was.semantic
    case cancels => exact same.upstreamCancels.trans was.cancels
    case phase =>
      rcases same.phase with kept | ⟨precommit, -⟩
      · rw [kept]
        exact was.phase
      · have phase := was.phase
        rw [precommit] at phase
        split at phase <;> cases phase
    case finalized =>
      rw [same.deliveryFinalized, same.claimed]
      exact was.finalized
    case runs =>
      rw [same.finalizerRuns, same.deliveryFinalized]
      exact was.runs
    case body =>
      intro later isLater ended
      obtain ⟨writer, isWriter, closes⟩ := same.closed later isLater
      exact closes (was.body writer isWriter ended)

/-- A state in which the producer is the same. -/
theorem StreamSound.same_of_producer (sound : StreamSound state)
    (same : SameSettlement state next) (producer : next.producer = state.producer)
    (cancellation : next.cancellation = state.cancellation) : StreamSound next := by
  refine sound.same same fun notReturned => ?_
  rw [producer, cancellation]
  exact sound.early notReturned

/-- A state that a running producer leads to. -/
theorem StreamSound.same_of_returned (sound : StreamSound state)
    (same : SameSettlement state next) (returned : state.stage = .returned) : StreamSound next :=
  sound.same same fun notReturned => absurd returned notReturned

/-- A producer at work belongs to a returned response. -/
theorem StreamSound.returned_of_producer (sound : StreamSound state)
    (works : state.producer ≠ .unset) : state.stage = .returned := by
  by_contra notReturned
  exact works (sound.early notReturned).1

/-! ## The work of `finish` -/

namespace StreamExecution

theorem early_settleLookahead (accepted : Bool) (unset : state.producer = .unset) :
    state.settleLookahead accepted = state := by
  unfold settleLookahead
  rw [unset]

theorem early_abortWriter (error : Option StreamError) (unset : state.producer = .unset) :
    (state.abortWriter error).producer = .unset ∧
      (state.abortWriter error).cancellation = state.cancellation := by
  unfold abortWriter
  split
  · rw [early_settleLookahead _ (by exact unset)]
    exact ⟨unset, rfl⟩
  · exact ⟨unset, rfl⟩

theorem closed_abortWriter (error : Option StreamError)
    (found : (state.abortWriter error).writer = some writer) : writer.closed = true := by
  unfold abortWriter at found
  split at found
  · have kept : ∀ (state : StreamExecution α),
        (state.settleLookahead false).writer = state.writer := by
      intro state
      unfold settleLookahead
      split <;> rfl
    rw [kept] at found
    cases found
    rfl
  · next none =>
    rw [none] at found
    cases found

/-- `conclude` reports the result and ends the writer when it aborts. -/
theorem conclude_spec (input : StreamExecutionInput) (barrier : Barrier α) :
    SameSettlement { state with
        terminals := state.terminals ++ [barrier.result]
        barrier := some { barrier with stage := .cancelling } } (state.conclude input barrier) ∧
      (barrier.writerMode = .abort → ∀ writer, (state.conclude input barrier).writer = some writer →
        writer.closed = true) ∧
      (state.producer = .unset → (state.conclude input barrier).producer = .unset ∧
        (state.conclude input barrier).cancellation = state.cancellation) := by
  unfold conclude
  dsimp only
  split
  · exact ⟨.abortWriter _ _, fun _ _ found => closed_abortWriter _ found,
      fun unset => early_abortWriter _ unset⟩
  · exact ⟨.abortWriter _ _, fun _ _ found => closed_abortWriter _ found,
      fun unset => early_abortWriter _ unset⟩
  · next close =>
    refine ⟨.refl _, fun abort => ?_, fun unset => ⟨unset, rfl⟩⟩
    rw [close] at abort
    cases abort

end StreamExecution

/-- What holds when `finish` reports its result. -/
structure Concluding (state : StreamExecution α) (barrier : Barrier α) : Prop where
  terminals : state.terminals = []
  success : (∃ value, barrier.result = .success value) ↔ state.finalized = some (.ok ())
  finalizations : state.finalizations.length ≤ 1
  semantic : state.finalizations ≠ [] → barrier.terminalCause = .semanticSuccess
  upstreamCancels : state.upstreamCancels = 0
  finalizerRuns : state.finalizerRuns = 0
  deliveryFinalized : state.deliveryFinalized = false
  phase : state.state = .terminating
  returned : state.stage = .returned → state.writer.isSome = true
  early : state.stage ≠ .returned → state.producer = .unset ∧ state.cancellation = false
  aborted : state.stage = .awaitingFirst → state.signal = none → state.deliverySignal = true

theorem Concluding.sound {barrier : Barrier α} (concluding : Concluding state barrier) :
    StreamSound (state.conclude input barrier) := by
  obtain ⟨same, aborts, quiet⟩ := state.conclude_spec input barrier
  have isBarrier := same.barrier
  have terminals : (state.conclude input barrier).terminals = [barrier.result] := by
    rw [same.terminals, concluding.terminals]
    rfl
  have phase : (state.conclude input barrier).state = .terminating := by
    rcases same.phase with kept | ⟨precommit, -⟩
    · exact kept.trans concluding.phase
    · exact absurd (precommit.symm.trans concluding.phase) (by decide)
  constructor
  case returned =>
    rw [same.stage, same.writer]
    exact concluding.returned
  case early =>
    intro notReturned
    rw [same.stage] at notReturned
    obtain ⟨unset, calm⟩ := concluding.early notReturned
    obtain ⟨stillUnset, stillCalm⟩ := quiet unset
    exact ⟨stillUnset, stillCalm.trans calm⟩
  case waiting =>
    intro waits noSignal noDelivery
    rw [same.stage] at waits
    rw [same.signal] at noSignal
    rw [same.deliverySignal] at noDelivery
    have delivery := concluding.aborted waits noSignal
    rw [noDelivery] at delivery
    cases delivery
  case unsettled =>
    intro none
    rw [isBarrier] at none
    cases none
  case settling =>
    intro found isFound
    rw [isBarrier] at isFound
    cases isFound
    constructor
    case pending => exact fun finalizing => nomatch finalizing
    case reported =>
      intro _
      refine ⟨terminals, ?_⟩
      rw [same.finalized]
      exact concluding.success
    case finalizations =>
      rw [same.finalizations]
      exact concluding.finalizations
    case semantic =>
      rw [same.finalizations]
      exact concluding.semantic
    case cancels => exact same.upstreamCancels.trans concluding.upstreamCancels
    case phase => exact phase
    case finalized => exact same.deliveryFinalized.trans concluding.deliveryFinalized
    case runs =>
      rw [same.finalizerRuns, same.deliveryFinalized]
      show state.finalizerRuns = if state.deliveryFinalized then 1 else 0
      rw [concluding.deliveryFinalized]
      exact concluding.finalizerRuns
    case body =>
      rintro writer isWriter (⟨abort, -⟩ | settling | done)
      · exact aborts abort writer isWriter
      · cases settling
      · cases done

/-- `finish` keeps an execution sound: it reports once, with what it is first called with. -/
theorem StreamSound.finish (sound : StreamSound state) {writerMode : WriterMode}
    (semantic : ∀ value, result = .success value → terminalCause = .semanticSuccess)
    (aborted : state.stage = .awaitingFirst → state.signal = none → state.deliverySignal = true) :
    StreamSound (state.finish input terminalCause result writerMode fromProducer) := by
  unfold StreamExecution.finish
  split
  · exact sound
  next open' =>
  have isNone : state.barrier = none := by
    rw [Option.not_isSome_iff_eq_none] at open'
    exact open'
  have was := sound.unsettled isNone
  dsimp only
  split
  · next value =>
    -- `finalizeSuccess` comes first
    constructor
    case returned => exact sound.returned
    case early => exact sound.early
    case waiting =>
      intro waits noSignal noDelivery
      have delivery := aborted waits noSignal
      rw [noDelivery] at delivery
      cases delivery
    case unsettled => exact fun none => nomatch none
    case settling =>
      rintro barrier ⟨⟩
      have calls : (if input.finalizes then state.finalizations ++ [value]
          else state.finalizations).length ≤ 1 := by
        rw [was.finalizations]
        split
        · exact Nat.le_refl 1
        · exact Nat.zero_le 1
      refine ⟨fun _ => ⟨was.terminals, was.finalized, rfl, value, rfl⟩,
        fun not => absurd rfl not, calls, fun _ => rfl, was.upstreamCancels, rfl,
        was.deliveryFinalized, ?_, ?_⟩
      · show state.finalizerRuns = if state.deliveryFinalized then 1 else 0
        rw [was.deliveryFinalized]
        exact was.finalizerRuns
      · rintro writer - (⟨-, not⟩ | settling | done)
        · exact absurd rfl not
        · cases settling
        · cases done
  · next other =>
    refine Concluding.sound ⟨was.terminals, ?_, ?_, ?_, was.upstreamCancels, was.finalizerRuns,
      was.deliveryFinalized, rfl, sound.returned, sound.early, aborted⟩
    · show _ ↔ state.finalized = some (.ok ())
      rw [was.finalized]
      constructor
      · rintro ⟨value, same⟩
        exact absurd same (other value (semantic value same))
      · exact fun none => nomatch none
    · show state.finalizations.length ≤ 1
      rw [was.finalizations]
      exact Nat.zero_le 1
    · intro some
      exact absurd was.finalizations some

namespace StreamExecution

theorem early_closeWriter (unset : state.producer = .unset) :
    state.closeWriter.producer = .unset ∧ state.closeWriter.cancellation = state.cancellation := by
  have commits : ∀ (state : StreamExecution α), state.onCommit.producer = state.producer ∧
      state.onCommit.cancellation = state.cancellation := by
    intro state
    unfold onCommit markDelivered
    split
    · exact ⟨rfl, rfl⟩
    · split <;> exact ⟨rfl, rfl⟩
  unfold closeWriter
  split
  · next writer found =>
    obtain ⟨producer, cancellation⟩ := commits { state with writer := some writer.close.1 }
    dsimp only
    split
    · rw [early_settleLookahead _ (producer.trans unset)]
      exact ⟨producer.trans unset, cancellation⟩
    · exact ⟨unset, rfl⟩
  · exact ⟨unset, rfl⟩

theorem closed_closeWriter (found : state.closeWriter.writer = some writer) :
    writer.closed = true := by
  have commits : ∀ (state : StreamExecution α) accepted,
      (state.onCommit.settleLookahead accepted).writer = state.writer := by
    intro state accepted
    unfold settleLookahead onCommit markDelivered
    split <;> split <;> try split
    all_goals rfl
  unfold closeWriter at found
  split at found
  · next before isBefore =>
    have closed := before.closed_close
    dsimp only at found
    split at found
    · rw [commits] at found
      cases found
      exact closed
    · cases found
      exact closed
  · next none =>
    rw [none] at found
    cases found

theorem onCommit_barrier (barrier : Option (Barrier α)) :
    { state with barrier }.onCommit = { state.onCommit with barrier } := by
  unfold onCommit markDelivered
  dsimp only
  split
  · rfl
  · split <;> rfl

theorem settleLookahead_barrier (barrier : Option (Barrier α)) (accepted : Bool) :
    { state with barrier }.settleLookahead accepted =
      { state.settleLookahead accepted with barrier } := by
  cases state
  unfold settleLookahead
  dsimp only
  split <;> rfl

theorem closeWriter_of_none (none : state.writer = none) : state.closeWriter = state := by
  unfold closeWriter
  rw [none]

theorem closeWriter_of_some {writer : StreamResponseWriter} (found : state.writer = some writer) :
    state.closeWriter =
      if writer.close.2 then
        { state with writer := some writer.close.1 }.onCommit.settleLookahead true
      else { state with writer := some writer.close.1 } := by
  unfold closeWriter
  rw [found]

/-- What the writer does on closing does not depend on the work of `finish`. -/
theorem closeWriter_barrier (barrier : Option (Barrier α)) :
    { state with barrier }.closeWriter = { state.closeWriter with barrier } := by
  rcases Option.eq_none_or_eq_some state.writer with found | ⟨writer, found⟩
  · rw [closeWriter_of_none found]
    exact @closeWriter_of_none α { state with barrier } found
  · have commits := @onCommit_barrier α { state with writer := some writer.close.1 } barrier
    rw [closeWriter_of_some found]
    refine (@closeWriter_of_some α { state with barrier } writer found).trans ?_
    split
    · exact (congrArg (settleLookahead · true) commits).trans (settleLookahead_barrier barrier true)
    · rfl

end StreamExecution

/-- The work of `finish` goes on between the cancellation of the upstream and its end. -/
theorem StreamSound.advance (sound : StreamSound state) {barrier : Barrier α}
    (found : state.barrier = some barrier)
    (was : barrier.stage = .cancelled ∨ barrier.stage = .returning ∨ barrier.stage = .joining)
    {stage : BarrierStage} (later : stage = .returning ∨ stage = .joining ∨ stage = .settling)
    (ended : stage = .settling → ∀ writer, state.writer = some writer → writer.closed = true) :
    StreamSound { state with barrier := some { barrier with stage } } := by
  have settling := sound.settling barrier found
  have notFinalizing : barrier.stage ≠ .finalizing := by
    rcases was with was | was | was <;> rw [was] <;> decide
  have notDone : barrier.stage ≠ .done := by
    rcases was with was | was | was <;> rw [was] <;> decide
  have isNotFinalizing : stage ≠ .finalizing := by
    rcases later with rfl | rfl | rfl <;> decide
  have isNotDone : stage ≠ .done := by
    rcases later with rfl | rfl | rfl <;> decide
  constructor
  case returned => exact sound.returned
  case early => exact sound.early
  case waiting =>
    intro waits noSignal noDelivery
    have none := sound.waiting waits noSignal noDelivery
    rw [found] at none
    cases none
  case unsettled => exact fun none => nomatch none
  case settling =>
    rintro next ⟨⟩
    constructor
    case pending => exact fun finalizing => absurd finalizing isNotFinalizing
    case reported => exact fun _ => settling.reported notFinalizing
    case finalizations => exact settling.finalizations
    case semantic => exact settling.semantic
    case cancels =>
      have cancels := settling.cancels
      have notCancelling : ¬ (stage = .finalizing ∨ stage = .cancelling) := by
        rcases later with rfl | rfl | rfl <;> decide
      have wasNotCancelling : ¬ (barrier.stage = .finalizing ∨ barrier.stage = .cancelling) := by
        rcases was with was | was | was <;> rw [was] <;> decide
      rw [if_neg wasNotCancelling] at cancels
      dsimp only
      rw [if_neg notCancelling]
      exact cancels
    case phase =>
      have phase := settling.phase
      rw [if_neg notDone] at phase
      dsimp only
      rw [if_neg isNotDone]
      exact phase
    case finalized =>
      have finalized := settling.finalized
      rw [decide_eq_false notDone] at finalized
      dsimp only
      rw [decide_eq_false isNotDone]
      exact finalized
    case runs => exact settling.runs
    case body =>
      rintro writer isWriter (⟨abort, -⟩ | settles | done)
      · exact settling.body writer isWriter (.inl ⟨abort, notFinalizing⟩)
      · exact ended settles writer isWriter
      · exact absurd done isNotDone

/-- `finish` comes to wait for the settlement of the delivery. -/
theorem StreamSound.awaitSettlement (sound : StreamSound state) {barrier : Barrier α}
    (found : state.barrier = some barrier)
    (was : barrier.stage = .cancelled ∨ barrier.stage = .returning ∨ barrier.stage = .joining) :
    StreamSound (state.awaitSettlement barrier) := by
  have notFinalizing : barrier.stage ≠ .finalizing := by
    rcases was with was | was | was <;> rw [was] <;> decide
  have settles : StreamSound (if barrier.writerMode = .close then
      { state with barrier := some { barrier with stage := .settling } }.closeWriter
      else { state with barrier := some { barrier with stage := .settling } }) := by
    split
    · rw [closeWriter_barrier]
      have same := SameSettlement.closeWriter state
      have closed : StreamSound state.closeWriter := by
        refine sound.same same fun notReturned => ?_
        obtain ⟨unset, calm⟩ := sound.early notReturned
        obtain ⟨stillUnset, stillCalm⟩ := early_closeWriter unset
        exact ⟨stillUnset, stillCalm.trans calm⟩
      exact closed.advance (same.barrier.trans found) was (.inr (.inr rfl))
        fun _ writer isWriter => closed_closeWriter isWriter
    · next notClose =>
      have abort : barrier.writerMode = .abort := by
        cases mode : barrier.writerMode with
        | close => exact absurd mode notClose
        | abort => rfl
      exact sound.advance found was (.inr (.inr rfl)) fun _ writer isWriter =>
        (sound.settling barrier found).body writer isWriter (.inl ⟨abort, notFinalizing⟩)
  -- without an adapter the delivery counts as settled
  have settlesAlone : ∀ {next : StreamExecution α}, StreamSound next →
      StreamSound (if next.deliveryAdapterClaimed then next else next.settleDelivery) := by
    intro next sound
    split
    · exact sound
    · exact sound.same_of_producer (.settleDelivery next) rfl rfl
  exact settlesAlone settles

theorem StreamSound.afterReturn (sound : StreamSound state) {barrier : Barrier α}
    (found : state.barrier = some barrier)
    (was : barrier.stage = .cancelled ∨ barrier.stage = .returning) :
    StreamSound (state.afterReturn barrier) := by
  unfold StreamExecution.afterReturn
  split
  · exact sound.advance found (was.imp_right .inl) (.inr (.inl rfl)) fun settles => nomatch settles
  · exact sound.awaitSettlement found (was.imp_right .inl)

/-- The cleanups of `finish`. -/
theorem StreamSound.cleanUp (sound : StreamSound state)
    (cleaned : state.cleanUp input = some next) : StreamSound next := by
  unfold StreamExecution.cleanUp at cleaned
  split at cleaned
  swap
  · cases cleaned
  next barrier found =>
  split at cleaned
  · next cancelling =>
    -- the upstream is cancelled
    cases cleaned
    have settling := sound.settling barrier found
    have cancels := settling.cancels
    rw [if_pos (.inr cancelling)] at cancels
    constructor
    case returned => exact sound.returned
    case early => exact sound.early
    case waiting =>
      intro waits noSignal noDelivery
      have none := sound.waiting waits noSignal noDelivery
      rw [found] at none
      cases none
    case unsettled => exact fun none => nomatch none
    case settling =>
      rintro after ⟨⟩
      have phase := settling.phase
      have finalized := settling.finalized
      rw [cancelling] at phase finalized
      refine ⟨fun finalizing => (nomatch finalizing), fun _ => settling.reported ?_,
        settling.finalizations, settling.semantic, ?_, phase, finalized, settling.runs, ?_⟩
      · rw [cancelling]
        decide
      · dsimp only
        rw [cancels]
        rfl
      · rintro writer isWriter (⟨abort, -⟩ | settles | done)
        · exact settling.body writer isWriter (.inl ⟨abort, by rw [cancelling]; decide⟩)
        · cases settles
        · cases done
  · next cancelled =>
    split at cleaned
    · cases cleaned
      exact sound.advance found (.inl cancelled) (.inl rfl) fun settles => nomatch settles
    · cases cleaned
      exact sound.afterReturn found (.inl cancelled)
  · next returning =>
    cases cleaned
    exact sound.afterReturn found (.inr returning)
  · next joining =>
    cases cleaned
    exact sound.awaitSettlement found (.inr (.inr joining))
  · cases cleaned

/-- A claimed finalizer that has not run runs. -/
theorem StreamExecution.finalizeDelivery_eq
    (notFinalized : state.deliveryFinalized = false) (noRuns : state.finalizerRuns = 0) :
    state.finalizeDelivery = { state with
      deliveryFinalized := state.deliveryAdapterClaimed
      finalizerRuns := if state.deliveryAdapterClaimed then 1 else 0 } := by
  cases state
  dsimp only at notFinalized noRuns
  subst notFinalized noRuns
  unfold finalizeDelivery
  dsimp only
  split <;> simp_all

/-- `finish` completes. -/
theorem StreamSound.complete (sound : StreamSound state)
    (completed : state.complete = some next) : StreamSound next := by
  unfold StreamExecution.complete at completed
  split at completed
  swap
  · cases completed
  next barrier found =>
  split at completed
  swap
  · cases completed
  next due =>
  rw [Bool.and_eq_true, decide_eq_true_eq] at due
  have settles := due.1
  have settling := sound.settling barrier found
  have notFinalized : state.deliveryFinalized = false := by
    rw [settling.finalized, settles]
    rfl
  have noRuns : state.finalizerRuns = 0 := by
    rw [settling.runs, notFinalized]
    rfl
  have finalizer := finalizeDelivery_eq notFinalized noRuns
  rw [finalizer] at completed
  cases completed
  constructor
  case returned => exact sound.returned
  case early => exact sound.early
  case waiting =>
    intro waits noSignal noDelivery
    have none := sound.waiting waits noSignal noDelivery
    rw [found] at none
    cases none
  case unsettled => exact fun none => nomatch none
  case settling =>
    rintro after ⟨⟩
    have cancels := settling.cancels
    rw [if_neg (by rw [settles]; decide)] at cancels
    refine ⟨fun finalizing => (nomatch finalizing), fun _ => settling.reported ?_,
      settling.finalizations, settling.semantic, ?_, rfl, rfl, rfl, ?_⟩
    · rw [settles]
      decide
    · exact cancels
    · exact fun writer isWriter _ => settling.body writer isWriter (.inr (.inl settles))

/-- `finish` goes on after `finalizeSuccess`. -/
theorem StreamSound.finalize (sound : StreamSound state)
    {outcome : Except StreamError Unit} (finalized : state.finalize input outcome = some next) :
    StreamSound next := by
  unfold StreamExecution.finalize at finalized
  split at finalized
  swap
  · cases finalized
  next barrier found =>
  split at finalized
  swap
  · cases finalized
  next finalizing =>
  have settling := sound.settling barrier found
  obtain ⟨terminals, unfinalized, semantic, value, success⟩ := settling.pending finalizing
  have cancels := settling.cancels
  rw [if_pos (.inl finalizing)] at cancels
  have phase := settling.phase
  rw [finalizing] at phase
  have notFinalized : state.deliveryFinalized = false := by
    rw [settling.finalized, finalizing]
    rfl
  have noRuns : state.finalizerRuns = 0 := by
    rw [settling.runs, notFinalized]
    rfl
  have aborted : state.stage = .awaitingFirst → state.signal = none →
      state.deliverySignal = true := by
    intro waits noSignal
    cases delivery : state.deliverySignal with
    | true => rfl
    | false =>
      rw [sound.waiting waits noSignal delivery] at found
      cases found
  split at finalized
  · cases finalized
    exact Concluding.sound ⟨terminals, ⟨fun _ => rfl, fun _ => ⟨value, success⟩⟩,
      settling.finalizations, fun _ => semantic, cancels, noRuns, notFinalized, phase,
      sound.returned, sound.early, aborted⟩
  · next error =>
    split at finalized
    · cases finalized
      exact Concluding.sound
        ⟨terminals, ⟨fun ⟨_, same⟩ => (nomatch same), fun same => nomatch same⟩,
        settling.finalizations, fun _ => semantic, cancels, noRuns, notFinalized, phase,
        sound.returned, sound.early, aborted⟩
    · cases finalized

/-- Outside its wait for the first emission the owner may throw at any stage. -/
theorem StreamSound.leave (sound : StreamSound state) {stage : OwnerStage}
    (was : state.stage ≠ .returned) (notWaiting : stage ≠ .awaitingFirst)
    (notReturned : stage ≠ .returned) : StreamSound { state with stage } where
  returned := fun returned => absurd returned notReturned
  early := fun _ => sound.early was
  waiting := fun waits => absurd waits notWaiting
  unsettled := fun none =>
    have held := sound.unsettled none
    ⟨held.1, held.2, held.3, held.4, held.5, held.6, held.7⟩
  settling := fun barrier found =>
    have held := sound.settling barrier found
    ⟨held.1, held.2, held.3, held.4, held.5, held.6, held.7, held.8, held.9⟩

namespace StreamExecution

theorem abortWriter_stage (state : StreamExecution α) (error : Option StreamError)
    (stage : OwnerStage) :
    { state with stage }.abortWriter error = { state.abortWriter error with stage } := by
  have settles : ∀ (state : StreamExecution α) accepted,
      { state with stage }.settleLookahead accepted =
        { state.settleLookahead accepted with stage } := by
    intro state accepted
    cases state
    unfold settleLookahead
    dsimp only
    split <;> rfl
  rcases Option.eq_none_or_eq_some state.writer with found | ⟨writer, found⟩
  · have unchanged : ∀ (state : StreamExecution α), state.writer = none →
        state.abortWriter error = state := by
      intro state none
      unfold abortWriter
      rw [none]
    rw [unchanged state found]
    exact unchanged _ found
  · have aborts : ∀ (state : StreamExecution α), state.writer = some writer →
        state.abortWriter error =
          { state with writer := some (writer.abort error) }.settleLookahead false := by
      intro state some
      unfold abortWriter
      rw [some]
    rw [aborts state found, aborts { state with stage } found]
    exact settles { state with writer := some (writer.abort error) } false

theorem conclude_stage (state : StreamExecution α) (barrier : Barrier α) (stage : OwnerStage) :
    { state with stage }.conclude input barrier = { state.conclude input barrier with stage } := by
  have aborts := abortWriter_stage { state with
    terminals := state.terminals ++ [barrier.result]
    barrier := some { barrier with stage := .cancelling } }
  unfold conclude
  dsimp only
  split
  · exact aborts _ stage
  · exact aborts _ stage
  · rfl

/-- `finish` does not depend on where the owner stands. -/
theorem finish_stage (terminalCause : StreamExecutionTerminalCause) (result : StreamOutcome α)
    (writerMode : WriterMode) (fromProducer : Bool) (stage : OwnerStage) :
    { state with stage }.finish input terminalCause result writerMode fromProducer =
      { state.finish input terminalCause result writerMode fromProducer with stage } := by
  have concludes := @conclude_stage α input { state with
    cause := some terminalCause
    state := .terminating }
  unfold finish
  dsimp only
  split
  · rfl
  · split
    · rfl
    · exact concludes _ stage

end StreamExecution

/-- `finish` runs and the owner is to throw. -/
theorem StreamSound.finish_failing (sound : StreamSound state) {error : StreamError}
    {writerMode : WriterMode} (was : state.stage ≠ .returned) (failure : StreamError) :
    StreamSound { state.finish input terminalCause (.failure error) writerMode fromProducer with
      stage := .failing failure } := by
  rw [← finish_stage]
  refine (sound.leave was ?_ ?_).finish (fun _ same => nomatch same) fun waits => nomatch waits
  · exact fun same => nomatch same
  · exact fun same => nomatch same

/-- `finish` of a returned response runs, and the producer waits for it. -/
theorem StreamSound.finish_producer (sound : StreamSound state) (returned : state.stage = .returned)
    {writerMode : WriterMode}
    (semantic : ∀ value, result = .success value → terminalCause = .semanticSuccess) :
    StreamSound { state.finish input terminalCause result writerMode true with
      producer := .finishing } := by
  have finished : StreamSound (state.finish input terminalCause result writerMode true) := by
    refine sound.finish semantic fun waits => ?_
    rw [returned] at waits
    cases waits
  refine finished.same_of_returned (.producer _) ?_
  have same := @finish_stage α input state terminalCause result writerMode true
    state.stage
  exact (congrArg StreamExecution.stage same).trans returned

theorem streamSound_start (signal : Option SignalReason) (deliverySignal : Bool) :
    StreamSound (StreamExecution.start input signal deliverySignal : StreamExecution α) := by
  have fresh : ∀ (signal : Option SignalReason) (deliverySignal : Bool),
      StreamSound ({ signal, deliverySignal, listening := true, stage := .awaitingFirst
                     state := .precommit, cause := none, barrier := none, writer := none
                     producer := .unset, deliveryAdapterClaimed := false
                     deliveryFinalized := false, deliverySettled := false, firstDelivered := false
                     cancellation := false, finalizerRuns := 0, terminals := []
                     finalizations := [], finalized := none, upstreamCancels := 0 } :
                    StreamExecution α) := by
    intro signal deliverySignal
    exact ⟨fun returned => (nomatch returned), fun _ => ⟨rfl, rfl⟩, fun _ _ _ => rfl,
      fun _ => ⟨rfl, rfl, rfl, rfl, rfl, rfl, .inl rfl⟩, fun _ found => nomatch found⟩
  unfold StreamExecution.start
  dsimp only
  split
  · exact (fresh _ _).finish_failing (fun same => nomatch same) _
  · split
    · exact (fresh _ _).finish_failing (fun same => nomatch same) _
    · exact fresh _ _

/-- The owner has its first emission. -/
theorem StreamSound.first (sound : StreamSound state)
    {emission : NextEmission α} (timely : FirstBeforeAbort state (.first emission))
    (moved : state.first input emission = some next) : StreamSound next := by
  unfold StreamExecution.first at moved
  split at moved
  swap
  · cases moved
  next waits =>
  have notReturned : state.stage ≠ .returned := by
    rw [waits]
    exact fun same => nomatch same
  split at moved
  · next bytes =>
    cases moved
    have none := sound.waiting waits timely.1 timely.2
    have was := sound.unsettled none
    have written : StreamSound { state with writer := some .new, stage := .returned } := by
      refine ⟨fun _ => rfl, fun not => absurd rfl not, fun waits => (nomatch waits), fun _ =>
        ⟨was.1, was.2, was.3, was.4, was.5, was.6, was.7⟩, fun barrier found => ?_⟩
      have found : state.barrier = some barrier := found
      rw [none] at found
      cases found
    exact written.same_of_returned (.enqueue _ bytes true) rfl
  · cases moved
    exact sound.finish_failing notReturned _
  · cases moved
    exact sound.finish_failing notReturned _
  · cases moved
    exact sound.finish_failing notReturned _

/-- The producer goes on. -/
theorem StreamSound.resume (sound : StreamSound state)
    (resumed : state.resume = some next) : StreamSound next := by
  have returned : state.producer ≠ .unset → state.stage = .returned := sound.returned_of_producer
  unfold StreamExecution.resume at resumed
  split at resumed
  · next chunk first blocked =>
    cases resumed
    exact sound.same_of_returned (.enqueue state chunk first) (returned (by rw [blocked]; simp))
  · next first refused =>
    cases resumed
    exact sound.same_of_returned (.producer _) (returned (by rw [refused]; simp))
  · next accepted =>
    cases resumed
    exact sound.same_of_returned (.producer _) (returned (by rw [accepted]; simp))
  · next accepted =>
    cases resumed
    exact sound.same_of_returned (.producer _) (returned (by rw [accepted]; simp))
  · next waits =>
    split at resumed
    · cases resumed
      exact sound.same_of_returned (.producer _) (returned (by rw [waits]; simp))
    · cases resumed
  · cases resumed

/-- The producer has its next emission. -/
theorem StreamSound.nextEmission {after : StreamExecution α} (sound : StreamSound state)
    {emission : NextEmission α} (moved : state.next input emission = some after) :
    StreamSound after := by
  unfold StreamExecution.next at moved
  split at moved
  swap
  · cases moved
  next pulling =>
  have returned : state.stage = .returned :=
    sound.returned_of_producer (by rw [pulling]; exact fun same => nomatch same)
  split at moved
  · next bytes =>
    cases moved
    exact sound.same_of_returned (.enqueue state bytes false) returned
  · next outcome writerMode =>
    cases moved
    refine sound.finish_producer returned fun value same => ?_
    rw [same]
  · cases moved
    exact sound.finish_producer returned fun _ same => nomatch same
  · cases moved
    exact sound.finish_producer returned fun _ same => nomatch same

/-- The body stream pulls. -/
theorem StreamSound.pull (sound : StreamSound state)
    (pulled : state.pull = some next) : StreamSound next := by
  unfold StreamExecution.pull at pulled
  split at pulled
  swap
  · cases pulled
  next writer found =>
  split at pulled
  swap
  · cases pulled
  next readable =>
  have returned : state.stage = .returned := by
    unfold StreamExecution.readable at readable
    rw [Bool.and_eq_true, decide_eq_true_eq] at readable
    exact readable.1
  have pulls : SameSettlement state { state with writer := some writer.pull.1 } :=
    .changeWriter found fun closed => by rw [writer.closed_pull, closed]
  have delivers : ∀ delivers : Bool, SameSettlement state
      (if delivers then { state with writer := some writer.pull.1 }.onCommit.settleLookahead true
        else { state with writer := some writer.pull.1 }) := by
    intro delivers
    cases delivers with
    | true => exact (pulls.trans (.onCommit _)).trans (.settleLookahead _ _)
    | false => exact pulls
  rw [← Option.some.inj pulled]
  exact sound.same_of_returned (delivers writer.pull.2) returned

/-- The client cancels the body stream. -/
theorem StreamSound.cancelBody (sound : StreamSound state)
    (cancelled : state.cancelBody = some next) : StreamSound next := by
  unfold StreamExecution.cancelBody at cancelled
  split at cancelled
  swap
  · cases cancelled
  next writer found =>
  split at cancelled
  swap
  · cases cancelled
  next readable =>
  have returned : state.stage = .returned := by
    unfold StreamExecution.readable at readable
    rw [Bool.and_eq_true, decide_eq_true_eq] at readable
    exact readable.1
  have cancels : SameSettlement state { state with writer := some writer.cancel } :=
    .changeWriter found fun _ => rfl
  cases cancelled
  refine sound.same_of_returned (SameSettlement.trans ?_ (.settleLookahead _ false)) returned
  exact { cancels with }

/-- `finish` of an execution that is not waiting for its first emission. -/
theorem StreamSound.finish_of_returned (sound : StreamSound state)
    (returned : state.stage = .returned) (terminalCause : StreamExecutionTerminalCause)
    (error : StreamError) :
    StreamSound (state.finish input terminalCause (.failure error) .abort false) := by
  refine sound.finish (fun _ same => nomatch same) fun waits => ?_
  rw [returned] at waits
  cases waits

/-- `onCancel` of the writer. -/
theorem StreamSound.onCancel (sound : StreamSound state)
    (cancelled : state.onCancel input = some next) : StreamSound next := by
  unfold StreamExecution.onCancel at cancelled
  split at cancelled
  swap
  · cases cancelled
  next due =>
  have returned : state.stage = .returned := by
    by_contra notReturned
    rw [(sound.early notReturned).2] at due
    cases due
  have calm : StreamSound { state with cancellation := false } :=
    sound.same_of_returned { SameSettlement.refl state with } returned
  cases cancelled
  refine StreamSound.finish_of_returned ?_ ?_ _ _
  · dsimp only
    split
    · exact calm
    · exact calm.same_of_returned (.settleDelivery _) returned
  · dsimp only
    split
    · exact returned
    · exact returned

/-- `abort` of the handle. -/
theorem StreamSound.abort (sound : StreamSound state)
    {cause : StreamExecutionTerminalCause} (aborted : state.abort input cause = some next) :
    StreamSound next := by
  unfold StreamExecution.abort at aborted
  split at aborted
  · next returned =>
    cases aborted
    exact sound.finish_of_returned returned _ _
  · cases aborted

/-- A delivery adapter is claimed. -/
theorem StreamSound.claim (sound : StreamSound state)
    (claimed : state.claim = some next) : StreamSound next := by
  unfold StreamExecution.claim at claimed
  split at claimed
  swap
  · cases claimed
  next free =>
  rw [Bool.and_eq_true, decide_eq_true_eq, Bool.not_eq_true'] at free
  obtain ⟨returned, unclaimed⟩ := free
  cases claimed
  have notFinalized : state.deliveryFinalized = false := by
    rcases Option.eq_none_or_eq_some state.barrier with none | ⟨barrier, found⟩
    · exact (sound.unsettled none).deliveryFinalized
    · rw [(sound.settling barrier found).finalized, unclaimed, Bool.and_false]
  -- as long as `finish` has not completed, the claim changes nothing that is reported
  have claims : state.state ≠ .completed →
      StreamSound { state with deliveryAdapterClaimed := true } := by
    intro running
    refine ⟨sound.returned, sound.early, sound.waiting, fun none => ?_, fun barrier found => ?_⟩
    · have was := sound.unsettled none
      exact ⟨was.1, was.2, was.3, was.4, was.5, was.6, was.7⟩
    · have was := sound.settling barrier found
      have notDone : barrier.stage ≠ .done := by
        intro done
        have phase := was.phase
        rw [if_pos done] at phase
        exact running phase
      refine ⟨was.1, was.2, was.3, was.4, was.5, was.6, ?_, was.8, was.9⟩
      rw [decide_eq_false notDone]
      exact notFinalized
  split
  · next phase =>
    have phase : state.state = .terminating := phase
    exact (claims (by rw [phase]; decide)).same_of_returned (.settleDelivery _) returned
  · next phase =>
    have phase : state.state = .completed := phase
    -- the finalizer of a late claim runs at once
    rcases Option.eq_none_or_eq_some state.barrier with none | ⟨barrier, found⟩
    · have running := (sound.unsettled none).phase
      rw [phase] at running
      rcases running with precommit | committed
      · cases precommit
      · cases committed
    · have was := sound.settling barrier found
      have done : barrier.stage = .done := by
        by_contra running
        have other := was.phase
        rw [if_neg running, phase] at other
        cases other
      have noRuns : state.finalizerRuns = 0 := by
        rw [was.runs, notFinalized]
        rfl
      have runs := @finalizeDelivery_eq α
        { state with deliveryAdapterClaimed := true } notFinalized noRuns
      dsimp only at runs ⊢
      rw [runs]
      refine ⟨sound.returned, sound.early, sound.waiting, fun isNone => ?_, fun other isOther => ?_⟩
      · have isNone : state.barrier = none := isNone
        rw [found] at isNone
        cases isNone
      · have isOther : state.barrier = some other := isOther
        rw [found] at isOther
        cases isOther
        refine ⟨was.1, was.2, was.3, was.4, was.5, was.6, ?_, rfl, was.9⟩
        rw [done]
        rfl
  · next notTerminating notCompleted => exact claims notCompleted

/-- Every move whose first emission comes before any abort keeps an execution sound. -/
theorem StreamSound.step {state next : StreamExecution α} {label : StreamExecutionStep α}
    (timely : FirstBeforeAbort state label) (sound : StreamSound state)
    (stepped : (streamExecution input).step state label = some next) : StreamSound next := by
  cases label with
  | requestAbort reason =>
    simp only [streamExecution] at stepped
    split at stepped
    · cases stepped
    · cases stepped
      have aborted : StreamSound { state with signal := some reason } :=
        ⟨sound.returned, sound.early, fun _ none => (nomatch none), fun none =>
          have was := sound.unsettled none
          ⟨was.1, was.2, was.3, was.4, was.5, was.6, was.7⟩, fun barrier found =>
          have was := sound.settling barrier found
          ⟨was.1, was.2, was.3, was.4, was.5, was.6, was.7, was.8, was.9⟩⟩
      split
      · exact aborted.finish (fun _ same => nomatch same) fun _ none => nomatch none
      · exact aborted
  | deliveryAbort =>
    simp only [streamExecution] at stepped
    split at stepped
    · cases stepped
    · cases stepped
      have aborted : StreamSound { state with deliverySignal := true } :=
        ⟨sound.returned, sound.early, fun _ _ none => (nomatch none), fun none =>
          have was := sound.unsettled none
          ⟨was.1, was.2, was.3, was.4, was.5, was.6, was.7⟩, fun barrier found =>
          have was := sound.settling barrier found
          ⟨was.1, was.2, was.3, was.4, was.5, was.6, was.7, was.8, was.9⟩⟩
      split
      · exact aborted.finish (fun _ same => nomatch same) fun _ _ => rfl
      · exact aborted
  | first emission => exact sound.first timely stepped
  | throwFailure =>
    simp only [streamExecution, StreamExecution.throwFailure] at stepped
    split at stepped
    · next error failing =>
      split at stepped
      · cases stepped
        refine sound.leave ?_ (fun same => nomatch same) fun same => nomatch same
        rw [failing]
        exact fun same => nomatch same
      · cases stepped
    · cases stepped
  | resume => exact sound.resume stepped
  | next emission => exact sound.nextEmission stepped
  | pull => exact sound.pull stepped
  | cancelBody => exact sound.cancelBody stepped
  | onCancel => exact sound.onCancel stepped
  | claim => exact sound.claim stepped
  | markDelivered =>
    simp only [streamExecution] at stepped
    split at stepped
    · cases stepped
      refine sound.same_of_producer (.markDelivered state) ?_ ?_
      all_goals
        unfold StreamExecution.markDelivered
        split <;> rfl
    · cases stepped
  | settle =>
    simp only [streamExecution] at stepped
    split at stepped
    · cases stepped
      exact sound.same_of_producer (.settleDelivery state) rfl rfl
    · cases stepped
  | shutdown => exact sound.abort stepped
  | abortRequest => exact sound.abort stepped
  | abortTotalTimeout => exact sound.abort stepped
  | finalize outcome => exact sound.finalize stepped
  | cleanUp => exact sound.cleanUp stepped
  | complete => exact sound.complete stepped

/-- An execution that has completed has done so through `finish`. -/
theorem StreamSound.barrier_of_completed (sound : StreamSound state)
    (completed : state.state = .completed) :
    ∃ barrier, state.barrier = some barrier ∧ barrier.stage = .done := by
  rcases Option.eq_none_or_eq_some state.barrier with none | ⟨barrier, found⟩
  · have running := (sound.unsettled none).phase
    rw [completed] at running
    rcases running with precommit | committed
    · cases precommit
    · cases committed
  · refine ⟨barrier, found, ?_⟩
    by_contra running
    have phase := (sound.settling barrier found).phase
    rw [if_neg running, completed] at phase
    cases phase

/-- What a sound execution has reported. -/
theorem StreamSound.settlesOnce (sound : StreamSound state) : SettlesOnce state := by
  have unsettled := sound.unsettled
  have settling := sound.settling
  constructor
  case terminalsOnce =>
    rcases Option.eq_none_or_eq_some state.barrier with none | ⟨barrier, found⟩
    · rw [(unsettled none).terminals]
      exact Nat.zero_le 1
    · by_cases finalizing : barrier.stage = .finalizing
      · rw [((settling barrier found).pending finalizing).1]
        exact Nat.zero_le 1
      · rw [((settling barrier found).reported finalizing).1]
        exact Nat.le_refl 1
  case terminal =>
    intro completed
    obtain ⟨barrier, found, done⟩ := sound.barrier_of_completed completed
    rw [((settling barrier found).reported (by rw [done]; decide)).1]
    rfl
  case finalizesOnce =>
    rcases Option.eq_none_or_eq_some state.barrier with none | ⟨barrier, found⟩
    · rw [(unsettled none).finalizations]
      exact Nat.zero_le 1
    · exact (settling barrier found).finalizations
  case finalizesSuccess =>
    intro calls
    rcases Option.eq_none_or_eq_some state.barrier with none | ⟨barrier, found⟩
    · exact absurd (unsettled none).finalizations calls
    · exact ⟨barrier, found, (settling barrier found).semantic calls⟩
  case success =>
    rcases Option.eq_none_or_eq_some state.barrier with none | ⟨barrier, found⟩
    · rw [(unsettled none).terminals, (unsettled none).finalized]
      exact ⟨fun ⟨_, member⟩ => (nomatch member), fun same => nomatch same⟩
    · by_cases finalizing : barrier.stage = .finalizing
      · obtain ⟨terminals, unfinalized, -⟩ := (settling barrier found).pending finalizing
        rw [terminals, unfinalized]
        exact ⟨fun ⟨_, member⟩ => (nomatch member), fun same => nomatch same⟩
      · obtain ⟨terminals, success⟩ := (settling barrier found).reported finalizing
        rw [terminals, ← success]
        constructor
        · rintro ⟨value, member⟩
          exact ⟨value, (List.mem_singleton.mp member).symm⟩
        · rintro ⟨value, same⟩
          exact ⟨value, List.mem_singleton.mpr same.symm⟩
  case cancelled =>
    intro completed
    obtain ⟨barrier, found, done⟩ := sound.barrier_of_completed completed
    rw [(settling barrier found).cancels, if_neg (by rw [done]; decide)]
  case finalizerOnce =>
    rcases Option.eq_none_or_eq_some state.barrier with none | ⟨barrier, found⟩
    · rw [(unsettled none).finalizerRuns]
      exact Nat.zero_le 1
    · rw [(settling barrier found).runs]
      split
      · exact Nat.le_refl 1
      · exact Nat.zero_le 1
  case finalizer =>
    intro completed claimed
    obtain ⟨barrier, found, done⟩ := sound.barrier_of_completed completed
    rw [(settling barrier found).runs, (settling barrier found).finalized, done, claimed]
    rfl
  case bodyEnded =>
    intro completed returned
    obtain ⟨barrier, found, done⟩ := sound.barrier_of_completed completed
    obtain ⟨writer, isWriter⟩ := Option.isSome_iff_exists.mp (sound.returned returned)
    exact ⟨writer, isWriter, (settling barrier found).body writer isWriter (.inr (.inr done))⟩

/-- In every run in which no abort comes before a first wire emission, the execution
settles once. -/
theorem settlesOnce_of_run {signal : Option SignalReason} {deliverySignal : Bool}
    {schedule : List (StreamExecutionStep α)} {state : StreamExecution α}
    (along : (streamExecution input).Along FirstBeforeAbort
      (StreamExecution.start input signal deliverySignal) schedule)
    (ran : (streamExecution input).run (StreamExecution.start input signal deliverySignal)
      schedule =
      some state) : SettlesOnce state :=
  (Concurrent.invariant_of_along StreamSound.step along ran
    (streamSound_start signal deliverySignal)).settlesOnce

/-- A stream that succeeds, delivered by a claimed adapter. -/
theorem settlesOnce_of_run_success :
    let input : StreamExecutionInput := ⟨true, true, id, id⟩
    let schedule : List (StreamExecutionStep Nat) := [.first (.wire [1]), .claim, .pull, .resume,
      .markDelivered, .resume, .next (.terminal (.success 7) .close), .finalize (.ok ()), .cleanUp,
      .cleanUp, .cleanUp, .settle, .complete]
    ∃ state, (streamExecution input).run (StreamExecution.start input none false) schedule =
      some state ∧ state.state = .completed ∧ SettlesOnce state := by
  intro input schedule
  have along : (streamExecution input).Along FirstBeforeAbort
    (StreamExecution.start input none false) schedule := by decide
  have final : ((streamExecution input).run (StreamExecution.start input none false)
    schedule).any (fun state => decide (state.state = .completed)) = true := by decide
  obtain ⟨state, ran, completed⟩ := (Option.any_eq_true ..).mp final
  exact ⟨state, ran, of_decide_eq_true completed, settlesOnce_of_run along ran⟩

/-- The delivery is aborted while the first emission is awaited, and the emission still
arrives: the response is returned, and nothing ends its body. -/
theorem body_not_ended :
    ¬ ∀ (input : StreamExecutionInput) (signal : Option SignalReason) (deliverySignal : Bool)
        (schedule : List (StreamExecutionStep Nat)) (state : StreamExecution Nat),
      (streamExecution input).run (StreamExecution.start input signal deliverySignal) schedule =
        some state → SettlesOnce state := by
  intro settles
  let input : StreamExecutionInput := ⟨true, true, id, id⟩
  let schedule : List (StreamExecutionStep Nat) := [.deliveryAbort, .first (.wire [1]), .cleanUp,
    .cleanUp, .cleanUp, .cleanUp, .complete]
  have final : ((streamExecution input).run (StreamExecution.start input none false)
    schedule).any (fun state => decide (state.state = .completed ∧ state.stage = .returned ∧
      state.writer.map (·.closed) = some false)) = true := by decide
  obtain ⟨state, ran, holds⟩ := (Option.any_eq_true ..).mp final
  obtain ⟨completed, returned, isOpen⟩ := of_decide_eq_true holds
  obtain ⟨writer, isWriter, closed⟩ :=
    (settles input none false schedule state ran).bodyEnded completed returned
  rw [isWriter, Option.map_some, closed] at isOpen
  cases isOpen

end GhcGateway.Gateway
