/-
# A conversion to the Messages protocol

The state of a conversion whose target is the Messages protocol: the emitter
agrees with the ledger, and what has been written is the start of a message with
blocks that a client can follow. `Linked` is that of a state; `Recorded` relates
the ledger to the events handled so far.

What a decoder has to do for this is `Disciplined`. Nothing but a Responses stream
reports that parts and items are done; when it reports this of a tool call, it has
reported that the call is done. A thinking block with a state is not reported done
before there is any output.
-/

import GhcGateway.Conversion.MessagesRun
import GhcGateway.Conversion.StreamRun

namespace GhcGateway.Conversion

open Library Transcript

/-- An event that says that a part or an item is done. -/
def SemanticStreamEvent.endsPart : SemanticStreamEvent → Bool
  | .contentDone .. => true
  | .itemDone .. => true
  | _ => false

structure Disciplined (source : InferenceProtocol) (events : List SemanticStreamEvent) : Prop where
  announced : ∀ before key status after, events = before ++ .reasoningDone key status :: after →
    ∀ itemId messagesState opaqueState,
      .reasoningStart key itemId (some messagesState) opaqueState ∈ before →
      ∃ event ∈ before, startsSemanticOutput event = true
  ended : source = .responses → ∀ before outputIndex itemType after,
    events = before ++ .itemDone outputIndex itemType :: after →
    ∀ itemId callId name, .toolStart (.responsesTool outputIndex) itemId callId name ∈ before →
      ∃ argumentsJson completed,
        .toolDone (.responsesTool outputIndex) argumentsJson completed ∈ before
  unended : source ≠ .responses → ∀ event ∈ events, event.endsPart = false

namespace SemanticItemLedger

variable {ledger next : SemanticItemLedger}
  {kind : ContentKind} {delta : JsString} {key : StreamKey}

/-- What every operation keeps. -/
structure Onward (ledger next : SemanticItemLedger) : Prop where
  sound : next.ContentSound
  seen : ∀ kind key, ledger.SeenAt kind key → next.SeenAt kind key
  kept : KeepsFinished ledger next

theorem Onward.refl (sound : ledger.ContentSound) : Onward ledger ledger :=
  ⟨sound, fun _ _ seen => seen, keepsFinished_of_same rfl rfl⟩

theorem Onward.trans {first second third : SemanticItemLedger} (one : Onward first second)
    (two : Onward second third) : Onward first third :=
  ⟨two.sound, fun kind key seen => two.seen kind key (one.seen kind key seen),
    one.kept.trans two.kept⟩

theorem ContentChange.onward (change : ContentChange kind key delta ledger next) :
    Onward ledger next :=
  ⟨change.sound, fun otherKind other seen => (change.seen otherKind other).mpr (.inr seen),
    keepsFinished_of_same change.frame.reasoning change.frame.reasoningParts⟩

theorem ContentChange.seenHere (change : ContentChange kind key delta ledger next) :
    next.SeenAt kind key :=
  (change.seen kind key).mpr (.inl ⟨rfl, rfl⟩)

theorem ContentKept.onward (content : ContentKept ledger next) (kept : KeepsFinished ledger next) :
    Onward ledger next :=
  ⟨content.sound, fun kind key seen => (content.seen kind key).mpr seen, kept⟩

theorem ContentKept.onwardMessage (content : ContentKept ledger next)
    (step : MessageStep ledger next) : Onward ledger next :=
  content.onward (keepsFinished_of_same step.reasoning step.reasoningParts)

theorem ToolChange.onward (change : ToolChange ledger next) : Onward ledger next :=
  change.content.onward (keepsFinished_of_same change.step.reasoning change.step.reasoningParts)

end SemanticItemLedger

open SemanticItemLedger

variable {event : SemanticStreamEvent} {after : Bool}

/-- The ledger and the start of the output go back to the events handled. -/
structure Recorded (before : List SemanticStreamEvent) (started : Bool)
    (ledger : SemanticItemLedger) : Prop where
  begun : started = false → ∀ event ∈ before, startsSemanticOutput event = false
  stated : ∀ key messagesState, ledger.messagesStateAt key = some messagesState →
    ∃ itemId opaqueState, .reasoningStart key itemId (some messagesState) opaqueState ∈ before
  toolStarted : ∀ key tool, ledger.tools.get key = some tool →
    ∃ itemId callId name, .toolStart key itemId callId name ∈ before
  toolDone : ∀ key argumentsJson completed, .toolDone key argumentsJson completed ∈ before →
    ∃ tool, ledger.tools.get key = some tool ∧ tool.done = true

theorem recorded_new (started : Bool) (maxBytes : Nat) :
    Recorded [] started (.new maxBytes) where
  begun := by
    intro _ event member
    cases member
  stated := by
    intro key messagesState state
    cases state
  toolStarted := by
    intro key tool found
    cases found
  toolDone := by
    intro key argumentsJson completed member
    cases member

variable {before : List SemanticStreamEvent} {started : Bool} {ledger next : SemanticItemLedger}

/-- An event whose effect on states and tool calls is recorded. -/
theorem Recorded.step (recorded : Recorded before started ledger)
    (goesOn : after = false → started = false)
    (begins : after = false → startsSemanticOutput event = false)
    (stated : ∀ key messagesState, next.messagesStateAt key = some messagesState →
      ledger.messagesStateAt key = some messagesState ∨
        ∃ itemId opaqueState, event = .reasoningStart key itemId (some messagesState) opaqueState)
    (toolStarted : ∀ key tool, next.tools.get key = some tool →
      (∃ old, ledger.tools.get key = some old) ∨
        ∃ itemId callId name, event = .toolStart key itemId callId name)
    (toolDone : ∀ key tool, ledger.tools.get key = some tool → tool.done = true →
      ∃ tool, next.tools.get key = some tool ∧ tool.done = true)
    (ownDone : ∀ key argumentsJson completed, event = .toolDone key argumentsJson completed →
      ∃ tool, next.tools.get key = some tool ∧ tool.done = true) :
    Recorded (before ++ [event]) after next where
  begun := by
    intro notStarted other member
    rcases List.mem_append.mp member with old | new
    · exact recorded.begun (goesOn notStarted) other old
    · rw [List.mem_singleton.mp new]
      exact begins notStarted
  stated := by
    intro key messagesState state
    rcases stated key messagesState state with old | ⟨itemId, opaqueState, rfl⟩
    · obtain ⟨itemId, opaqueState, member⟩ := recorded.stated key messagesState old
      exact ⟨itemId, opaqueState, List.mem_append_left _ member⟩
    · exact ⟨itemId, opaqueState, List.mem_append_right _ List.mem_cons_self⟩
  toolStarted := by
    intro key tool found
    rcases toolStarted key tool found with ⟨old, there⟩ | ⟨itemId, callId, name, rfl⟩
    · obtain ⟨itemId, callId, name, member⟩ := recorded.toolStarted key old there
      exact ⟨itemId, callId, name, List.mem_append_left _ member⟩
    · exact ⟨itemId, callId, name, List.mem_append_right _ List.mem_cons_self⟩
  toolDone := by
    intro key argumentsJson completed member
    rcases List.mem_append.mp member with old | new
    · obtain ⟨tool, there, isDone⟩ := recorded.toolDone key argumentsJson completed old
      exact toolDone key tool there isDone
    · exact ownDone key argumentsJson completed (List.mem_singleton.mp new).symm

/-- An event that leaves the tool calls alone, and the states as they are. -/
theorem Recorded.same (recorded : Recorded before started ledger)
    (goesOn : after = false → started = false)
    (begins : after = false → startsSemanticOutput event = false)
    (states : ∀ key, next.messagesStateAt key = ledger.messagesStateAt key)
    (tools : next.tools = ledger.tools)
    (notDone : ∀ key argumentsJson completed, event ≠ .toolDone key argumentsJson completed) :
    Recorded (before ++ [event]) after next := by
  refine recorded.step goesOn begins (fun key messagesState state => .inl ?_)
    (fun key tool found => .inl ⟨tool, ?_⟩) (fun key tool there isDone => ⟨tool, ?_, isDone⟩)
    fun key argumentsJson completed is => absurd is (notDone key argumentsJson completed)
  · rw [← states, state]
  · rw [← tools, found]
  · rw [tools, there]

/-- A tool call that is open in the ledger takes arguments, and may be done then. -/
theorem Recorded.setTool (recorded : Recorded before started ledger) {event : SemanticStreamEvent}
    (begins : started = false → startsSemanticOutput event = false)
    (reasoning : next.reasoning = ledger.reasoning) {key : StreamKey} {tool changed : ToolState}
    (there : ledger.tools.get key = some tool) (tools : next.tools = ledger.tools.set key changed)
    (stays : tool.done = true → changed.done = true)
    (ownDone : ∀ other argumentsJson completed, event = .toolDone other argumentsJson completed →
      other = key ∧ changed.done = true) :
    Recorded (before ++ [event]) started next := by
  refine recorded.step (fun same => same) begins (fun other had has => .inl ?_)
    (fun other found is => .inl ?_) (fun other found is isDone => ?_)
    fun other argumentsJson completed is => ?_
  · rw [messagesStateAt_of_same reasoning] at has
    exact has
  · rw [tools, OrderedMap.get_set] at is
    split at is
    · next same =>
      subst same
      exact ⟨tool, there⟩
    · exact ⟨found, is⟩
  · rw [tools, OrderedMap.get_set]
    split
    · next same =>
      subst same
      rw [there, Option.some.injEq] at is
      subst is
      exact ⟨changed, rfl, stays isDone⟩
    · exact ⟨found, is, isDone⟩
  · obtain ⟨rfl, isDone⟩ := ownDone other argumentsJson completed is
    exact ⟨changed, by rw [tools, OrderedMap.get_set_self], isDone⟩

namespace MessagesEmitter

variable {κ : Type} {context : StreamConversionContext κ} {emitter : MessagesEmitter κ}
  {tracks : List MessagesTrack} {state : ConversionState (MessagesEmitter κ)}

/-! ## What has been written -/

/-- The start of the message and the blocks, once there is output. -/
def Written (oneAtATime : Bool) (started : Bool) (emitter : MessagesEmitter κ)
    (tracks : List MessagesTrack) : Prop :=
  if started = true then ∃ lines, emitter.wired = .messageStart :: lines.map .block ∧
    Leads MessagesBlock.extend oneAtATime lines [] tracks
  else emitter.wired = [] ∧ tracks = []

/-- Nothing can be written before there is output. -/
structure Silent (emitter : MessagesEmitter κ) : Prop where
  tools : ∀ key, emitter.tools.get key = none
  pendingContent : ∀ key, emitter.pendingContent.get key = none
  pendingReasoning : ∀ key item, emitter.pendingReasoning.get key = some item →
    item.messagesState = none

/-- Before the end, only what does not convert a Responses stream may write carriers. -/
def earlyCarriers (context : StreamConversionContext κ) : CarrierFit := fun _ _ =>
  context.source ≠ .responses

theorem earlyCarriers_stable : (earlyCarriers context).Stable := fun _ _ _ _ early => early

structure Linked (context : StreamConversionContext κ)
    (state : ConversionState (MessagesEmitter κ)) : Prop where
  sound : state.ledger.ContentSound
  sameTools : SameTools state.ledger state.emitter.tools
  agrees : ∃ tracks, Written (oneBlockAtATime context) state.started state.emitter tracks ∧
    Agrees context (earlyCarriers context) state.ledger state.emitter tracks
  silent : state.started = false → Silent state.emitter

/-- A piece of work of the emitter, after one of the ledger. -/
theorem Linked.step {after : SemanticItemLedger} {next : MessagesEmitter κ} {usage : SemanticUsage}
    {terminal : Bool} (written : Written (oneBlockAtATime context) started emitter tracks)
    (goes : Goes context (earlyCarriers context) after emitter tracks next)
    (onward : Onward ledger after) (sameTools : SameTools after next.tools)
    (silent : started = false → next.wired = emitter.wired ∧ Silent next) :
    Linked context ⟨after, next, usage, started, terminal⟩ := by
  obtain ⟨blocks, ⟨lines, wired, leads⟩, agrees⟩ := goes
  refine ⟨onward.sound, sameTools, ⟨blocks, ?_, agrees⟩, fun notStarted => (silent notStarted).2⟩
  rw [Written] at written ⊢
  cases started with
  | true =>
    rw [if_pos rfl] at written ⊢
    obtain ⟨lines', wired', leads'⟩ := written
    refine ⟨lines' ++ lines, ?_, leads'.trans leads⟩
    rw [wired, wired', List.map_append]
    rfl
  | false =>
    rw [if_neg Bool.false_ne_true] at written ⊢
    obtain ⟨same, -⟩ := silent rfl
    have nothing : lines = [] := by
      rw [same] at wired
      exact List.map_eq_nil_iff.mp (List.self_eq_append_right.mp wired)
    subst nothing
    refine ⟨same.trans written.1, ?_⟩
    have blocks_eq : tracks.map Track.block = blocks.map Track.block := Option.some.inj leads.1
    rw [written.2] at blocks_eq
    exact List.map_eq_nil_iff.mp blocks_eq.symm

theorem emit_degradations (emitter : MessagesEmitter κ)
    (degradations : List ConversionDegradationRule) :
    degradations.foldl (fun emitter rule => emitter.emit (.degradation rule)) emitter =
      { emitter with base := { emitter.base with
        emitted := emitter.base.emitted ++ degradations.map .degradation } } := by
  induction degradations generalizing emitter with
  | nil => rw [List.map_nil, List.append_nil, List.foldl_nil]
  | cons rule rest ih =>
    rw [List.foldl_cons, ih, List.map_cons]
    simp only [emit, EmitterBase.emit, List.append_assoc, List.singleton_append]

theorem linked_start (store : κ) (degradations : List ConversionDegradationRule) (maxBytes : Nat) :
    Linked context ⟨.new maxBytes, degradations.foldl
      (fun emitter rule => emitter.emit (.degradation rule)) (new context store), zeroUsage, false,
      false⟩ := by
  rw [emit_degradations]
  have wired : (degradations.map (@Emission.degradation MessagesEvent)).filterMap
      Emission.wire? = [] := by
    rw [List.filterMap_map, List.filterMap_eq_nil_iff]
    exact fun rule _ => rfl
  have bound : Bound (Fits (earlyCarriers context) (.new maxBytes) []) noExtra
      (new context store) [] := bound_new store
  refine ⟨contentSound_new maxBytes, fun key => .none,
    ⟨[], ⟨wired, rfl⟩, bound.congr rfl, ?_, ?_, ?_, ?_⟩, fun _ => ⟨fun _ => rfl, fun _ => rfl, ?_⟩⟩
  · intro _ key tool found
    cases found
  · intro kind key written
    exact absurd rfl written
  · intro key content waits
    cases waits
  · intro key item waits
    cases waits
  · intro key item waits
    cases waits

/-! ## Before there is output -/

variable (context)

theorem drainCurrent_silent (silent : Silent emitter) :
    emitter.drainCurrent context = .ok emitter := by
  have reasoning : emitter.drainReasoning context = .ok emitter := by
    rw [drainReasoning]
    split
    · next item waits =>
      rw [silent.pendingReasoning _ item waits]
      rfl
    · rfl
  have tool : emitter.drainTool = emitter := by
    rw [drainTool, silent.tools]
  have content : emitter.drainContent = emitter := by
    rw [drainContent, silent.pendingContent]
  rw [drainCurrent, reasoning]
  show Except.ok emitter.drainTool.drainContent = _
  rw [tool, content]

variable {context}

theorem Silent.erase (silent : Silent emitter) (key : StreamKey) :
    ∀ other item, (emitter.pendingReasoning.erase key).get other = some item →
      item.messagesState = none := by
  intro other item waits
  rw [OrderedMap.get_erase] at waits
  split at waits
  · cases waits
  · exact silent.pendingReasoning other item waits

theorem silent_drainLoop (fuel : Nat) (silent : Silent emitter) :
    Ensures (emitter.drainLoop context fuel) fun next =>
      next.wired = emitter.wired ∧ Silent next := by
  induction fuel generalizing emitter with
  | zero => exact ensures_ok ⟨rfl, silent⟩
  | succ fuel ih =>
    rw [drainLoop]
    refine ensures_ite (fun _ => ensures_ok ⟨rfl, silent⟩) fun _ => ?_
    rw [drainCurrent_silent context silent]
    refine ensures_ite (fun _ => ?_) fun _ => ensures_ite (fun _ => ?_) fun _ =>
      ensures_pure ⟨rfl, silent⟩
    · exact ih ⟨silent.tools, silent.pendingContent, silent.pendingReasoning⟩
    · exact ih ⟨silent.tools, silent.pendingContent, silent.erase _⟩

theorem silent_contentDone (silent : Silent emitter) (orderKey : StreamKey) (contentIndex : Nat) :
    Ensures (emitter.contentDone context orderKey contentIndex) fun next =>
      next.wired = emitter.wired ∧ Silent next :=
  silent_drainLoop _ ⟨silent.tools, silent.pendingContent, silent.pendingReasoning⟩

theorem silent_itemDone (silent : Silent emitter) (outputIndex : Int) :
    Ensures (emitter.itemDone context outputIndex) fun next =>
      next.wired = emitter.wired ∧ Silent next := by
  have ended : emitter.endTool (.responsesTool outputIndex) = emitter := by
    rw [endTool, silent.tools]
  rw [itemDone, ended]
  exact silent_drainLoop _ ⟨silent.tools, silent.pendingContent, silent.pendingReasoning⟩

theorem silent_reasoningDone (silent : Silent emitter) {item : SemanticReasoningItem StreamKey}
    (stateless : item.messagesState = none) :
    Ensures (emitter.reasoningDone context item) fun next =>
      next.wired = emitter.wired ∧ Silent next := by
  rw [reasoningDone]
  refine ensures_ite (fun _ => ensures_ok ⟨rfl, silent.tools, silent.pendingContent, ?_⟩) fun _ =>
    ensures_ite (fun _ => ensures_ok ⟨rfl, silent⟩) fun has => absurd stateless has
  intro key waiting waits
  rw [OrderedMap.get_set] at waits
  split at waits
  · cases waits
    exact stateless
  · exact silent.pendingReasoning key waiting waits

theorem silent_toolArgumentsDelta (silent : Silent emitter) (key : StreamKey) (delta : JsString) :
    Ensures (emitter.toolArgumentsDelta context key delta) fun next =>
      next.wired = emitter.wired ∧ Silent next := by
  rw [toolArgumentsDelta, silent.tools]
  exact ensures_error

/-! ## The start -/

/-- The first event that carries output starts the message. -/
theorem linked_startOutput (linked : Linked context state) (event : SemanticStreamEvent) :
    Ensures (startOutput (streamEmitter context) state event) fun next =>
      Linked context next ∧ next.ledger = state.ledger ∧
      (startsSemanticOutput event = true → next.started = true) ∧
      (next.started = false → state.started = false) := by
  rw [startOutput]
  refine ensures_ite (fun starts => ?_) fun stays =>
    ensures_pure ⟨linked, rfl, ?_, fun same => same⟩
  · have notStarted : state.started = false := by
      rw [Bool.and_eq_true, Bool.not_eq_true'] at starts
      exact starts.1
    obtain ⟨tracks, written, agrees⟩ := linked.agrees
    rw [Written, notStarted, if_neg Bool.false_ne_true] at written
    obtain ⟨wired, nothing⟩ := written
    refine ensures_through (fun next : ConversionState (MessagesEmitter κ) =>
      Linked context next ∧ next.ledger = state.ledger ∧ next.started = true) ?_ ?_
    · refine ensures_measured (ensures_pure ⟨⟨linked.sound, linked.sameTools,
        ⟨tracks, ?_, agrees.congr rfl rfl agrees.pending agrees.reasoning⟩, ?_⟩, rfl, rfl⟩)
      · refine ⟨[], ?_, by rw [nothing]; exact .refl []⟩
        show ((state.emitter.base.emitted ++ [Emission.firstSemantic]) ++
          [Emission.wire MessagesEvent.messageStart]).filterMap Emission.wire? = _
        rw [List.filterMap_append, List.filterMap_append,
          show state.emitter.base.emitted.filterMap Emission.wire? = [] from wired]
        rfl
      · rintro ⟨⟩
    · rintro next ⟨linkedNext, sameLedger, isStarted⟩
      refine ensures_measured (ensures_bind fun emitter same => ensures_pure ?_)
      cases same
      exact ⟨linkedNext, sameLedger, fun _ => isStarted, fun notYet => by
        rw [isStarted] at notYet
        cases notYet⟩
  · intro starts
    cases isStarted : state.started with
    | true => rfl
    | false =>
      rw [isStarted, starts] at stays
      exact absurd rfl stays

end MessagesEmitter

end GhcGateway.Conversion
