/-
# The steps of a conversion to the Messages protocol

Every event but the terminal one takes a linked state to a linked one, and is
recorded. The ledger comes first in each step, so what the emitter is handed has
been taken by the ledger: arguments belong to a tool call that is open there, a
reasoning item is finished, content has been seen.
-/

import GhcGateway.Conversion.MessagesLinks

namespace GhcGateway.Conversion

open Library Transcript SemanticItemLedger

namespace MessagesEmitter

variable {κ : Type} {context : StreamConversionContext κ}
  {state : ConversionState (MessagesEmitter κ)} {before : List SemanticStreamEvent}
  {key : StreamKey} {event : SemanticStreamEvent} {after : SemanticItemLedger}
  {events : List SemanticStreamEvent} {kind : ContentKind}

def Continues (context : StreamConversionContext κ) (before : List SemanticStreamEvent)
    (event : SemanticStreamEvent) (next : ConversionState (MessagesEmitter κ)) : Prop :=
  Linked context next ∧ Recorded (before ++ [event]) next.started next.ledger

/-- The ledger alone takes an event. -/
theorem Linked.ledgerOnly (linked : Linked context state) (onward : Onward state.ledger after)
    (tools : after.tools = state.ledger.tools) : Linked context { state with ledger := after } := by
  obtain ⟨tracks, written, agrees⟩ := linked.agrees
  exact .step written (agrees.advance earlyCarriers_stable onward.seen onward.kept).goes onward
    (linked.sameTools.congr tools) fun notStarted => ⟨rfl, linked.silent notStarted⟩

/-- An event that changes nothing. -/
theorem Linked.idle (linked : Linked context state)
    (recorded : Recorded before state.started state.ledger)
    (begins : state.started = false → startsSemanticOutput event = false)
    (notDone : ∀ key argumentsJson completed, event ≠ .toolDone key argumentsJson completed) :
    Continues context before event state :=
  ⟨linked, recorded.same (fun same => same) begins (fun _ => rfl) rfl notDone⟩

/-- The emitter takes content the ledger has seen. Before there is output it notes
the message at most. -/
theorem Linked.content (linked : Linked context state) (onward : Onward state.ledger after)
    (tools : after.tools = state.ledger.tools) (seen : after.SeenAt kind key) (delta : JsString)
    (orderKey : Option StreamKey) {fallback : Fallible (MessagesEmitter κ)}
    (notes : Ensures fallback fun next =>
      next = state.emitter ∨ ∃ key, next = state.emitter.noteMessage key) :
    Ensures (if state.started then
        (streamEmitter context).contentDelta state.emitter kind key delta orderKey
      else fallback) fun next => Linked context { state with ledger := after, emitter :=
        next } := by
  obtain ⟨tracks, written, agrees⟩ := linked.agrees
  have agreesOn := agrees.advance earlyCarriers_stable onward.seen onward.kept
  refine ensures_ite (fun isStarted => ?_) fun notStarted => ?_
  · refine (goes_contentDelta agreesOn seen delta orderKey).mono ?_
    rintro next ⟨goes, sameTools⟩
    refine .step written goes onward ?_ fun notStarted => ?_
    · rw [sameTools]
      exact linked.sameTools.congr tools
    · rw [isStarted] at notStarted
      cases notStarted
  · refine notes.mono ?_
    rintro next (rfl | ⟨noted, rfl⟩)
    · exact linked.ledgerOnly onward tools
    · exact .step written (.quietly (agreesOn.noteMessage noted) rfl) onward
        (linked.sameTools.congr tools) fun notStarted =>
          ⟨rfl, ⟨(linked.silent notStarted).tools, (linked.silent notStarted).pendingContent,
            (linked.silent notStarted).pendingReasoning⟩⟩

section Steps

variable (linked : Linked context state)
  (recorded : Recorded before state.started state.ledger) {event : SemanticStreamEvent}
  (begins : state.started = false → startsSemanticOutput event = false)
  {orderKey : Option StreamKey} {delta : JsString} {itemId : Option JsString}

include linked recorded begins

theorem continues_reasoningStart {messagesState : Option MessagesReasoningState}
    {opaqueState : Option OpaqueReasoningState}
    (is : event = .reasoningStart key itemId messagesState opaqueState) :
    Ensures (do
      let ledger ← state.ledger.startReasoning key itemId messagesState opaqueState
      return { state with ledger := ledger }) (Continues context before event) := by
  refine (reasoningChange_startReasoning linked.sound key itemId messagesState opaqueState).bind ?_
  rintro ledger ⟨step, content, kept, states⟩
  refine ensures_pure ⟨linked.ledgerOnly (content.onward kept) step.tools,
    recorded.step (fun same => same) begins (fun other had has => ?_)
      (fun other tool found => .inl ⟨tool, by rw [← step.tools, found]⟩)
      (fun other tool found isDone => ⟨tool, by rw [step.tools, found], isDone⟩) ?_⟩
  · rw [states] at has
    split at has
    · next same =>
      subst same
      rcases Option.or_eq_some_iff.mp has with offered | ⟨-, old⟩
      · rw [offered] at is
        exact .inr ⟨itemId, opaqueState, is⟩
      · exact .inl old
    · exact .inl has
  · intro other argumentsJson completed isDone
    rw [is] at isDone
    cases isDone

theorem continues_reasoningDelta {address : ReasoningPartAddress} (grows : delta ≠ [])
    (notDone : ∀ key argumentsJson completed, event ≠ .toolDone key argumentsJson completed) :
    Ensures (handleReasoningDelta (streamEmitter context) state address delta)
      (Continues context before event) := by
  rw [handleReasoningDelta]
  refine (reasoningChange_appendReasoning linked.sound address grows).bind ?_
  rintro ledger ⟨step, content, kept, states⟩
  refine ensures_bind fun emitter same => ensures_pure ?_
  have sameEmitter : emitter = state.emitter := by
    split at same <;> cases same <;> rfl
  subst sameEmitter
  exact ⟨linked.ledgerOnly (content.onward kept) step.tools,
    recorded.same (fun same => same) begins states step.tools notDone⟩

theorem continues_reasoningDone {status : ItemStatus} (is : event = .reasoningDone key status)
    (announced : state.started = false → ∀ itemId messagesState opaqueState,
      .reasoningStart key itemId (some messagesState) opaqueState ∉ before) :
    Ensures (do
      let (ledger, item) ← state.ledger.finishReasoning key status
      let next ← (streamEmitter context).reasoningDone state.emitter item
      return { state with ledger := ledger, emitter := next })
      (Continues context before event) := by
  obtain ⟨tracks, written, agrees⟩ := linked.agrees
  refine (reasoningChange_finishReasoning linked.sound key status).bind ?_
  rintro ⟨ledger, item⟩ ⟨step, content, kept, states, own, there⟩
  simp only at step content kept states own there ⊢
  subst own
  have onward := content.onward kept
  have agreesOn := agrees.advance earlyCarriers_stable onward.seen onward.kept
  have stateless : state.started = false → item.messagesState = none := by
    intro notStarted
    cases has : item.messagesState with
    | none => rfl
    | some messagesState =>
      rw [messagesState_of_reasoningAt there, states] at has
      obtain ⟨itemId, opaqueState, member⟩ := recorded.stated item.key messagesState has
      exact absurd member (announced notStarted itemId messagesState opaqueState)
  have silent : Ensures ((streamEmitter context).reasoningDone state.emitter item) fun next =>
      state.started = false → next.wired = state.emitter.wired ∧ Silent next :=
    fun next returned notStarted =>
      silent_reasoningDone (linked.silent notStarted) (stateless notStarted) next returned
  refine ((goes_reasoningDone agreesOn earlyCarriers_stable there fun other _ _ => other).and
    silent).bind ?_
  rintro next ⟨⟨goes, tools⟩, silent⟩
  refine ensures_pure ⟨.step written goes onward ?_ silent,
    recorded.same (fun same => same) begins states step.tools ?_⟩
  · rw [tools]
    exact linked.sameTools.congr step.tools
  · rw [is]
    intro other argumentsJson completed isDone
    cases isDone

theorem continues_contentDelta
    (notDone : ∀ key argumentsJson completed, event ≠ .toolDone key argumentsJson completed) :
    Ensures (handleContentDelta (streamEmitter context) state kind key orderKey delta)
      (Continues context before event) := by
  rw [handleContentDelta]
  refine (contentChange_appendContent linked.sound kind key delta orderKey).bind ?_
  intro ledger change
  refine (linked.content change.onward change.frame.tools change.seenHere delta orderKey
    (ensures_ok (.inr ⟨_, rfl⟩))).bind fun next linkedNext => ensures_pure ⟨linkedNext, ?_⟩
  exact recorded.same (fun same => same) begins
    (messagesStateAt_of_same change.frame.reasoning) change.frame.tools notDone

theorem continues_contentSnapshot {text : JsString}
    (notDone : ∀ key argumentsJson completed, event ≠ .toolDone key argumentsJson completed) :
    Ensures (handleContentSnapshot (streamEmitter context) state kind key orderKey text)
      (Continues context before event) := by
  rw [handleContentSnapshot]
  refine (contentChange_observeContent linked.sound kind key orderKey).bind ?_
  rintro ⟨ledger, first⟩ change
  simp only at change ⊢
  have recordedOn : Recorded (before ++ [event]) state.started ledger :=
    recorded.same (fun same => same) begins (messagesStateAt_of_same change.frame.reasoning)
      change.frame.tools notDone
  refine ensures_bind fun suffix _ => ensures_ite (fun _ => ?_) fun _ =>
    ensures_ite (fun _ => ?_) fun _ => ?_
  · refine (contentChange_appendContent change.sound kind key suffix orderKey).bind ?_
    intro after more
    have tools := more.frame.tools.trans change.frame.tools
    refine (linked.content (change.onward.trans more.onward) tools more.seenHere suffix orderKey
      (ensures_pure (.inl rfl))).bind fun next linkedNext => ensures_pure ⟨linkedNext, ?_⟩
    exact recorded.same (fun same => same) begins
      (messagesStateAt_of_same (more.frame.reasoning.trans change.frame.reasoning)) tools notDone
  · exact (linked.content change.onward change.frame.tools change.seenHere [] orderKey
      (ensures_ok (.inr ⟨_, rfl⟩))).bind fun next linkedNext =>
        ensures_pure ⟨linkedNext, recordedOn⟩
  · exact ensures_pure ⟨linked.ledgerOnly change.onward change.frame.tools, recordedOn⟩

/-- The work that only a Responses stream asks for. -/
theorem Linked.frontier (content : ContentKept state.ledger after)
    (step : MessageStep state.ledger after) {work : Fallible (MessagesEmitter κ)}
    (notDone : ∀ key argumentsJson completed, event ≠ .toolDone key argumentsJson completed)
    (goes : ∀ tracks, Agrees context (earlyCarriers context) after state.emitter tracks →
      SameTools after state.emitter.tools → Ensures work fun next =>
        Goes context (earlyCarriers context) after state.emitter tracks next ∧
        SameTools after next.tools) (silent : Silent state.emitter → Ensures work fun next =>
      next.wired = state.emitter.wired ∧ Silent next) :
    Ensures (do
      let next ← work
      return { state with ledger := after, emitter := next }) (Continues context before event) := by
  obtain ⟨tracks, written, agrees⟩ := linked.agrees
  have onward := content.onwardMessage step
  have agreesOn := agrees.advance earlyCarriers_stable onward.seen onward.kept
  have quiet : Ensures work fun next => state.started = false →
      next.wired = state.emitter.wired ∧ Silent next :=
    fun next returned notStarted => silent (linked.silent notStarted) next returned
  refine ((goes tracks agreesOn (linked.sameTools.congr step.tools)).and quiet).bind ?_
  rintro next ⟨⟨goes, sameTools⟩, quiet⟩
  exact ensures_pure ⟨.step written goes onward sameTools quiet,
    recorded.same (fun same => same) begins (messagesStateAt_of_same step.reasoning) step.tools
      notDone⟩

theorem continues_contentDone (responses : context.source = .responses) {orderKey : StreamKey}
    {contentIndex : Nat}
    (notDone : ∀ key argumentsJson completed, event ≠ .toolDone key argumentsJson completed) :
    Ensures (do
      let ledger ← state.ledger.finishContent key
      let next ← (streamEmitter context).contentDone state.emitter orderKey contentIndex
      return { state with ledger := ledger, emitter := next })
      (Continues context before event) := by
  refine (contentKept_finishContent linked.sound key).bind ?_
  rintro ledger ⟨content, step⟩
  exact linked.frontier recorded begins content step notDone
    (fun tracks agrees same => goes_contentDone agrees responses earlyCarriers_stable same orderKey
      contentIndex) fun silent => silent_contentDone silent orderKey contentIndex

theorem continues_itemDone (responses : context.source = .responses) {outputIndex : Int}
    {itemType : JsString}
    (ended : ∀ itemId callId name,
      .toolStart (.responsesTool outputIndex) itemId callId name ∈ before →
      ∃ argumentsJson completed,
        .toolDone (.responsesTool outputIndex) argumentsJson completed ∈ before)
    (notDone : ∀ key argumentsJson completed, event ≠ .toolDone key argumentsJson completed) :
    Ensures (do
      let ledger ← (if itemType = js "message" then
          state.ledger.finishMessage (.responsesMessage outputIndex)
        else pure state.ledger)
      let next ← (streamEmitter context).itemDone state.emitter outputIndex
      return { state with ledger := ledger, emitter := next })
      (Continues context before event) := by
  refine ensures_through (fun ledger : SemanticItemLedger =>
    ContentKept state.ledger ledger ∧ MessageStep state.ledger ledger)
    (ensures_ite (fun _ => contentKept_finishMessage linked.sound (.responsesMessage outputIndex))
      fun _ => ensures_pure ⟨.refl linked.sound, linked.sound.wellFormed, rfl, rfl, rfl⟩) ?_
  rintro ledger ⟨content, step⟩
  have isDone : ∀ tool, ledger.tools.get (.responsesTool outputIndex) = some tool →
      tool.done = true := by
    intro tool found
    rw [step.tools] at found
    obtain ⟨itemId, callId, name, started⟩ := recorded.toolStarted _ tool found
    obtain ⟨argumentsJson, completed, reported⟩ := ended itemId callId name started
    obtain ⟨other, there, isDone⟩ := recorded.toolDone _ argumentsJson completed reported
    rw [found, Option.some.injEq] at there
    rw [there]
    exact isDone
  exact linked.frontier recorded begins content step notDone
    (fun tracks agrees same => goes_itemDone agrees responses earlyCarriers_stable same outputIndex
      isDone) fun silent => silent_itemDone silent outputIndex

theorem continues_toolStart {callId name : JsString}
    (is : event = .toolStart key itemId callId name) :
    Ensures (do
      let ledger ← state.ledger.startTool key itemId callId name
      let next ← (streamEmitter context).toolStart state.emitter key callId name itemId
      return { state with ledger := ledger, emitter := next })
      (Continues context before event) := by
  obtain ⟨tracks, written, agrees⟩ := linked.agrees
  refine (toolChange_startTool linked.sound key itemId callId name).bind ?_
  rintro ledger ⟨change, absent, tools⟩
  have onward := change.onward
  have agreesOn := agrees.advance earlyCarriers_stable onward.seen onward.kept
  refine (goes_toolStart agreesOn linked.sameTools tools).bind ?_
  rintro next ⟨goes, sameTools⟩
  refine ensures_pure ⟨.step written goes onward sameTools fun notStarted => ?_,
    recorded.step (fun same => same) begins (fun other had has =>
      .inl ?_) (fun other tool found => ?_)
      (fun other tool found isDone => ⟨tool, ?_, isDone⟩) ?_⟩
  · have quiet := begins notStarted
    rw [is] at quiet
    cases quiet
  · rw [messagesStateAt_of_same change.step.reasoning] at has
    exact has
  · rw [tools, OrderedMap.get_set] at found
    split at found
    · next same =>
      subst same
      exact .inr ⟨itemId, callId, name, is⟩
    · exact .inl ⟨tool, found⟩
  · rw [tools, OrderedMap.get_set_of_ne, found]
    rintro rfl
    rw [absent] at found
    cases found
  · rw [is]
    intro other argumentsJson completed isDone
    cases isDone

theorem continues_toolArgumentsDelta (is : event = .toolArgumentsDelta key delta) :
    Ensures (do
      let ledger ← state.ledger.appendToolArguments key delta
      let next ← (streamEmitter context).toolArgumentsDelta state.emitter key delta
      return { state with ledger := ledger, emitter := next })
      (Continues context before event) := by
  obtain ⟨tracks, written, agrees⟩ := linked.agrees
  refine (toolChange_appendToolArguments linked.sound key delta).bind ?_
  rintro ledger ⟨change, tool, there, open_, tools⟩
  have onward := change.onward
  have agreesOn := agrees.advance earlyCarriers_stable onward.seen onward.kept
  have quiet : Ensures ((streamEmitter context).toolArgumentsDelta state.emitter key delta)
      fun next => state.started = false → next.wired = state.emitter.wired ∧ Silent next :=
    fun next returned notStarted =>
      silent_toolArgumentsDelta (linked.silent notStarted) key delta next returned
  refine ((goes_toolArgumentsDelta agreesOn linked.sameTools there open_ tools).and quiet).bind ?_
  rintro next ⟨⟨goes, sameTools⟩, quiet⟩
  refine ensures_pure ⟨.step written goes onward sameTools quiet,
    recorded.setTool begins change.step.reasoning there tools
      (fun isDone => isDone) ?_⟩
  rw [is]
  intro other argumentsJson completed isDone
  cases isDone

theorem continues_toolDone {argumentsJson : Option JsString} {completed : Option Bool}
    (is : event = .toolDone key argumentsJson completed) :
    Ensures (handleToolDone (streamEmitter context) context .messages state key argumentsJson
      completed) (Continues context before event) := by
  obtain ⟨tracks, written, agrees⟩ := linked.agrees
  rw [handleToolDone]
  refine ensures_bind fun _ _ => ensures_bind fun _ _ => ?_
  refine (toolChange_finishTool linked.sound key argumentsJson _ _).bind ?_
  rintro ⟨ledger, suffix⟩ ⟨change, tool, there, repeated, -, tools⟩
  simp only at change repeated tools ⊢
  have onward := change.onward
  have agreesOn := agrees.advance earlyCarriers_stable onward.seen onward.kept
  have isDone : ∀ state, ledger.tools.get key = some state → state.done = true := by
    intro found is
    rw [tools, OrderedMap.get_set_self, Option.some.injEq] at is
    rw [← is]
  -- the suffix that the final arguments add
  refine ensures_through (fun next =>
    Goes context (earlyCarriers context) ledger state.emitter tracks next ∧
      SameTools ledger next.tools) (ensures_ite (fun grows => ?_) fun same => ?_) ?_
  · refine goes_toolArgumentsDelta agreesOn linked.sameTools there ?_ tools
    cases open_ : tool.done with
    | false => rfl
    | true => exact absurd (repeated open_) grows
  · refine ensures_pure ⟨agreesOn.goes, ?_⟩
    obtain ⟨own, found, sameTool⟩ := linked.sameTools.inEmitter there
    rw [not_not] at same
    rw [same, List.append_nil] at tools
    exact linked.sameTools.setLedger found tools
      ⟨sameTool.callId, sameTool.name, sameTool.argumentsJson, fun _ => rfl⟩
  rintro next ⟨goes, sameTools⟩
  refine ensures_bind fun _ _ => ?_
  refine ensures_through (fun last =>
    Goes context (earlyCarriers context) ledger state.emitter tracks last ∧
      SameTools ledger last.tools) (ensures_ite (fun _ => ?_) fun _ =>
        ensures_pure ⟨goes, sameTools⟩) ?_
  · exact goes.ensures fun blocks agreesNext => goes_toolDone agreesNext sameTools key _ isDone
  rintro last ⟨goes, sameTools⟩
  refine ensures_pure ⟨.step written goes onward sameTools fun notStarted => ?_,
    recorded.setTool begins change.step.reasoning there tools (fun _ => rfl) ?_⟩
  · have quiet := begins notStarted
    rw [is] at quiet
    cases quiet
  · rw [is]
    intro other otherArguments otherCompleted same
    cases same
    exact ⟨rfl, rfl⟩

end Steps

/-- An event that the emitter has been started for. -/
theorem continues_handleStarted {after : List SemanticStreamEvent}
    (disciplined : Disciplined context.source events) (whole : events = before ++ event :: after)
    (linked : Linked context state) (recorded : Recorded before state.started state.ledger)
    (begins : state.started = false → startsSemanticOutput event = false)
    (notTerminal : ∀ terminal, event ≠ .terminal terminal) :
    Ensures (handleStarted (streamEmitter context) context .messages state event)
      (Continues context before event) := by
  have responses : event.endsPart = true → context.source = .responses := by
    intro ends
    by_contra other
    have unended := disciplined.unended other event (by
      rw [whole]
      exact List.mem_append_right _ List.mem_cons_self)
    rw [ends] at unended
    cases unended
  have idle : (∀ key argumentsJson completed, event ≠ .toolDone key argumentsJson completed) →
      Continues context before event state := linked.idle recorded begins
  cases event with
  | terminal terminal => exact absurd rfl (notTerminal terminal)
  | semanticProgress => exact ensures_pure (idle (by rintro _ _ _ ⟨⟩))
  | messageStart key => exact ensures_pure (idle (by rintro _ _ _ ⟨⟩))
  | usage usage => exact ensures_pure (idle (by rintro _ _ _ ⟨⟩))
  | reasoningStart key itemId messagesState opaqueState =>
    exact ensures_measured (continues_reasoningStart linked recorded begins rfl)
  | reasoningDelta address delta =>
    exact ensures_ite (fun _ => ensures_pure (idle (by rintro _ _ _ ⟨⟩))) fun grows =>
      ensures_measured (continues_reasoningDelta linked recorded begins grows
        (by rintro _ _ _ ⟨⟩))
  | reasoningSnapshot address text =>
    refine ensures_measured (ensures_bind fun suffix _ => ensures_ite
      (fun _ => ensures_pure (idle (by rintro _ _ _ ⟨⟩))) fun grows => ?_)
    exact continues_reasoningDelta linked recorded begins grows (by rintro _ _ _ ⟨⟩)
  | reasoningDone key status =>
    refine ensures_measured (continues_reasoningDone linked recorded begins rfl ?_)
    intro notStarted itemId messagesState opaqueState member
    obtain ⟨event, earlier, starts⟩ := disciplined.announced before key status after whole itemId
      messagesState opaqueState member
    rw [recorded.begun notStarted event earlier] at starts
    cases starts
  | contentDelta kind key orderKey delta =>
    exact ensures_measured (continues_contentDelta linked recorded begins (by rintro _ _ _ ⟨⟩))
  | contentSnapshot kind key orderKey text =>
    exact ensures_measured (continues_contentSnapshot linked recorded begins (by rintro _ _ _ ⟨⟩))
  | contentDone key orderKey contentIndex =>
    exact ensures_measured (continues_contentDone linked recorded begins (responses rfl)
      (by rintro _ _ _ ⟨⟩))
  | itemDone outputIndex itemType =>
    exact ensures_measured (continues_itemDone linked recorded begins (responses rfl)
      (disciplined.ended (responses rfl) before outputIndex itemType after whole)
      (by rintro _ _ _ ⟨⟩))
  | toolStart key itemId callId name =>
    exact ensures_measured (continues_toolStart linked recorded begins rfl)
  | toolArgumentsDelta key delta =>
    exact ensures_measured (continues_toolArgumentsDelta linked recorded begins rfl)
  | toolDone key argumentsJson completed =>
    exact ensures_measured (continues_toolDone linked recorded begins rfl)

/-- Every event but the terminal one keeps a state linked. -/
theorem continues_handleEvent {after : List SemanticStreamEvent}
    (disciplined : Disciplined context.source events) (whole : events = before ++ event :: after)
    (linked : Linked context state) (recorded : Recorded before state.started state.ledger)
    (notTerminal : ∀ terminal, event ≠ .terminal terminal) :
    Ensures (handleEvent (streamEmitter context) context .messages state event)
      (Continues context before event) := by
  have general : Ensures (do
      let current ← startOutput (streamEmitter context) state event
      handleStarted (streamEmitter context) context .messages current event)
      (Continues context before event) := by
    refine (linked_startOutput linked event).bind ?_
    rintro current ⟨linkedCurrent, sameLedger, starts, goesOn⟩
    refine continues_handleStarted disciplined whole linkedCurrent ?_ ?_ notTerminal
    · rw [sameLedger]
      exact ⟨fun notYet => recorded.begun (goesOn notYet), recorded.stated, recorded.toolStarted,
        recorded.toolDone⟩
    · intro notYet
      cases begins : startsSemanticOutput event with
      | false => rfl
      | true =>
        rw [starts begins] at notYet
        cases notYet
  have begins : startsSemanticOutput event = false →
      state.started = false → startsSemanticOutput event = false := fun quiet _ => quiet
  cases event with
  | usage usage =>
    obtain ⟨tracks, written, agrees⟩ := linked.agrees
    have wired : (state.emitter.emit (.usage usage)).wired = state.emitter.wired := by
      show (state.emitter.base.emitted ++ [Emission.usage usage]).filterMap Emission.wire? = _
      rw [List.filterMap_append]
      exact List.append_nil _
    have agreesNext : Agrees context (earlyCarriers context) state.ledger
        (state.emitter.emit (.usage usage)) tracks :=
      agrees.congr rfl rfl agrees.pending agrees.reasoning
    exact ensures_pure ⟨.step written (.quietly agreesNext wired) (.refl linked.sound)
      linked.sameTools fun notStarted => ⟨wired, (linked.silent notStarted).tools,
        (linked.silent notStarted).pendingContent, (linked.silent notStarted).pendingReasoning⟩,
      recorded.same (fun same => same) (begins rfl) (fun _ => rfl) rfl (by rintro _ _ _ ⟨⟩)⟩
  | messageStart key =>
    refine ensures_measured ((contentKept_startMessage linked.sound key).bind ?_)
    rintro ledger ⟨content, step⟩
    refine ensures_bind fun next same => ensures_pure ?_
    cases same
    obtain ⟨tracks, written, agrees⟩ := linked.agrees
    have onward := content.onwardMessage step
    have agreesOn := agrees.advance earlyCarriers_stable onward.seen onward.kept
    exact ⟨.step written (.quietly (agreesOn.noteMessage key) rfl) onward
      (linked.sameTools.congr step.tools) fun notStarted => ⟨rfl,
        (linked.silent notStarted).tools, (linked.silent notStarted).pendingContent,
        (linked.silent notStarted).pendingReasoning⟩,
      recorded.same (fun same => same) (begins rfl) (messagesStateAt_of_same step.reasoning)
        step.tools (by rintro _ _ _ ⟨⟩)⟩
  | _ => exact general

end MessagesEmitter

end GhcGateway.Conversion
