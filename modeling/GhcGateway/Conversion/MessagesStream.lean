/-
# The Messages stream as a whole

A conversion to the Messages protocol that is accepted writes the start of a
message, lines about its content blocks and the end. A client that reads the lines
has closed blocks in the end, which say what the ledger says: under every kind and
key the whole text, for every tool call one block with all of its arguments, and
for a reasoning item at most one block, which shows it.

Blocks may only overlap when a Responses stream is converted.
-/

import GhcGateway.Conversion.MessagesEnd
import GhcGateway.Conversion.StreamMeaning

namespace GhcGateway.Conversion

open Library Transcript SemanticItemLedger

namespace MessagesEmitter

variable {κ : Type} {context : StreamConversionContext κ} {emitter : MessagesEmitter κ}
  {tracks : List MessagesTrack} {ledger : SemanticItemLedger}
  {state : ConversionState (MessagesEmitter κ)}

/-- The carriers a response may be given at its end: only a completed one with tool
calls is gone on with. -/
def allowsCarriers (ledger : SemanticItemLedger) (status : ResponseStatus) : Bool :=
  status = .completed ∧
    (ledger.sortedOrder.filterMap (ledger.itemOf status)).any SemanticResponseItem.isToolCall

/-- The blocks say what the ledger says. What had not been streamed comes in the order of
the items. -/
structure Answered (context : StreamConversionContext κ) (status : ResponseStatus)
    (ledger : SemanticItemLedger) (created : List (CarrierInput × JsString))
    (streamedContent : OrderedMap StreamKey StreamedContent) (tracks : List MessagesTrack) :
    Prop where
  closed : ∀ track ∈ tracks, track.isOpen = false
  content : ∀ kind key, shownText tracks kind key = ledger.contentValue kind key
  texts : ∀ kind key, ∀ block ∈ Track.valuesOf tracks (.content kind key),
    ∃ shown, block = .text shown
  tool : ∀ key, Track.valuesOf tracks (.tool key) =
    ((ledger.tools.get key).map ToolState.block).toList
  reasoning : ∀ key, Track.valuesOf tracks (.reasoning key) = [] ∨ ∃ block,
    Track.valuesOf tracks (.reasoning key) = [block] ∧
      Fits (lastCarriers context) ledger created key block
  state : ∀ key frozen item, ledger.reasoningAt key = some (frozen, item) →
    item.messagesState ≠ none ∨
      writesCarrier context item (allowsCarriers ledger status) = true →
    Track.valuesOf tracks (.reasoning key) ≠ []
  staged : Staged streamedContent (ledger.sortedOrder.filterMap (ledger.itemOf status)) tracks

theorem wired_event (emitter : MessagesEmitter κ) (event : MessagesEvent) :
    (emitter.event event).wired = emitter.wired ++ [event] := by
  show (emitter.base.emitted ++ [Emission.wire event]).filterMap Emission.wire? = _
  rw [List.filterMap_append]
  rfl

/-- When all items have been gone through, the blocks say what the ledger says. -/
theorem Finishing.answered {streamedContent : OrderedMap StreamKey StreamedContent}
    {extra : ContentKind → StreamKey → JsString} {status : ResponseStatus}
    (finished : Finishing context ledger streamedContent (ledger.listedParts status) emitter tracks
      extra)
    (staged : Staged streamedContent (ledger.sortedOrder.filterMap (ledger.itemOf status)) tracks)
    (gone : Gone context (allowsCarriers ledger status)
      (ledger.sortedOrder.filterMap (ledger.itemOf status)) emitter)
    (sound : ledger.ContentSound)
    (seen : ∀ kind key, streamedValue streamedContent key kind ≠ [] → ledger.SeenAt kind key)
    (frozen : ∀ key frozen item, ledger.reasoningAt key = some (frozen, item) → frozen = true) :
    Answered context status ledger emitter.base.created streamedContent tracks where
  closed := finished.bound.allClosed finished.noText finished.noTool
  texts := finished.bound.texts
  staged := staged
  content := by
    intro kind key
    rw [finished.bound.content, finished.streamed]
    by_cases isSeen : ledger.SeenAt kind key
    · exact finished.written key kind _ ((mem_listedParts sound status).mpr ⟨isSeen, rfl⟩)
    · have unwritten := finished.unwritten key kind fun text member =>
        isSeen ((mem_listedParts sound status).mp member).1
      rw [unwritten, sound.blank kind key isSeen, List.append_nil]
      by_contra some_
      exact isSeen (seen kind key some_)
  tool := by
    intro key
    have related := finished.shown key
    cases there : ledger.tools.get key with
    | none =>
      rw [there] at related
      cases found : emitter.tools.get key with
      | none => exact (finished.bound.noTool key found).2
      | some tool =>
        rw [found] at related
        cases related
    | some state =>
      rw [there] at related
      have is : ledger.itemOf status (.tool key) = some (.toolCall
          ⟨key, state.itemId, state.callId, state.name, state.argumentsJson⟩) := by
        rw [itemOf, there]
        rfl
      have written := gone.tools _ (List.mem_filterMap.mpr
        ⟨_, mem_sortedOrder_of_itemOf sound.wellFormed is, is⟩)
      cases found : emitter.tools.get key with
      | none =>
        rw [found] at related
        cases related
      | some tool =>
        rw [found] at related
        cases related with
        | some block =>
          have own := finished.bound.tool key tool found
          rw [ToolBound] at own
          split at own
          · exact absurd written own.2.1
          · rw [own.2.2, block]
            rfl
  reasoning := by
    intro key
    by_cases written : key ∈ emitter.emittedReasoning
    · exact .inr (finished.bound.written key written)
    · exact .inl (finished.bound.unwritten key written)
  state := by
    intro key isFrozen item there writes
    have always := frozen key isFrozen item there
    subst always
    have is : ledger.itemOf status (.reasoning key) = some (.reasoning item) := by
      rw [itemOf, there, Option.map_some, frozenItem, if_pos rfl]
    have written := gone.reasoning item (List.mem_filterMap.mpr
      ⟨_, mem_sortedOrder_of_itemOf sound.wellFormed is, is⟩) writes
    rw [reasoningAt_key there] at written
    obtain ⟨block, values, -⟩ := finished.bound.written key written
    rw [values]
    exact List.cons_ne_nil _ _

/-- The rest is written and the message ends. -/
theorem ensures_finish (agrees : Agrees context (earlyCarriers context) ledger emitter tracks)
    (same : SameTools ledger emitter.tools) (sound : ledger.ContentSound)
    (frozen : ∀ key frozen item, ledger.reasoningAt key = some (frozen, item) → frozen = true)
    (terminal : TerminalEvent) (usage : SemanticUsage) :
    Ensures (emitter.finish context terminal usage
      (ledger.sortedOrder.filterMap (ledger.itemOf terminal.status))) fun next =>
        ∃ lines after, next.wired = emitter.wired ++ lines.map .block ++
            [.messageDelta terminal.finishReason usage, .messageStop] ∧
          Leads MessagesBlock.extend (oneBlockAtATime context) lines tracks after ∧
          next.streamedContent = emitter.streamedContent ∧
          Answered context terminal.status ledger next.base.created next.streamedContent
            after := by
  obtain ⟨closedTracks, closing, agreesClosed⟩ := goes_closeActiveText agrees
  obtain ⟨⟨quietTracks, quieting, bound⟩, sameBut, quiet⟩ :
      (∃ after, Advances (oneBlockAtATime context) emitter.closeActiveText closedTracks
        emitter.closeActiveText.closeOpenTools after ∧ _) ∧ _ ∧ _ :=
    bound_closeOpenTools agreesClosed.bound
  have tools : emitter.closeActiveText.tools = emitter.tools := closeActiveText_tools emitter
  have boundLast : Bound (Fits (lastCarriers context) ledger
      emitter.closeActiveText.closeOpenTools.base.created) noExtra
      emitter.closeActiveText.closeOpenTools quietTracks := by
    rw [sameBut.created]
    exact bound.mono fun _ _ fits => fits.more (fun _ _ early responses =>
      absurd responses early) fun _ member => member
  have finishing : Finishing context ledger emitter.closeActiveText.streamedContent []
      emitter.closeActiveText.closeOpenTools quietTracks noExtra := by
    refine ⟨boundLast, sameBut.activeText.trans (closeActiveText_activeText emitter), quiet,
      sameBut.shown ledger (by rw [tools]; exact same.shown), sameBut.streamedContent,
      by rintro _ _ _ ⟨⟩, fun _ _ _ => rfl⟩
  have there : ∀ reasoning, .reasoning reasoning ∈
      ledger.sortedOrder.filterMap (ledger.itemOf terminal.status) →
      ledger.reasoningAt reasoning.key = some (true, reasoning) := by
    intro reasoning member
    obtain ⟨entry, -, is⟩ := List.mem_filterMap.mp member
    cases entry with
    | message key =>
      obtain ⟨message, -, is⟩ := Option.bind_eq_some_iff.mp is
      split at is <;> cases is
    | reasoning key =>
      obtain ⟨⟨isFrozen, item⟩, found, eq⟩ := Option.map_eq_some_iff.mp is
      have always := frozen key isFrozen item found
      subst always
      rw [frozenItem, if_pos rfl] at eq
      cases eq
      rw [reasoningAt_key found]
      exact found
    | tool key =>
      obtain ⟨tool, -, eq⟩ := Option.map_eq_some_iff.mp is
      cases eq
  rw [finish]
  refine (rests_emitBufferedItems finishing _ _ there
    (nodup_listedParts sound terminal.status)).bind ?_
  rintro middle ⟨after, extra, ⟨lines, wired, leads⟩, finished, staged, gone⟩
  refine ensures_pure ?_
  rw [closeOpenTools_of_quiet finished.noTool]
  obtain ⟨first, wiredFirst, leadsFirst⟩ := closing
  obtain ⟨second, wiredSecond, leadsSecond⟩ := quieting
  refine ⟨first ++ second ++ lines, after, ?_, (leadsFirst.trans leadsSecond).trans leads,
    finished.streamed.trans (congrArg Prod.snd (progress_closeActiveText emitter)), ?_⟩
  · rw [wired_event, wired_event, wired, wiredSecond, wiredFirst]
    simp only [List.map_append, List.append_assoc, List.singleton_append]
  · have answered : Answered context terminal.status ledger middle.base.created
        middle.streamedContent after := by
      rw [finished.streamed]
      exact Finishing.answered finished staged gone sound (fun kind key streamed =>
        agreesClosed.streamed kind key streamed) frozen
    exact answered

/-! ## The terminal event -/

/-- What the terminal event leaves as it is: the messages, and what has been streamed. -/
structure Settled (state next : ConversionState (MessagesEmitter κ)) : Prop where
  messages : next.ledger.messages = state.ledger.messages
  messageParts : next.ledger.messageParts = state.ledger.messageParts
  streamed : next.emitter.streamedContent = state.emitter.streamedContent

theorem Settled.trans {first second third : ConversionState (MessagesEmitter κ)}
    (one : Settled first second) (two : Settled second third) : Settled first third :=
  ⟨two.messages.trans one.messages, two.messageParts.trans one.messageParts,
    two.streamed.trans one.streamed⟩

/-- All tool calls are done in the ledger, and then in the emitter. -/
theorem linked_finishTools (linked : Linked context state) (started : state.started = true)
    (terminal : TerminalEvent) :
    Ensures (finishTools (streamEmitter context) context state terminal) fun next =>
      Linked context next ∧ next.started = true ∧ Settled state next := by
  rw [finishTools]
  refine ensures_ite (fun _ => ?_) fun _ => ensures_pure ⟨linked, started, rfl, rfl, rfl⟩
  have finishing : ∀ validate, Ensures (measured (streamEmitter context) state do
      let ledger ← state.ledger.finishOpenTools validate
      return { state with ledger := ledger }) fun next => (Linked context next ∧
        next.started = true ∧ Settled state next) ∧
        ∀ key tool, next.ledger.tools.get key = some tool → tool.done = true := by
    intro validate
    refine ensures_measured ((toolChange_finishOpenTools linked.sound validate).bind ?_)
    rintro ledger ⟨change, gets⟩
    obtain ⟨tracks, written, agrees⟩ := linked.agrees
    have onward := change.onward
    have agreesOn := agrees.advance earlyCarriers_stable onward.seen onward.kept
    refine ensures_pure ⟨⟨.step written agreesOn.goes onward ?_ fun notStarted =>
      ⟨rfl, linked.silent notStarted⟩, started, change.messages, change.step.messageParts, rfl⟩,
      fun key tool found => ?_⟩
    · intro key
      rw [gets]
      have related := linked.sameTools key
      generalize state.ledger.tools.get key = own at related ⊢
      generalize state.emitter.tools.get key = tool at related ⊢
      cases related with
      | none => exact .none
      | some same => exact .some ⟨same.callId, same.name, same.argumentsJson, fun _ => rfl⟩
    · rw [gets] at found
      obtain ⟨old, -, rfl⟩ := Option.map_eq_some_iff.mp found
      rfl
  refine (finishing _).bind fun current holds => ?_
  refine (ensures_foldlM (fun next : ConversionState (MessagesEmitter κ) =>
    (Linked context next ∧ next.started = true ∧ Settled state next) ∧ ∀ key tool,
      next.ledger.tools.get key = some tool → tool.done = true) ?_ holds).mono
    fun next ended => ended.1
  rintro next key - ⟨⟨linkedNext, startedNext, settled⟩, isDone⟩
  refine ensures_measured (ensures_bind fun tool _ => ?_)
  obtain ⟨tracks, written, agrees⟩ := linkedNext.agrees
  refine ((goes_toolDone agrees linkedNext.sameTools key tool.argumentsJson (isDone key)).and
    (progress_toolDone _ _ _)).bind ?_
  rintro emitter ⟨⟨goes, same⟩, still⟩
  refine ensures_pure ⟨⟨.step written goes (.refl linkedNext.sound) same fun notStarted => ?_,
    startedNext, settled.trans ⟨rfl, rfl, congrArg Prod.snd still⟩⟩, isDone⟩
  rw [startedNext] at notStarted
  cases notStarted

/-- All reasoning items are finished. -/
theorem linked_finishReasoningItems (linked : Linked context state)
    (started : state.started = true) (terminal : TerminalEvent) :
    Ensures (finishReasoningItems (streamEmitter context) state terminal) fun next =>
      Linked context next ∧ next.started = true ∧ Settled state next ∧ ∀ key frozen item,
        next.ledger.reasoningAt key = some (frozen, item) → frozen = true := by
  have finished := reasoningChange_finishOpenReasoning linked.sound terminal.status
  rw [finishReasoningItems]
  split
  · exact ensures_error
  · next ledger items returned =>
    obtain ⟨step, content, kept, frozen, there⟩ := finished _ returned
    simp only at step content kept frozen there
    refine ensures_foldlM (fun next : ConversionState (MessagesEmitter κ) =>
      Linked context next ∧ next.started = true ∧ Settled state next ∧
        next.ledger = ledger) ?_
      ⟨linked.ledgerOnly (content.onward kept) step.tools, started,
        ⟨step.messages, step.messageParts, rfl⟩, rfl⟩ |>.mono ?_
    · rintro next item member ⟨linkedNext, startedNext, settled, rfl⟩
      refine ensures_measured ?_
      obtain ⟨tracks, written, agrees⟩ := linkedNext.agrees
      refine ((goes_reasoningDone agrees earlyCarriers_stable (there item member)
        fun other _ _ => other).and (progress_reasoningDone _ _)).bind ?_
      rintro emitter ⟨⟨goes, tools⟩, still⟩
      refine ensures_pure ⟨.step written goes (.refl linkedNext.sound) ?_ fun notStarted => ?_,
        startedNext, settled.trans ⟨rfl, rfl, congrArg Prod.snd still⟩, rfl⟩
      · rw [tools]
        exact linkedNext.sameTools
      · rw [startedNext] at notStarted
        cases notStarted
    · rintro next ⟨linkedNext, startedNext, settled, rfl⟩
      exact ⟨linkedNext, startedNext, settled, frozen⟩

/-- What a client of an accepted stream has read. -/
def Concluded (context : StreamConversionContext κ) (terminal : TerminalEvent)
    (state last : ConversionState (MessagesEmitter κ)) : Prop :=
  Settled state last ∧ ∃ lines tracks, last.emitter.wired = .messageStart :: lines.map .block ++
      [.messageDelta terminal.finishReason last.usage, .messageStop] ∧
    Leads MessagesBlock.extend (oneBlockAtATime context) lines ([] : List MessagesTrack) tracks ∧
    Answered context terminal.status last.ledger last.emitter.base.created
      last.emitter.streamedContent tracks

/-- The terminal event ends the message. -/
theorem concluded_handleTerminal (linked : Linked context state) (started : state.started = true)
    (terminal : TerminalEvent) :
    Ensures (handleTerminal (streamEmitter context) context state terminal)
      (Concluded context terminal state) := by
  rw [handleTerminal]
  have marking : Ensures (measured (streamEmitter context) state do
      require (¬ state.terminal)
      return { state with terminal := true }) fun next =>
        Linked context next ∧ next.started = true ∧ Settled state next :=
    ensures_measured (ensures_bind fun _ _ => ensures_pure
      ⟨⟨linked.sound, linked.sameTools, linked.agrees, linked.silent⟩, started, rfl, rfl, rfl⟩)
  refine marking.bind ?_
  rintro first ⟨linked, started, settled⟩
  refine (linked_finishTools linked started terminal).bind ?_
  rintro second ⟨linked, started, more⟩
  have settled := settled.trans more
  refine (linked_finishReasoningItems linked started terminal).bind ?_
  rintro third ⟨linked, started, more, frozen⟩
  have settled := settled.trans more
  refine ensures_through (Concluded context terminal state) ?_ fun last concluded => ?_
  · refine ensures_measured (((ensures_items linked.sound.wellFormed terminal.status).and
      (ensures_items_same frozen terminal.status)).bind ?_)
    rintro ⟨ledger, items⟩ ⟨⟨-, items_eq, -⟩, same⟩
    simp only at items_eq same ⊢
    subst items_eq same
    obtain ⟨tracks, written, agrees⟩ := linked.agrees
    rw [Written, if_pos started] at written
    obtain ⟨lines, wired, leads⟩ := written
    refine (ensures_finish agrees linked.sameTools linked.sound frozen terminal third.usage).bind ?_
    rintro last ⟨more, after, wiredLast, leadsLast, still, answered⟩
    refine ensures_pure ⟨settled.trans ⟨rfl, rfl, still⟩, lines ++ more, after, ?_,
      leads.trans leadsLast, answered⟩
    show last.wired = _
    rw [wiredLast, wired, List.map_append]
    simp only [List.cons_append, List.append_assoc]
  · obtain ⟨settled, lines, tracks, wired, leads, answered⟩ := concluded
    refine ensures_pure ⟨⟨settled.messages, settled.messageParts, settled.streamed⟩, lines, tracks,
      ?_, leads, answered⟩
    show (last.emitter.base.emitted ++ [Emission.terminal terminal.status]).filterMap
      Emission.wire? = _
    rw [List.filterMap_append]
    exact (List.append_nil _).trans wired

/-- The start of the output streams nothing. -/
theorem progress_startOutput (state : ConversionState (MessagesEmitter κ))
    (event : SemanticStreamEvent) :
    Ensures (startOutput (streamEmitter context) state event) fun next =>
      next.ledger = state.ledger ∧ next.emitter.progress = state.emitter.progress := by
  rw [startOutput]
  refine ensures_ite (fun _ => ?_) fun _ => ensures_pure ⟨rfl, rfl⟩
  refine ensures_through (fun next : ConversionState (MessagesEmitter κ) =>
    next.ledger = state.ledger ∧ next.emitter.progress = state.emitter.progress)
    (ensures_measured (ensures_pure ⟨rfl, rfl⟩)) fun first same => ?_
  exact ensures_measured (ensures_pure same)

theorem concluded_handleEvent (linked : Linked context state) (terminal : TerminalEvent) :
    Ensures (handleEvent (streamEmitter context) context .messages state (.terminal terminal))
      (Concluded context terminal state) := by
  refine ((linked_startOutput linked (.terminal terminal)).and
    (progress_startOutput state (.terminal terminal))).bind ?_
  rintro current ⟨⟨linkedCurrent, -, starts, -⟩, ledger, still⟩
  refine (concluded_handleTerminal linkedCurrent (starts rfl) terminal).mono ?_
  rintro last ⟨settled, concluded⟩
  have first : Settled state current := ⟨by rw [ledger], by rw [ledger], congrArg Prod.snd still⟩
  exact ⟨first.trans settled, concluded⟩

/-! ## Runs -/

/-- The blocks tell a client what some events have said. -/
structure Told (before : List SemanticStreamEvent) (tracks : List MessagesTrack) : Prop where
  closed : ∀ track ∈ tracks, track.isOpen = false
  content : ∀ kind key, shownText tracks kind key = said before (.content kind key)
  tool : ∀ key, Track.valuesOf tracks (.tool key) = ((called before key).map fun call =>
    MessagesBlock.toolUse call.1 call.2 (said before (.arguments key))).toList

theorem Answered.told {status : ResponseStatus} {created : List (CarrierInput × JsString)}
    {streamedContent : OrderedMap StreamKey StreamedContent} {before : List SemanticStreamEvent}
    (answered : Answered context status ledger created streamedContent tracks)
    (heard : Heard before ledger) : Told before tracks := by
  refine ⟨answered.closed, fun kind key => ?_, fun key => ?_⟩
  · exact (answered.content kind key).trans (heard.held (.content kind key))
  · rw [answered.tool, ← heard.calls, ← heard.held, callOf, held]
    cases ledger.tools.get key <;> rfl

/-- A conversion that is accepted has come to an end, if the decoder keeps to the
discipline. `also` is whatever else each event keeps. -/
theorem concluded_convertEvents {store : κ}
    {decoded : Generator SemanticStreamEvent ConversionError Unit}
    (disciplined : Disciplined context.source decoded.yielded)
    (also : List SemanticStreamEvent → ConversionState (MessagesEmitter κ) → Prop)
    (begins : also [] (initialState (streamEmitter context) context (new context store)))
    (keeps : ∀ before state event after, decoded.yielded = before ++ event :: after →
      state.ledger.ContentSound → also before state →
      Ensures (handleEvent (streamEmitter context) context .messages state event)
        (also (before ++ [event])))
    {last : ConversionState (MessagesEmitter κ)}
    (returned : (convertEvents (streamEmitter context) context .messages (new context store)
      decoded).outcome = .ok last) :
    ∃ before terminal after state, decoded.yielded = before ++ .terminal terminal :: after ∧
      Heard before last.ledger ∧ also before state ∧ Concluded context terminal state last := by
  refine convertEvents_along (fun before state => Heard before state.ledger ∧
      (Linked context state ∧ Recorded before state.started state.ledger) ∧ also before state)
    (fun last => ∃ before terminal after state,
      decoded.yielded = before ++ .terminal terminal :: after ∧ Heard before last.ledger ∧
        also before state ∧ Concluded context terminal state last) ?_ ?_ ?_ returned
  · rintro before state event after whole notTerminal ⟨heard, ⟨linked, recorded⟩, holds⟩
    exact ((heard_handleEvent heard notTerminal).and ((continues_handleEvent disciplined whole
      linked recorded notTerminal).and (keeps before state event after whole heard.sound
        holds))).mono fun next all => ⟨all.1.1, all.1.2, all.2⟩
  · rintro before state terminal after whole ⟨heard, ⟨linked, -⟩, holds⟩
    exact ((heard_handleEvent_terminal heard terminal).and
      (concluded_handleEvent linked terminal)).mono fun last both =>
        ⟨both.1.1, before, terminal, after, state, whole, both.1.2, holds, both.2⟩
  · exact ⟨heard_new _, ⟨linked_start store context.degradations context.accumulatorBytes,
      recorded_new _ _⟩, begins⟩

/-- A conversion to the Messages protocol that is accepted tells a client what its
decoder has said up to the terminal event, if the decoder keeps to the discipline. -/
theorem told_convertEvents {store : κ}
    {decoded : Generator SemanticStreamEvent ConversionError Unit}
    (disciplined : Disciplined context.source decoded.yielded)
    {last : ConversionState (MessagesEmitter κ)}
    (returned : (convertEvents (streamEmitter context) context .messages (new context store)
      decoded).outcome = .ok last) :
    ∃ before terminal after lines tracks,
      decoded.yielded = before ++ .terminal terminal :: after ∧
      (convertEvents (streamEmitter context) context .messages (new context store)
        decoded).yielded.filterMap Emission.wire? = .messageStart :: lines.map .block ++
          [.messageDelta terminal.finishReason last.usage, .messageStop] ∧
      Leads MessagesBlock.extend (oneBlockAtATime context) lines [] tracks ∧
      Told before tracks ∧
      Answered context terminal.status last.ledger last.emitter.base.created
        last.emitter.streamedContent tracks := by
  obtain ⟨-, -, emitted⟩ := convertEvents_ok returned
  obtain ⟨before, terminal, after, -, whole, heard, -, -, lines, tracks, wired, leads,
    answered⟩ := concluded_convertEvents disciplined (fun _ _ => True) trivial
      (fun _ _ _ _ _ _ _ _ _ => trivial) returned
  refine ⟨before, terminal, after, lines, tracks, whole, ?_, leads, answered.told heard, answered⟩
  rw [emitted]
  exact wired

theorem disciplined_greetingEvents : Disciplined .responses greetingEvents.yielded := by
  refine ⟨?_, ?_, fun other => absurd rfl other⟩
  · intro before key status after whole itemId messagesState opaqueState member
    have listed : SemanticStreamEvent.reasoningStart key itemId (some messagesState) opaqueState ∈
        greetingEvents.yielded := by
      rw [whole]
      exact List.mem_append_left _ member
    simp [greetingEvents] at listed
  · rintro - before outputIndex itemType after whole itemId callId name member
    have listed : SemanticStreamEvent.toolStart (.responsesTool outputIndex) itemId callId name ∈
        greetingEvents.yielded := by
      rw [whole]
      exact List.mem_append_left _ member
    simp only [greetingEvents, List.mem_cons, List.not_mem_nil, reduceCtorEq, or_false] at listed
    cases listed
    rcases before with _ | ⟨first, _ | ⟨second, rest⟩⟩
    · cases whole
    · cases whole
    · obtain ⟨-, later⟩ := List.cons.inj whole
      obtain ⟨rfl, -⟩ := List.cons.inj later
      exact ⟨_, _, List.mem_cons_of_mem _ List.mem_cons_self⟩

theorem told_convertEvents_greeting :
    ∃ last : ConversionState (MessagesEmitter Unit),
      (convertEvents (streamEmitter (plainContext .responses)) (plainContext .responses) .messages
        (new (plainContext .responses) ()) greetingEvents).outcome = .ok last ∧
      ∃ before terminal after lines tracks,
        greetingEvents.yielded = before ++ .terminal terminal :: after ∧
        (convertEvents (streamEmitter (plainContext .responses)) (plainContext .responses) .messages
          (new (plainContext .responses) ()) greetingEvents).yielded.filterMap Emission.wire? =
            .messageStart :: lines.map .block ++
              [.messageDelta terminal.finishReason last.usage, .messageStop] ∧
        Leads MessagesBlock.extend (oneBlockAtATime (plainContext .responses)) lines [] tracks ∧
        Told before tracks ∧
        Answered (plainContext .responses) terminal.status last.ledger last.emitter.base.created
          last.emitter.streamedContent tracks :=
  ⟨_, rfl, told_convertEvents disciplined_greetingEvents rfl⟩

end MessagesEmitter

end GhcGateway.Conversion
