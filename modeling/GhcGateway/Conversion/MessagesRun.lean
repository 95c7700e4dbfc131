/-
# The operations of the Messages emitter

What every operation does to the blocks of the message as long as the emitter
agrees with the ledger: it writes lines that take a client from the blocks before
it to blocks the emitter agrees with again. `Agrees` is the agreement, and `Goes`
says this of one piece of work.

A block of reasoning shows an item the ledger has finished. The ledger may still
take in more of such an item, but nothing a client has been shown.
-/

import GhcGateway.Conversion.LedgerContent
import GhcGateway.Conversion.MessagesTranscript

namespace GhcGateway.Conversion

open Library Transcript OrderedMap

variable {tools : OrderedMap StreamKey MessagesTool} {key : StreamKey}
  {item final : SemanticReasoningItem StreamKey} {tool : MessagesTool} {state : ToolState}

/-- What a carrier was made from is held against the item it stands for. -/
abbrev CarrierFit := SemanticReasoningItem StreamKey → CarrierInput → Prop

/-- A block shows a reasoning item: the state a Messages client can hold, or a
carrier next to the text. -/
inductive Shows (allowed : CarrierFit) (created : List (CarrierInput × JsString))
    (item : SemanticReasoningItem StreamKey) : MessagesBlock → Prop
  | thinking (thought signature : JsString) :
    item.messagesState = some (.thinking thought signature) →
    Shows allowed created item (.thinking thought signature)
  | redacted (data : JsString) :
    item.messagesState = some (.redactedThinking data) →
    Shows allowed created item (.redactedThinking data)
  | carried (input : CarrierInput) (token : JsString) :
    (input, token) ∈ created → allowed item input →
    input.projection = MessagesEmitter.visibleText item →
    Shows allowed created item (if MessagesEmitter.visibleText item = [] then
      .redactedThinking token else .thinking (MessagesEmitter.visibleText item) token)

/-- A block shows the finished reasoning item of a key. -/
def Fits (allowed : CarrierFit) (ledger : SemanticItemLedger)
    (created : List (CarrierInput × JsString)) (key : StreamKey) (block : MessagesBlock) : Prop :=
  ∃ item, ledger.reasoningAt key = some (true, item) ∧ Shows allowed created item block

/-- What holds of an item and a carrier holds of the item later on. -/
def CarrierFit.Stable (allowed : CarrierFit) : Prop :=
  ∀ item final input, SemanticItemLedger.Later item final → allowed item input → allowed final input

variable {allowed : CarrierFit} {created : List (CarrierInput × JsString)}
  {ledger after : SemanticItemLedger}

theorem visibleText_later (later : SemanticItemLedger.Later item final) :
    MessagesEmitter.visibleText final = MessagesEmitter.visibleText item := by
  rw [MessagesEmitter.visibleText, later.parts]
  rfl

theorem Shows.later {item final : SemanticReasoningItem StreamKey} {block : MessagesBlock}
    (stable : allowed.Stable) (shows_ : Shows allowed created item block)
    (later : SemanticItemLedger.Later item final) : Shows allowed created final block := by
  cases shows_ with
  | thinking thought signature has => exact .thinking thought signature (later.state _ has)
  | redacted data has => exact .redacted data (later.state _ has)
  | carried input token member fits projection =>
    rw [← visibleText_later later] at projection ⊢
    exact .carried input token member (stable item final input later fits) projection

theorem Fits.later {key : StreamKey} {block : MessagesBlock} (stable : allowed.Stable)
    (fits : Fits allowed ledger created key block)
    (kept : SemanticItemLedger.KeepsFinished ledger after) :
    Fits allowed after created key block := by
  obtain ⟨item, there, shows_⟩ := fits
  obtain ⟨final, now, later⟩ := kept key item there
  exact ⟨final, now, shows_.later stable later⟩

theorem Shows.more {item : SemanticReasoningItem StreamKey} {block : MessagesBlock}
    {weaker : CarrierFit} {more : List (CarrierInput × JsString)}
    (shows_ : Shows allowed created item block)
    (weakens : ∀ input, allowed item input → weaker item input)
    (grows : ∀ entry ∈ created, entry ∈ more) : Shows weaker more item block := by
  cases shows_ with
  | thinking thought signature has => exact .thinking thought signature has
  | redacted data has => exact .redacted data has
  | carried input token member fits projection =>
    exact .carried input token (grows _ member) (weakens input fits) projection

theorem Fits.more {key : StreamKey} {block : MessagesBlock} {weaker : CarrierFit}
    {more : List (CarrierInput × JsString)} (fits : Fits allowed ledger created key block)
    (weakens : ∀ item input, allowed item input → weaker item input)
    (grows : ∀ entry ∈ created, entry ∈ more) : Fits weaker ledger more key block := by
  obtain ⟨item, there, shows_⟩ := fits
  exact ⟨item, there, shows_.more (weakens item) grows⟩

/-- A tool call of the emitter is the one of the ledger. One that takes no more
arguments is done there. -/
structure SameTool (state : ToolState) (tool : MessagesTool) : Prop where
  callId : tool.callId = state.callId
  name : tool.name = state.name
  argumentsJson : tool.argumentsJson = state.argumentsJson
  done : tool.done = true ∨ tool.itemEnded = true ∨ tool.closed = true → state.done = true

/-- The emitter has the tool calls of the ledger. -/
def SameTools (ledger : SemanticItemLedger) (tools : OrderedMap StreamKey MessagesTool) : Prop :=
  ∀ key, Option.Rel SameTool (ledger.tools.get key) (tools.get key)

theorem SameTools.inLedger (same : SameTools ledger tools) (found : tools.get key = some tool) :
    ∃ state, ledger.tools.get key = some state ∧ SameTool state tool := by
  have related := same key
  rw [found] at related
  cases there : ledger.tools.get key with
  | none =>
    rw [there] at related
    cases related
  | some state =>
    rw [there] at related
    cases related with
    | some sameTool => exact ⟨state, rfl, sameTool⟩

theorem SameTools.inEmitter (same : SameTools ledger tools)
    (there : ledger.tools.get key = some state) :
    ∃ tool, tools.get key = some tool ∧ SameTool state tool := by
  have related := same key
  rw [there] at related
  cases found : tools.get key with
  | none =>
    rw [found] at related
    cases related
  | some tool =>
    rw [found] at related
    cases related with
    | some sameTool => exact ⟨tool, rfl, sameTool⟩

/-- Both sides of a tool call change. -/
theorem SameTools.set (same : SameTools ledger tools)
    (changed : after.tools = ledger.tools.set key state) (sameTool : SameTool state tool) :
    SameTools after (tools.set key tool) := by
  intro other
  rw [changed, get_set, get_set]
  by_cases eq : key = other
  · rw [if_pos eq, if_pos eq]
    exact .some sameTool
  · rw [if_neg eq, if_neg eq]
    exact same other

/-- The tool call of the emitter changes. -/
theorem SameTools.setOwn (same : SameTools ledger tools) (there : ledger.tools.get key = some state)
    (sameTool : SameTool state tool) : SameTools ledger (tools.set key tool) := by
  intro other
  rw [get_set]
  by_cases eq : key = other
  · subst eq
    rw [if_pos rfl, there]
    exact .some sameTool
  · rw [if_neg eq]
    exact same other

theorem SameTools.setLedger (same : SameTools ledger tools) (found : tools.get key = some tool)
    (changed : after.tools = ledger.tools.set key state) (sameTool : SameTool state tool) :
    SameTools after tools := by
  intro other
  rw [changed, get_set]
  by_cases eq : key = other
  · subst eq
    rw [if_pos rfl, found]
    exact .some sameTool
  · rw [if_neg eq]
    exact same other

theorem SameTools.congr (same : SameTools ledger tools) (tools_eq : after.tools = ledger.tools) :
    SameTools after tools := by
  rw [SameTools, tools_eq]
  exact same

namespace MessagesEmitter

variable {κ : Type} {context : StreamConversionContext κ} {emitter next : MessagesEmitter κ}
  {tracks : List MessagesTrack}
  {middle : MessagesEmitter κ} {changed : MessagesTool} {kind : ContentKind} {index : Nat}

/-- Blocks are written one at a time unless the stream converted is a Responses
stream. -/
def oneBlockAtATime (context : StreamConversionContext κ) : Bool := context.source ≠ .responses

/-- The emitter agrees with the ledger and with the blocks written. -/
structure Agrees (context : StreamConversionContext κ) (allowed : CarrierFit)
    (ledger : SemanticItemLedger) (emitter : MessagesEmitter κ)
    (tracks : List MessagesTrack) : Prop where
  bound : Bound (Fits allowed ledger emitter.base.created) noExtra emitter tracks
  live : context.source ≠ .responses → ∀ key tool, emitter.tools.get key = some tool →
    tool.streamIndex = none
  streamed : ∀ kind key, streamedValue emitter.streamedContent key kind ≠ [] →
    ledger.SeenAt kind key
  pending : ∀ key content, emitter.pendingContent.get key = some content →
    ledger.SeenAt content.kind key
  reasoning : ∀ key item, emitter.pendingReasoning.get key = some item → item.key = key ∧
    ∃ final, ledger.reasoningAt key = some (true, final) ∧ SemanticItemLedger.Later item final

/-- A piece of work writes lines and ends in agreement. -/
def Goes (context : StreamConversionContext κ) (allowed : CarrierFit)
    (ledger : SemanticItemLedger) (emitter : MessagesEmitter κ) (tracks : List MessagesTrack)
    (next : MessagesEmitter κ) : Prop :=
  ∃ after, Advances (oneBlockAtATime context) emitter tracks next after ∧
    Agrees context allowed ledger next after

theorem Agrees.goes (agrees : Agrees context allowed ledger emitter tracks) :
    Goes context allowed ledger emitter tracks emitter :=
  ⟨tracks, .refl emitter tracks, agrees⟩

theorem Goes.trans {last : MessagesEmitter κ}
    (first : Goes context allowed ledger emitter tracks middle)
    (second : ∀ blocks, Agrees context allowed ledger middle blocks →
      Goes context allowed ledger middle blocks last) :
    Goes context allowed ledger emitter tracks last := by
  obtain ⟨blocks, advances, agrees⟩ := first
  obtain ⟨after, more, agreesAfter⟩ := second blocks agrees
  exact ⟨after, advances.trans more, agreesAfter⟩

/-- The ledger goes on without the emitter. -/
theorem Agrees.advance (agrees : Agrees context allowed ledger emitter tracks)
    (stable : allowed.Stable) (seen : ∀ kind key, ledger.SeenAt kind key → after.SeenAt kind key)
    (kept : SemanticItemLedger.KeepsFinished ledger after) :
    Agrees context allowed after emitter tracks where
  bound := agrees.bound.mono fun _ _ fits => fits.later stable kept
  live := agrees.live
  streamed := fun kind key written => seen kind key (agrees.streamed kind key written)
  pending := fun key content waits => seen content.kind key (agrees.pending key content waits)
  reasoning := by
    intro key item waits
    obtain ⟨own, final, there, later⟩ := agrees.reasoning key item waits
    obtain ⟨last, now, again⟩ := kept key final there
    exact ⟨own, last, now, later.trans again⟩

/-- No tool call is open where blocks are written one at a time. -/
theorem Agrees.quiet (agrees : Agrees context allowed ledger emitter tracks) :
    oneBlockAtATime context = true → NoOpenTool emitter := by
  intro strict key tool found streamed
  exact absurd (agrees.live (of_decide_eq_true strict) key tool found) streamed

/-- Changes of the emitter that `Bound` does not see. -/
theorem Agrees.congr (agrees : Agrees context allowed ledger emitter tracks)
    (same : next.view = emitter.view) (created : next.base.created = emitter.base.created)
    (pending : ∀ key content, next.pendingContent.get key = some content →
      ledger.SeenAt content.kind key)
    (reasoning : ∀ key item, next.pendingReasoning.get key = some item → item.key = key ∧
      ∃ final, ledger.reasoningAt key = some (true, final) ∧ SemanticItemLedger.Later item final) :
    Agrees context allowed ledger next tracks := by
  have bound := agrees.bound.congr same
  simp only [view, Prod.mk.injEq] at same
  obtain ⟨-, -, tools, -, streamed, -, -⟩ := same
  refine ⟨?_, ?_, ?_, pending, reasoning⟩
  · rw [created]
    exact bound
  · rw [tools]
    exact agrees.live
  · rw [streamed]
    exact agrees.streamed

theorem Goes.quietly (agrees : Agrees context allowed ledger next tracks)
    (same : next.wired = emitter.wired) : Goes context allowed ledger emitter tracks next :=
  ⟨tracks, .quiet tracks same, agrees⟩

/-- Work on an emitter that differs in what it has not written. -/
theorem Goes.since (goes : Goes context allowed ledger middle tracks next)
    (same : middle.wired = emitter.wired) : Goes context allowed ledger emitter tracks next := by
  obtain ⟨blocks, ⟨lines, wired, leads⟩, agrees⟩ := goes
  exact ⟨blocks, ⟨lines, wired.trans (congrArg (· ++ lines.map MessagesEvent.block) same), leads⟩,
    agrees⟩

/-! ## Text -/

theorem goes_closeActiveText (agrees : Agrees context allowed ledger emitter tracks) :
    Goes context allowed ledger emitter tracks emitter.closeActiveText := by
  refine ⟨_, advances_closeActiveText agrees.bound, ?_⟩
  have bound := agrees.bound.closeActiveText
  obtain ⟨emitted, eq⟩ := closeActiveText_eq emitter
  rw [eq] at bound ⊢
  exact ⟨bound, agrees.live, agrees.streamed, agrees.pending, agrees.reasoning⟩

theorem goes_emitLiveText (agrees : Agrees context allowed ledger emitter tracks)
    (seen : ledger.SeenAt kind key) (delta : JsString) :
    Goes context allowed ledger emitter tracks (emitter.emitLiveText kind key delta) := by
  obtain ⟨after, advances, bound⟩ := bound_emitLiveText agrees.bound agrees.quiet
    (show noExtra kind key = [] from rfl) delta
  refine ⟨after, advances, ?_⟩
  obtain ⟨emitted, nextIndex, activeText, eq⟩ := emitLiveText_eq emitter kind key delta
  rw [eq] at bound ⊢
  refine ⟨bound, agrees.live, fun otherKind other written => ?_, agrees.pending, agrees.reasoning⟩
  rw [streamedValue_recordStreamed] at written
  by_cases same : key = other ∧ kind = otherKind
  · obtain ⟨rfl, rfl⟩ := same
    exact seen
  · rw [if_neg same, List.append_nil] at written
    exact agrees.streamed otherKind other written

theorem tools_emitLiveText (emitter : MessagesEmitter κ) (kind : ContentKind) (key : StreamKey)
    (delta : JsString) : (emitter.emitLiveText kind key delta).tools = emitter.tools := by
  obtain ⟨emitted, nextIndex, activeText, eq⟩ := emitLiveText_eq emitter kind key delta
  rw [eq]

/-- The message text goes to is noted. -/
theorem Agrees.noteMessage (agrees : Agrees context allowed ledger emitter tracks)
    (key : StreamKey) : Agrees context allowed ledger (emitter.noteMessage key) tracks :=
  agrees.congr rfl rfl agrees.pending agrees.reasoning

theorem kind_queueContent {pendingContent : OrderedMap StreamKey PendingContent} (key : StreamKey)
    (orderKey : Option StreamKey) (kind : ContentKind) (delta : JsString) :
    Ensures (queueContent pendingContent key orderKey kind delta) fun result =>
      ∀ other content, result.get other = some content →
        (other = key ∧ content.kind = kind) ∨ pendingContent.get other = some content := by
  rw [queueContent]
  refine ensures_bind fun orderKey _ => ?_
  have queued : ∀ entry : PendingContent, entry.kind = kind → ∀ other content,
      (pendingContent.set key entry).get other = some content →
        (other = key ∧ content.kind = kind) ∨ pendingContent.get other = some content := by
    intro entry isKind other content there
    rw [get_set] at there
    by_cases same : key = other
    · rw [if_pos same, Option.some.injEq] at there
      rw [← there]
      exact .inl ⟨same.symm, isKind⟩
    · rw [if_neg same] at there
      exact .inr there
  cases found : pendingContent.get key with
  | none => exact ensures_pure (queued _ rfl)
  | some pending =>
    exact ensures_require.bind fun _ same => ensures_pure (queued _ same.2)

theorem goes_contentDelta (agrees : Agrees context allowed ledger emitter tracks)
    (seen : ledger.SeenAt kind key) (delta : JsString) (orderKey : Option StreamKey) :
    Ensures (emitter.contentDelta context kind key delta orderKey) fun next =>
      Goes context allowed ledger emitter tracks next ∧ next.tools = emitter.tools := by
  have noted := agrees.noteMessage (orderKey.getD key)
  rw [contentDelta]
  refine ensures_ite (fun _ => ensures_ite (fun _ => ?_) fun _ => ?_) fun _ => ?_
  · refine (kind_queueContent key orderKey kind delta).bind fun pendingContent queued => ?_
    refine ensures_pure ⟨.quietly (noted.congr rfl rfl ?_ noted.reasoning) rfl, rfl⟩
    intro other content waits
    rcases queued other content waits with ⟨rfl, isKind⟩ | old
    · rw [isKind]
      exact seen
    · exact agrees.pending other content old
  · exact ensures_ok ⟨.quietly noted rfl, rfl⟩
  · exact ensures_ok ⟨goes_emitLiveText noted seen delta, tools_emitLiveText _ kind key delta⟩

/-! ## Tools -/

/-- A tool call gets its block before the end of the stream. -/
theorem goes_emitTool (agrees : Agrees context allowed ledger emitter tracks)
    (responses : context.source = .responses) (same : SameTools ledger emitter.tools)
    (found : emitter.tools.get key = some tool) :
    Goes context allowed ledger emitter tracks (emitter.emitTool key tool false) ∧
      SameTools ledger (emitter.emitTool key tool false).tools := by
  cases notYet : tool.streamIndex with
  | some index =>
    rw [emitTool_of_some emitter key notYet]
    exact ⟨agrees.goes, same⟩
  | none =>
    have own := agrees.bound.tool key tool found
    rw [ToolBound, notYet] at own
    obtain ⟨after, advances, bound⟩ := bound_emitTool agrees.bound agrees.quiet found false
    obtain ⟨emitted, eq⟩ := emitTool_eq emitter key notYet own.1 false
    obtain ⟨state, there, sameTool⟩ := same.inLedger found
    rw [eq] at bound advances ⊢
    refine ⟨⟨after, advances, bound, fun other => absurd responses other, agrees.streamed,
      agrees.pending, agrees.reasoning⟩, same.setOwn there
        ⟨sameTool.callId, sameTool.name, sameTool.argumentsJson, fun takesNoMore => ?_⟩⟩
    refine sameTool.done ?_
    simp only [Bool.or_false, Bool.or_eq_true] at takesNoMore
    tauto

/-- A tool call is changed without a line. -/
theorem Agrees.setQuietTool (agrees : Agrees context allowed ledger emitter tracks)
    (notYet : ∀ tool, emitter.tools.get key = some tool → tool.streamIndex = none)
    (none_ : changed.streamIndex = none) (open_ : changed.closed = false) (bufferedBytes : Nat)
    (bufferAfterTool : Bool) :
    Agrees context allowed ledger { emitter with
      bufferedBytes := bufferedBytes
      bufferAfterTool := bufferAfterTool
      tools := emitter.tools.set key changed } tracks := by
  refine ⟨agrees.bound.setQuietTool notYet none_ open_ bufferedBytes bufferAfterTool,
    fun other name tool found => ?_, agrees.streamed, agrees.pending, agrees.reasoning⟩
  rw [get_set] at found
  split at found
  · cases found
    exact none_
  · exact agrees.live other name tool found

/-- A tool call is changed together with its block. -/
theorem Agrees.setTool (agrees : Agrees context allowed ledger emitter tracks)
    {key : StreamKey} {tool changed : MessagesTool} (found : emitter.tools.get key = some tool)
    {index : Nat} (streamed : tool.streamIndex = some index)
    (same : changed.streamIndex = some index) {isOpen : Bool} (closed : changed.closed = !isOpen)
    (emitted : List (Emission MessagesEvent)) (bufferedBytes : Nat) :
    Agrees context allowed ledger { emitter with
      base := { emitter.base with emitted := emitted }
      bufferedBytes := bufferedBytes
      tools := emitter.tools.set key changed }
      (tracks.set index ⟨.tool key, changed.block, isOpen⟩) := by
  have isOpen_eq : isOpen = !changed.closed := by rw [closed, Bool.not_not]
  rw [isOpen_eq]
  refine ⟨agrees.bound.setTool found streamed same emitted bufferedBytes,
    fun other => ?_, agrees.streamed, agrees.pending, agrees.reasoning⟩
  have none_ := agrees.live other key tool found
  rw [streamed] at none_
  cases none_

/-- The block of a tool call. -/
theorem Agrees.toolTrack (agrees : Agrees context allowed ledger emitter tracks)
    (found : emitter.tools.get key = some tool) (streamed : tool.streamIndex = some index) :
    tracks[index]? = some ⟨.tool key, tool.block, !tool.closed⟩ := by
  have own := agrees.bound.tool key tool found
  rw [ToolBound, streamed] at own
  exact own.2.1

/-- A tool call is changed in what its block does not show. -/
theorem Agrees.setHidden (agrees : Agrees context allowed ledger emitter tracks)
    (found : emitter.tools.get key = some tool) (streamed : tool.streamIndex = some index)
    (same : changed.streamIndex = some index) (block : changed.block = tool.block)
    (closed : changed.closed = tool.closed) :
    Agrees context allowed ledger { emitter with
      tools := emitter.tools.set key changed } tracks := by
  have changing := agrees.setTool found streamed same (closed.trans (Bool.not_not _).symm)
    emitter.base.emitted emitter.bufferedBytes
  obtain ⟨bound, eq⟩ := List.getElem?_eq_some_iff.mp (agrees.toolTrack found streamed)
  rw [block, ← eq, List.set_getElem_self bound] at changing
  exact changing

theorem goes_toolStart (agrees : Agrees context allowed after emitter tracks)
    (same : SameTools ledger emitter.tools) {itemId : Option JsString} {callId name : JsString}
    (changed : after.tools = ledger.tools.set key ⟨itemId, callId, name, [], false⟩) :
    Ensures (emitter.toolStart context key callId name) fun next =>
      Goes context allowed after emitter tracks next ∧ SameTools after next.tools := by
  rw [toolStart]
  refine ensures_require.bind fun _ absent => ensures_pure ?_
  have sameClosed : SameTools ledger emitter.closeActiveText.tools := by
    rw [closeActiveText_tools]
    exact same
  have notYet : ∀ tool, emitter.closeActiveText.tools.get key = some tool →
      tool.streamIndex = none := by
    intro tool found
    refine absurd ?_ absent
    rw [has, found]
    rfl
  have sameTools := sameClosed.set changed
    (show SameTool ⟨itemId, callId, name, [], false⟩
      ⟨callId, name, [], false, none, false, false⟩ from
      ⟨rfl, rfl, rfl, by simp⟩)
  have adding : ∀ blocks, Agrees context allowed after emitter.closeActiveText blocks →
      Agrees context allowed after { emitter.closeActiveText with
        bufferAfterTool := true
        tools := emitter.closeActiveText.tools.set key
          ⟨callId, name, [], false, none, false, false⟩ } blocks := fun blocks agreesClosed =>
    agreesClosed.setQuietTool notYet rfl rfl emitter.closeActiveText.bufferedBytes true
  have first := (goes_closeActiveText agrees).trans fun blocks agreesClosed =>
    Goes.quietly (adding blocks agreesClosed) rfl
  split
  · next live =>
    obtain ⟨blocks, advances, agreesAdded⟩ := first
    obtain ⟨goes, sameEmitted⟩ := goes_emitTool agreesAdded live.1 sameTools
      (get_set_self _ _ _)
    exact ⟨Goes.trans ⟨blocks, advances, agreesAdded⟩ fun blocks agreesBlocks =>
      (goes_emitTool agreesBlocks live.1 sameTools (get_set_self _ _ _)).1, sameEmitted⟩
  · exact ⟨first, sameTools⟩

/-- Arguments that the ledger has taken. -/
theorem goes_toolArgumentsDelta (agrees : Agrees context allowed after emitter tracks)
    (same : SameTools ledger emitter.tools) {delta : JsString} {done : Bool}
    (there : ledger.tools.get key = some state) (open_ : state.done = false)
    (changed : after.tools = ledger.tools.set key
      { state with argumentsJson := state.argumentsJson ++ delta, done := done }) :
    Ensures (emitter.toolArgumentsDelta context key delta) fun next =>
      Goes context allowed after emitter tracks next ∧ SameTools after next.tools := by
  rw [toolArgumentsDelta]
  refine ensures_required.bind fun tool found => ensures_bind fun _ _ => ensures_bind fun _ _ => ?_
  obtain ⟨state', there', sameTool⟩ := same.inLedger found
  rw [there, Option.some.injEq] at there'
  subst there'
  have takesMore : ¬ (tool.done = true ∨ tool.itemEnded = true ∨ tool.closed = true) := by
    intro takesNoMore
    have isDone := sameTool.done takesNoMore
    rw [open_] at isDone
    cases isDone
  have notClosed : tool.closed = false := by
    cases closed : tool.closed with
    | false => rfl
    | true => exact absurd (.inr (.inr closed)) takesMore
  have sameTools : SameTools after (emitter.tools.set key
      { tool with argumentsJson := tool.argumentsJson ++ delta }) :=
    same.set changed ⟨sameTool.callId, sameTool.name,
      congrArg (· ++ delta) sameTool.argumentsJson, fun takesNoMore => absurd takesNoMore takesMore⟩
  cases streamed : tool.streamIndex with
  | none =>
    rw [streamed] at sameTools
    refine ensures_pure ⟨.quietly (agrees.setQuietTool (fun other isTool => ?_) rfl ?_
      _ emitter.bufferAfterTool) rfl, sameTools⟩
    · rw [found, Option.some.injEq] at isTool
      rw [← isTool, streamed]
    · exact notClosed
  | some index =>
    have responses : context.source = .responses := by
      by_contra other
      have none_ := agrees.live other key tool found
      rw [streamed] at none_
      cases none_
    have there : tracks[index]? = some ⟨.tool key, tool.block, true⟩ := by
      rw [agrees.toolTrack found streamed, notClosed]
      rfl
    rw [streamed] at sameTools
    refine ensures_pure ?_
    rw [if_pos responses, lines_eq]
    exact ⟨⟨_, ⟨[.change index (.inputJson delta)],
      wired_lines emitter [.change index (.inputJson delta)], leads_change there rfl⟩,
      agrees.setTool found streamed rfl notClosed _ _⟩, sameTools⟩

theorem goes_toolDone (agrees : Agrees context allowed ledger emitter tracks)
    (same : SameTools ledger emitter.tools) (key : StreamKey) (argumentsJson : JsString)
    (isDone : ∀ state, ledger.tools.get key = some state → state.done = true) :
    Ensures (emitter.toolDone context key argumentsJson) fun next =>
      Goes context allowed ledger emitter tracks next ∧ SameTools ledger next.tools := by
  have closing := goes_closeActiveText agrees
  have sameClosed : SameTools ledger emitter.closeActiveText.tools := by
    rw [closeActiveText_tools]
    exact same
  rw [toolDone]
  simp only
  cases found : emitter.closeActiveText.tools.get key with
  | none => exact ensures_ok ⟨closing, sameClosed⟩
  | some tool =>
    refine ensures_ite (fun _ => ensures_ok ⟨closing, sameClosed⟩) fun _ => ?_
    refine ensures_bind fun _ _ => ?_
    obtain ⟨state, there, sameTool⟩ := sameClosed.inLedger found
    have doneTool : ∀ streamIndex closed, SameTool state { tool with
        done := true, streamIndex := streamIndex, closed := closed } :=
      fun streamIndex closed => ⟨sameTool.callId, sameTool.name, sameTool.argumentsJson, fun _ =>
        isDone state there⟩
    cases streamed : tool.streamIndex with
    | none =>
      refine ensures_pure ⟨closing.trans fun blocks agreesClosed => ?_,
        sameClosed.setOwn there (doneTool _ tool.closed)⟩
      have own := agreesClosed.bound.tool key tool found
      rw [ToolBound, streamed] at own
      refine .quietly (agreesClosed.setQuietTool (fun other isTool => ?_) rfl ?_
        emitter.closeActiveText.bufferedBytes emitter.closeActiveText.bufferAfterTool) rfl
      · rw [found, Option.some.injEq] at isTool
        rw [← isTool, streamed]
      · exact own.1
    | some index =>
      refine ensures_pure ?_
      split
      · next stops =>
        rw [lines_eq]
        refine ⟨closing.trans fun blocks agreesClosed => ?_,
          sameClosed.setOwn there (doneTool _ true)⟩
        refine ⟨_, ⟨[.stop index], wired_lines emitter.closeActiveText [.stop index],
          leads_stop ?_⟩,
          agreesClosed.setTool found streamed rfl rfl _ emitter.closeActiveText.bufferedBytes⟩
        · rw [agreesClosed.toolTrack found streamed, stops.2]
          rfl
      · next stays =>
        refine ⟨closing.trans fun blocks agreesClosed => ?_,
          sameClosed.setOwn there (doneTool _ tool.closed)⟩
        exact .quietly (agreesClosed.setHidden found streamed rfl rfl rfl) rfl

/-- The end of an item ends its tool call, which the ledger has finished. -/
theorem goes_endTool (agrees : Agrees context allowed ledger emitter tracks)
    (same : SameTools ledger emitter.tools) (key : StreamKey)
    (isDone : ∀ state, ledger.tools.get key = some state → state.done = true) :
    Goes context allowed ledger emitter tracks (emitter.endTool key) ∧
      SameTools ledger (emitter.endTool key).tools := by
  rw [endTool]
  cases found : emitter.tools.get key with
  | none => exact ⟨agrees.goes, same⟩
  | some tool =>
    simp only
    obtain ⟨state, there, sameTool⟩ := same.inLedger found
    have endedTool : ∀ streamIndex closed, SameTool state { tool with
        itemEnded := true, streamIndex := streamIndex, closed := closed } :=
      fun streamIndex closed => ⟨sameTool.callId, sameTool.name, sameTool.argumentsJson, fun _ =>
        isDone state there⟩
    cases streamed : tool.streamIndex with
    | none =>
      refine ⟨?_, same.setOwn there (endedTool _ tool.closed)⟩
      have own := agrees.bound.tool key tool found
      rw [ToolBound, streamed] at own
      refine .quietly (agrees.setQuietTool (fun other isTool => ?_) rfl ?_
        emitter.bufferedBytes emitter.bufferAfterTool) rfl
      · rw [found, Option.some.injEq] at isTool
        rw [← isTool, streamed]
      · exact own.1
    | some index =>
      dsimp only
      split
      · next closed =>
        exact ⟨.quietly (agrees.setHidden found streamed rfl rfl rfl) rfl,
          same.setOwn there (endedTool _ tool.closed)⟩
      · next notClosed =>
        rw [lines_eq]
        refine ⟨⟨_, ⟨[.stop index], wired_lines emitter [.stop index], leads_stop ?_⟩,
          agrees.setTool found streamed rfl rfl _ emitter.bufferedBytes⟩,
          same.setOwn there (endedTool _ true)⟩
        rw [agrees.toolTrack found streamed, Bool.eq_false_of_not_eq_true notClosed]
        rfl

/-! ## Reasoning -/

/-- What writing a reasoning item leaves alone. -/
structure SameRest (emitter next : MessagesEmitter κ) : Prop where
  tools : next.tools = emitter.tools
  emittedResponseTools : next.emittedResponseTools = emitter.emittedResponseTools
  streamedContent : next.streamedContent = emitter.streamedContent
  pendingContent : next.pendingContent = emitter.pendingContent
  pendingReasoning : next.pendingReasoning = emitter.pendingReasoning
  responseFrontier : next.responseFrontier = emitter.responseFrontier

theorem SameRest.refl (emitter : MessagesEmitter κ) : SameRest emitter emitter :=
  ⟨rfl, rfl, rfl, rfl, rfl, rfl⟩

/-- What a piece of work on the reasoning does. -/
structure Thought (oneAtATime : Bool) (allowed : CarrierFit)
    (extra : ContentKind → StreamKey → JsString) (ledger : SemanticItemLedger)
    (emitter : MessagesEmitter κ) (tracks : List MessagesTrack)
    (next : MessagesEmitter κ) : Prop where
  goes : ∃ after, Advances oneAtATime emitter tracks next after ∧
    Bound (Fits allowed ledger next.base.created) extra next after
  rest : SameRest emitter next
  noText : emitter.activeText = none → next.activeText = none
  kept : ∀ key ∈ emitter.emittedReasoning, key ∈ next.emittedReasoning

/-- A thinking block is written whole, after the text. -/
theorem thought_writeReasoning {oneAtATime : Bool} {extra : ContentKind → StreamKey → JsString}
    (bound : Bound (Fits allowed ledger emitter.base.created) extra emitter tracks)
    (quiet : oneAtATime = true → NoOpenTool emitter) {key : StreamKey}
    (notYet : key ∉ emitter.emittedReasoning) {start block : MessagesBlock}
    (deltas : List MessagesDelta) (applies : deltas.foldlM MessagesBlock.extend start = some block)
    (base : EmitterBase κ MessagesEvent)
    (emitted : base.emitted = emitter.closeActiveText.base.emitted)
    (grows : ∀ entry ∈ emitter.base.created, entry ∈ base.created)
    (fit : Fits allowed ledger base.created key block)
    (carrierTokens : OrderedMap StreamKey JsString)
    (tokens : ∀ other token, carrierTokens.get other = some token →
      other ∈ addTo emitter.emittedReasoning key) :
    Thought oneAtATime allowed extra ledger emitter tracks ({ emitter.closeActiveText with
        base := base
        carrierTokens := carrierTokens }.writeReasoning key start deltas) ∧
      key ∈ ({ emitter.closeActiveText with
        base := base
        carrierTokens := carrierTokens }.writeReasoning key start deltas).emittedReasoning := by
  have noText := closeActiveText_activeText emitter
  have closed : Bound (Fits allowed ledger base.created) extra emitter.closeActiveText
      (closedTracks emitter tracks) :=
    bound.closeActiveText.mono fun _ _ fits => fits.more (fun _ _ held => held) grows
  have whole : Leads MessagesBlock.extend oneAtATime _ _ _ :=
    leads_whole (BlockOwner.reasoning key) true applies fun strict => closed.allClosed noText
      ((quiet strict).congr (closeActiveText_tools emitter))
  have written : Advances oneAtATime emitter.closeActiveText (closedTracks emitter tracks)
      ({ emitter.closeActiveText with
        base := base
        carrierTokens := carrierTokens }.writeReasoning key start deltas)
      (closedTracks emitter tracks ++ [⟨.reasoning key, block, false⟩]) := by
    refine ⟨_, ?_, whole⟩
    rw [writeReasoning, ← closed.count]
    show ({ emitter.closeActiveText with
      base := base
      carrierTokens := carrierTokens }.lines _).wired = _
    rw [wired_lines, wired, emitted]
    rfl
  have advances : Advances oneAtATime emitter tracks _ _ :=
    (advances_closeActiveText bound).trans written
  obtain ⟨closing, closed_eq⟩ := closeActiveText_eq emitter
  rw [closed_eq] at closed advances noText ⊢
  rw [writeReasoning, lines_eq] at advances ⊢
  exact ⟨⟨⟨_, advances, closed.addReasoning noText notYet fit { base with emitted := _ } tokens⟩,
    ⟨rfl, rfl, rfl, rfl, rfl, rfl⟩, fun _ => rfl, fun other member => mem_addTo.mpr (.inl member)⟩,
    mem_addTo.mpr (.inr rfl)⟩

theorem ensures_carrierToken (absent : emitter.carrierTokens.get item.key = none) :
    Ensures (emitter.carrierToken context item) fun result => ∃ base input token,
      result = ({ emitter with
        base := base
        carrierTokens := emitter.carrierTokens.set item.key token }, token) ∧
      base.emitted = emitter.base.emitted ∧
      base.created = emitter.base.created ++ [(input, token)] ∧
      item.opaqueState = some input.opaqueState ∧ input.projection = visibleText item := by
  rw [carrierToken, absent]
  refine ensures_through (fun result : EmitterBase κ MessagesEvent × JsString => ∃ input,
    result.1.emitted = emitter.base.emitted ∧
      result.1.created = emitter.base.created ++ [(input, result.2)] ∧
      item.opaqueState = some input.opaqueState ∧ input.projection = visibleText item) ?_ ?_
  · rw [EmitterBase.createStreamCarrier]
    refine ensures_bind fun carrier _ => ensures_bind fun _ _ => ?_
    refine ensures_required.bind fun opaqueState found => ensures_bind ?_
    rintro ⟨token, store⟩ _
    exact ensures_pure ⟨_, rfl, rfl, found, rfl⟩
  · rintro ⟨base, token⟩ ⟨input, emitted, made, opaqueState, projection⟩
    exact ensures_pure ⟨base, input, token, rfl, emitted, made, opaqueState, projection⟩

/-- A reasoning item is written at most once, and it is when a Messages client can
hold its state or a carrier is made for it. -/
theorem thought_emitReasoning (oneAtATime : Bool) {extra : ContentKind → StreamKey → JsString}
    (bound : Bound (Fits allowed ledger emitter.base.created) extra emitter tracks)
    (quiet : oneAtATime = true → NoOpenTool emitter)
    (fit : ∀ made block, Shows allowed made item block → Fits allowed ledger made item.key block)
    (allowCarrier : Bool) (fits : writesCarrier context item allowCarrier = true →
      ∀ input : CarrierInput, item.opaqueState = some input.opaqueState → allowed item input) :
    Ensures (emitter.emitReasoning context item allowCarrier) fun next =>
      Thought oneAtATime allowed extra ledger emitter tracks next ∧
      (item.messagesState ≠ none ∨ writesCarrier context item allowCarrier = true →
        item.key ∈ next.emittedReasoning) := by
  have idle : Thought oneAtATime allowed extra ledger emitter tracks emitter :=
    ⟨⟨tracks, .refl emitter tracks, bound⟩, .refl emitter, fun noText => noText,
      fun _ member => member⟩
  obtain ⟨closing, closed_eq⟩ := closeActiveText_eq emitter
  have tokens : ∀ other token, emitter.closeActiveText.carrierTokens.get other = some token →
      other ∈ emitter.emittedReasoning := by
    rw [closed_eq]
    exact bound.tokens
  have made : emitter.closeActiveText.base.created = emitter.base.created := by rw [closed_eq]
  rw [emitReasoning]
  refine ensures_ite (fun member => ensures_ok ⟨idle, fun _ => member⟩) fun notYet =>
    ensures_ite (fun carries => ?_) fun plain => ?_
  · have absent : emitter.closeActiveText.carrierTokens.get item.key = none := by
      cases found : emitter.closeActiveText.carrierTokens.get item.key with
      | none => rfl
      | some token => exact absurd (tokens item.key token found) notYet
    refine (ensures_carrierToken absent).bind ?_
    rintro _ ⟨base, input, token, rfl, sameEmitted, created_eq, opaqueState, projection⟩
    have shows_ : Shows allowed base.created item (if visibleText item = [] then
        .redactedThinking token else .thinking (visibleText item) token) := by
      refine .carried input token ?_ (fits carries input opaqueState) projection
      rw [created_eq]
      exact List.mem_append_right _ List.mem_cons_self
    obtain ⟨thought, member⟩ := thought_writeReasoning bound quiet notYet [] rfl base
      sameEmitted (fun entry member => by
        rw [created_eq, made]
        exact List.mem_append_left _ member) (fit _ _ shows_)
      (emitter.closeActiveText.carrierTokens.set item.key token)
      fun other held isToken => by
        rw [get_set] at isToken
        split at isToken
        · next same => exact mem_addTo.mpr (.inr same.symm)
        · exact mem_addTo.mpr (.inl (tokens other held isToken))
    exact ensures_pure ⟨thought, fun _ => member⟩
  · have grows : ∀ entry ∈ emitter.base.created, entry ∈ emitter.closeActiveText.base.created := by
      rw [made]
      exact fun _ member => member
    have known : ∀ other token, emitter.closeActiveText.carrierTokens.get other = some token →
        other ∈ addTo emitter.emittedReasoning item.key := fun other token isToken =>
      mem_addTo.mpr (.inl (tokens other token isToken))
    cases state : item.messagesState with
    | none =>
      refine ensures_ok ⟨idle, ?_⟩
      rintro (some_ | carries)
      · exact absurd rfl some_
      · exact absurd carries plain
    | some state_ =>
      cases state_ with
      | redactedThinking data =>
        obtain ⟨thought, member⟩ := thought_writeReasoning bound quiet notYet [] rfl
          emitter.closeActiveText.base rfl grows (fit _ _ (.redacted data state)) _ known
        exact ensures_ok ⟨thought, fun _ => member⟩
      | thinking thinking signature =>
        refine ensures_bind fun _ _ => ?_
        have applies : ((if thinking = [] then [] else [MessagesDelta.thinking thinking]) ++
            [MessagesDelta.signature signature]).foldlM MessagesBlock.extend (.thinking [] []) =
              some (.thinking thinking signature) := by
          split
          · next nothing =>
            rw [nothing]
            rfl
          · rfl
        obtain ⟨thought, member⟩ := thought_writeReasoning bound quiet notYet _ applies
          emitter.closeActiveText.base rfl grows
          (fit _ _ (.thinking thinking signature state)) _ known
        exact ensures_pure ⟨thought, fun _ => member⟩

theorem goes_emitReasoning (agrees : Agrees context allowed ledger emitter tracks)
    (stable : allowed.Stable) (there : ledger.reasoningAt item.key = some (true, final))
    (later : SemanticItemLedger.Later item final) (allowCarrier : Bool)
    (fits : writesCarrier context item allowCarrier = true →
      ∀ input : CarrierInput, item.opaqueState = some input.opaqueState → allowed item input) :
    Ensures (emitter.emitReasoning context item allowCarrier) fun next =>
      Goes context allowed ledger emitter tracks next ∧ SameRest emitter next := by
  refine (thought_emitReasoning _ agrees.bound agrees.quiet
    (fun made block shows_ => ⟨final, there, shows_.later stable later⟩) allowCarrier fits).mono ?_
  rintro next ⟨⟨⟨after, advances, bound⟩, rest, -, -⟩, -⟩
  refine ⟨⟨after, advances, bound, ?_, ?_, ?_, ?_⟩, rest⟩
  · rw [rest.tools]
    exact agrees.live
  · rw [rest.streamedContent]
    exact agrees.streamed
  · rw [rest.pendingContent]
    exact agrees.pending
  · rw [rest.pendingReasoning]
    exact agrees.reasoning

/-- A finished item is written, or kept for when the frontier reaches it. -/
theorem goes_reasoningDone (agrees : Agrees context allowed ledger emitter tracks)
    (stable : allowed.Stable) (there : ledger.reasoningAt item.key = some (true, item))
    (fits : context.source ≠ .responses →
      ∀ input : CarrierInput, item.opaqueState = some input.opaqueState → allowed item input) :
    Ensures (emitter.reasoningDone context item) fun next =>
      Goes context allowed ledger emitter tracks next ∧ next.tools = emitter.tools := by
  rw [reasoningDone]
  refine ensures_ite (fun _ => ?_) fun other => ensures_ite (fun _ => ?_) fun _ => ?_
  · refine ensures_ok ⟨.quietly (agrees.congr rfl rfl agrees.pending ?_) rfl, rfl⟩
    intro key waiting waits
    rw [get_set] at waits
    split at waits
    · next same =>
      cases waits
      subst same
      exact ⟨rfl, item, there, .refl item⟩
    · exact agrees.reasoning key waiting waits
  · exact ensures_ok ⟨agrees.goes, rfl⟩
  · exact (goes_emitReasoning agrees stable there (.refl item) true fun _ => fits other).mono
      fun next written => ⟨written.1, written.2.tools⟩

/-! ## The frontier -/

/-- Work that follows other work. -/
theorem Goes.ensures {computation : Fallible (MessagesEmitter κ)}
    (first : Goes context allowed ledger emitter tracks middle)
    (second : ∀ blocks, Agrees context allowed ledger middle blocks →
      Ensures computation fun next =>
      Goes context allowed ledger middle blocks next ∧ SameTools ledger next.tools) :
    Ensures computation fun next =>
      Goes context allowed ledger emitter tracks next ∧ SameTools ledger next.tools := by
  obtain ⟨blocks, advances, agrees⟩ := first
  refine (second blocks agrees).mono ?_
  rintro next ⟨⟨after, more, agreesAfter⟩, same⟩
  exact ⟨⟨after, advances.trans more, agreesAfter⟩, same⟩

theorem goes_drainReasoning (agrees : Agrees context allowed ledger emitter tracks)
    (stable : allowed.Stable) : Ensures (emitter.drainReasoning context) fun next =>
      Goes context allowed ledger emitter tracks next ∧ next.tools = emitter.tools ∧
      next.responseFrontier = emitter.responseFrontier := by
  rw [drainReasoning]
  split
  · next item waits =>
    refine ensures_ite (fun _ => ?_) fun _ => ensures_ok ⟨agrees.goes, rfl, rfl⟩
    obtain ⟨own, final, there, later⟩ := agrees.reasoning _ item waits
    have erased : Agrees context allowed ledger { emitter with
        pendingReasoning := emitter.pendingReasoning.erase
          (.responsesReasoning emitter.responseFrontier.item) } tracks := by
      refine agrees.congr rfl rfl agrees.pending fun key kept stays => ?_
      rw [get_erase] at stays
      split at stays
      · cases stays
      · exact agrees.reasoning key kept stays
    rw [← own] at there
    refine (goes_emitReasoning erased stable there later false fun carries => ?_).mono
      fun next written => ⟨Goes.since written.1 rfl, written.2.tools, written.2.responseFrontier⟩
    rw [writesCarrier, Bool.false_and, Bool.false_and] at carries
    cases carries
  · exact ensures_ok ⟨agrees.goes, rfl, rfl⟩

theorem goes_drainTool (agrees : Agrees context allowed ledger emitter tracks)
    (responses : context.source = .responses) (same : SameTools ledger emitter.tools) :
    Goes context allowed ledger emitter tracks emitter.drainTool ∧
      SameTools ledger emitter.drainTool.tools := by
  rw [drainTool]
  split
  · next tool found =>
    split
    · exact ⟨agrees.goes, same⟩
    · exact goes_emitTool agrees responses same found
  · exact ⟨agrees.goes, same⟩

theorem tools_drainContent (emitter : MessagesEmitter κ) :
    emitter.drainContent.tools = emitter.tools := by
  rw [drainContent]
  split
  · exact tools_emitLiveText _ _ _ _
  · rfl

theorem goes_drainContent (agrees : Agrees context allowed ledger emitter tracks) :
    Goes context allowed ledger emitter tracks emitter.drainContent := by
  rw [drainContent]
  split
  · next pending waits =>
    have seen := agrees.pending _ pending waits
    have erased : Agrees context allowed ledger { emitter with
        pendingContent := emitter.pendingContent.erase emitter.readyKey } tracks := by
      refine agrees.congr rfl rfl (fun key kept stays => ?_) agrees.reasoning
      rw [get_erase] at stays
      split at stays
      · cases stays
      · exact agrees.pending key kept stays
    exact Goes.since (goes_emitLiveText erased seen pending.delta) rfl
  · exact agrees.goes

theorem goes_drainCurrent (agrees : Agrees context allowed ledger emitter tracks)
    (responses : context.source = .responses) (stable : allowed.Stable)
    (same : SameTools ledger emitter.tools) :
    Ensures (emitter.drainCurrent context) fun next =>
      Goes context allowed ledger emitter tracks next ∧ SameTools ledger next.tools := by
  rw [drainCurrent]
  refine (goes_drainReasoning agrees stable).bind ?_
  rintro middle ⟨goes, tools, -⟩
  rw [← tools] at same
  refine goes.ensures fun blocks agreesMiddle => ensures_pure ?_
  obtain ⟨goesTool, sameTool⟩ := goes_drainTool agreesMiddle responses same
  refine ⟨goesTool.trans fun blocks agreesTool => goes_drainContent agreesTool, ?_⟩
  rw [tools_drainContent]
  exact sameTool

/-- The loop: every turn ends in agreement. -/
theorem goes_drainLoop (responses : context.source = .responses) (stable : allowed.Stable)
    (fuel : Nat) (agrees : Agrees context allowed ledger emitter tracks)
    (same : SameTools ledger emitter.tools) :
    Ensures (emitter.drainLoop context fuel) fun next =>
      Goes context allowed ledger emitter tracks next ∧ SameTools ledger next.tools := by
  induction fuel generalizing emitter tracks with
  | zero => exact ensures_ok ⟨agrees.goes, same⟩
  | succ fuel ih =>
    rw [drainLoop]
    refine ensures_ite (fun _ => ensures_ok ⟨agrees.goes, same⟩) fun _ => ?_
    refine (goes_drainCurrent agrees responses stable same).bind ?_
    rintro middle ⟨goes, same⟩
    refine goes.ensures fun blocks agreesMiddle => ensures_ite (fun _ => ?_) fun _ =>
      ensures_ite (fun _ => ?_) fun _ => ensures_pure ⟨agreesMiddle.goes, same⟩
    · have advanced : ∀ responseFrontier, Agrees context allowed ledger { middle with
          responseFrontier := responseFrontier } blocks := fun responseFrontier =>
        agreesMiddle.congr rfl rfl agreesMiddle.pending agreesMiddle.reasoning
      exact Ensures.mono (ih (advanced _) same) fun next done => ⟨Goes.since done.1 rfl, done.2⟩
    · have advanced : ∀ responseFrontier, Agrees context allowed ledger { middle with
          pendingReasoning := middle.pendingReasoning.erase
            (.responsesReasoning middle.responseFrontier.item)
          responseFrontier := responseFrontier } blocks := by
        intro responseFrontier
        refine agreesMiddle.congr rfl rfl agreesMiddle.pending fun key kept stays => ?_
        rw [get_erase] at stays
        split at stays
        · cases stays
        · exact agreesMiddle.reasoning key kept stays
      exact Ensures.mono (ih (advanced _) same) fun next done => ⟨Goes.since done.1 rfl, done.2⟩

/-- The end of a part or of an item lets the frontier go on. -/
theorem goes_contentDone (agrees : Agrees context allowed ledger emitter tracks)
    (responses : context.source = .responses) (stable : allowed.Stable)
    (same : SameTools ledger emitter.tools) (orderKey : StreamKey) (contentIndex : Nat) :
    Ensures (emitter.contentDone context orderKey contentIndex) fun next =>
      Goes context allowed ledger emitter tracks next ∧ SameTools ledger next.tools := by
  have marked : ∀ responseFrontier, Agrees context allowed ledger { emitter with
      responseFrontier := responseFrontier } tracks := fun responseFrontier =>
    agrees.congr rfl rfl agrees.pending agrees.reasoning
  rw [contentDone, drainReadyContent]
  exact Ensures.mono (goes_drainLoop responses stable _ (marked _) same)
    fun next done => ⟨Goes.since done.1 rfl, done.2⟩

theorem goes_itemDone (agrees : Agrees context allowed ledger emitter tracks)
    (responses : context.source = .responses) (stable : allowed.Stable)
    (same : SameTools ledger emitter.tools) (outputIndex : Int)
    (isDone : ∀ state, ledger.tools.get (.responsesTool outputIndex) = some state →
      state.done = true) :
    Ensures (emitter.itemDone context outputIndex) fun next =>
      Goes context allowed ledger emitter tracks next ∧ SameTools ledger next.tools := by
  rw [itemDone]
  obtain ⟨goes, sameEnded⟩ := goes_endTool agrees same (.responsesTool outputIndex) isDone
  refine goes.ensures fun blocks agreesEnded => ?_
  have marked : ∀ responseFrontier, Agrees context allowed ledger
      { emitter.endTool (.responsesTool outputIndex) with
        responseFrontier := responseFrontier } blocks := fun responseFrontier =>
    agreesEnded.congr rfl rfl agreesEnded.pending agreesEnded.reasoning
  rw [drainReadyContent]
  exact Ensures.mono (goes_drainLoop responses stable _ (marked _) sameEnded)
    fun next done => ⟨Goes.since done.1 rfl, done.2⟩

/-! ## What is streamed -/

/-- The message whose text is streamed, and what has been streamed. -/
def progress (emitter : MessagesEmitter κ) :
    Option StreamKey × OrderedMap StreamKey StreamedContent :=
  (emitter.firstMessageKey, emitter.streamedContent)

theorem progress_lines (emitter : MessagesEmitter κ) (lines : List MessagesLine) :
    (emitter.lines lines).progress = emitter.progress := by
  rw [lines_eq]
  rfl

theorem progress_closeActiveText (emitter : MessagesEmitter κ) :
    emitter.closeActiveText.progress = emitter.progress := by
  obtain ⟨emitted, eq⟩ := closeActiveText_eq emitter
  rw [eq]
  rfl

theorem progress_reasoningDone (emitter : MessagesEmitter κ)
    (item : SemanticReasoningItem StreamKey) :
    Ensures (emitter.reasoningDone context item) fun next => next.progress = emitter.progress := by
  have closed := progress_closeActiveText emitter
  rw [reasoningDone]
  refine ensures_ite (fun _ => ensures_ok rfl) fun _ => ensures_ite (fun _ => ensures_ok rfl)
    fun _ => ?_
  rw [emitReasoning]
  refine ensures_ite (fun _ => ensures_ok rfl) fun _ => ensures_ite (fun _ => ?_) fun _ => ?_
  · have token : Ensures (emitter.closeActiveText.carrierToken context item) fun result =>
        result.1.progress = emitter.progress := by
      rw [carrierToken]
      split
      · exact ensures_ok closed
      · exact ensures_bind fun _ _ => ensures_pure closed
    exact token.bind fun result same => ensures_pure ((progress_lines _ _).trans same)
  · split
    · exact ensures_ok rfl
    · exact ensures_ok ((progress_lines _ _).trans closed)
    · exact ensures_bind fun _ _ => ensures_pure ((progress_lines _ _).trans closed)

theorem progress_toolDone (emitter : MessagesEmitter κ) (key : StreamKey)
    (argumentsJson : JsString) :
    Ensures (emitter.toolDone context key argumentsJson) fun next =>
      next.progress = emitter.progress := by
  have closed := progress_closeActiveText emitter
  rw [toolDone]
  dsimp only
  split
  · exact ensures_ok closed
  · refine ensures_ite (fun _ => ensures_ok closed) fun _ => ensures_bind fun _ _ => ?_
    split
    · refine ensures_pure ?_
      split
      · exact (progress_lines _ _).trans closed
      · exact closed
    · exact ensures_pure closed

theorem progress_toolArgumentsDelta (emitter : MessagesEmitter κ) (key : StreamKey)
    (delta : JsString) :
    Ensures (emitter.toolArgumentsDelta context key delta) fun next =>
      next.progress = emitter.progress := by
  refine ensures_bind fun tool _ => ensures_bind fun _ _ => ensures_bind fun _ _ => ?_
  dsimp only
  split
  · refine ensures_pure ?_
    split
    · exact progress_lines _ _
    · rfl
  · exact ensures_pure rfl

theorem progress_toolStart (notResponses : context.source ≠ .responses)
    (emitter : MessagesEmitter κ) (key : StreamKey) (callId name : JsString) :
    Ensures (emitter.toolStart context key callId name) fun next =>
      next.progress = emitter.progress := by
  refine ensures_bind fun _ _ => ensures_pure ?_
  rw [if_neg fun both => notResponses both.1]
  exact progress_closeActiveText emitter

end MessagesEmitter

end GhcGateway.Conversion
