/-
# Emitting a Messages stream

`MessagesEmitter` writes the content blocks of a message. Text goes out as it
comes as long as nothing has to be written before it; what has to wait is queued
until the emission frontier reaches it, or left to `finish`, which compares what
has been written with the items of the ledger and writes the rest.

A tool call of a Responses stream is written while its arguments still come. A
reasoning item becomes a thinking block if it has a state a Messages client can
hold, or a carrier has been made for it.
-/

import GhcGateway.Conversion.EmissionFrontier
import GhcGateway.Conversion.MessagesEvents

namespace GhcGateway.Conversion

open Library

/-- The block text is being written to. -/
structure ActiveText where
  kind : ContentKind
  key : StreamKey
  index : Nat

structure MessagesTool where
  callId : JsString
  name : JsString
  argumentsJson : JsString
  done : Bool
  streamIndex : Option Nat
  closed : Bool
  itemEnded : Bool

structure MessagesEmitter (κ : Type) where
  base : EmitterBase κ MessagesEvent
  id : JsString
  nextIndex : Nat
  activeText : Option ActiveText
  bufferedBytes : Nat
  bufferAfterTool : Bool
  firstMessageKey : Option StreamKey
  responseFrontier : ResponseEmissionFrontier
  emittedResponseTools : List StreamKey
  pendingContent : OrderedMap StreamKey PendingContent
  streamedContent : OrderedMap StreamKey StreamedContent
  pendingReasoning : OrderedMap StreamKey (SemanticReasoningItem StreamKey)
  emittedReasoning : List StreamKey
  carrierTokens : OrderedMap StreamKey JsString
  tools : OrderedMap StreamKey MessagesTool

def OpaqueReasoningState.isResponsesItem : Option OpaqueReasoningState → Bool
  | some (.responsesItem _) => true
  | _ => false

namespace MessagesEmitter

variable {κ : Type} (context : StreamConversionContext κ)

def new (store : κ) : MessagesEmitter κ where
  base := { EmitterBase.new store with uuids := 1 }
  id := js "msg_" ++ context.createUuid 0
  nextIndex := 0
  activeText := none
  bufferedBytes := 0
  bufferAfterTool := false
  firstMessageKey := none
  responseFrontier := .new
  emittedResponseTools := []
  pendingContent := .empty
  streamedContent := .empty
  pendingReasoning := .empty
  emittedReasoning := []
  carrierTokens := .empty
  tools := .empty

/-- `yield` of an emission. -/
def emit (emitter : MessagesEmitter κ) (emission : Emission MessagesEvent) : MessagesEmitter κ :=
  { emitter with base := emitter.base.emit emission }

def event (emitter : MessagesEmitter κ) (event : MessagesEvent) : MessagesEmitter κ :=
  emitter.emit (.wire event)

/-- Some lines about the content blocks. -/
def lines (emitter : MessagesEmitter κ) (lines : List MessagesLine) : MessagesEmitter κ :=
  lines.foldl (fun emitter line => emitter.event (.block line)) emitter

/-! ## Text -/

def closeActiveText (emitter : MessagesEmitter κ) : MessagesEmitter κ :=
  match emitter.activeText with
  | none => emitter
  | some active => { emitter.lines [.stop active.index] with activeText := none }

/-- The block text of a kind and key goes to, started unless it is there. -/
def openText (emitter : MessagesEmitter κ) (kind : ContentKind) (key : StreamKey) :
    MessagesEmitter κ × Nat :=
  match emitter.activeText with
  | some active =>
    if active.kind = kind ∧ active.key = key then (emitter, active.index)
    else
      let emitter := emitter.closeActiveText
      ({ emitter.lines [.start emitter.nextIndex (.text [])] with
        nextIndex := emitter.nextIndex + 1
        activeText := some ⟨kind, key, emitter.nextIndex⟩ }, emitter.nextIndex)
  | none =>
    ({ emitter.lines [.start emitter.nextIndex (.text [])] with
      nextIndex := emitter.nextIndex + 1
      activeText := some ⟨kind, key, emitter.nextIndex⟩ }, emitter.nextIndex)

/-- `emitLiveText` and `recordStreamed`, which follows it each time. -/
def emitLiveText (emitter : MessagesEmitter κ) (kind : ContentKind) (key : StreamKey)
    (delta : JsString) : MessagesEmitter κ :=
  let (emitter, index) := emitter.openText kind key
  { emitter.lines [.change index (.text delta)] with
    streamedContent := recordStreamed emitter.streamedContent key kind delta }

/-! ## Tools -/

def emitTool (emitter : MessagesEmitter κ) (key : StreamKey) (tool : MessagesTool) (close : Bool) :
    MessagesEmitter κ :=
  if tool.streamIndex.isSome then emitter
  else
    let emitter := emitter.closeActiveText
    let index := emitter.nextIndex
    let closes := (tool.done || tool.itemEnded || close) && !tool.closed
    { emitter.lines (.start index (.toolUse tool.callId tool.name []) ::
        ((if tool.argumentsJson = [] then []
          else [.change index (.inputJson tool.argumentsJson)]) ++
        if closes then [.stop index] else [])) with
      nextIndex := index + 1
      emittedResponseTools := addTo emitter.emittedResponseTools key
      tools := emitter.tools.set key { tool with
        streamIndex := some index
        closed := tool.closed || closes } }

/-- A step of `closeOpenTools`. -/
def closeTool (emitter : MessagesEmitter κ) (key : StreamKey) : MessagesEmitter κ :=
  match emitter.tools.get key with
  | some tool =>
    match tool.streamIndex with
    | some index =>
      if tool.closed then emitter
      else { emitter.lines [.stop index] with
        tools := emitter.tools.set key { tool with closed := true } }
    | none => emitter
  | none => emitter

def closeOpenTools (emitter : MessagesEmitter κ) : MessagesEmitter κ :=
  emitter.tools.keys.foldl closeTool emitter

/-! ## Reasoning -/

def writesCarrier (item : SemanticReasoningItem StreamKey) (allowCarrier : Bool) : Bool :=
  allowCarrier && context.carrier.isSome && OpaqueReasoningState.isResponsesItem item.opaqueState

/-- The token of a reasoning item, created when it is first needed. -/
def carrierToken (emitter : MessagesEmitter κ) (item : SemanticReasoningItem StreamKey) :
    Fallible (MessagesEmitter κ × JsString) :=
  match emitter.carrierTokens.get item.key with
  | some token => .ok (emitter, token)
  | none => do
    let (base, token) ← emitter.base.createStreamCarrier context item .messages none
    return ({ emitter with
      base := base
      carrierTokens := emitter.carrierTokens.set item.key token }, token)

def visibleText (item : SemanticReasoningItem StreamKey) : JsString :=
  (item.parts.map fun part => part.text).flatten

/-- A thinking block written whole. -/
def writeReasoning (emitter : MessagesEmitter κ) (key : StreamKey) (block : MessagesBlock)
    (deltas : List MessagesDelta) : MessagesEmitter κ :=
  let index := emitter.nextIndex
  { emitter.lines (.start index block :: (deltas.map (.change index) ++ [.stop index])) with
    nextIndex := index + 1
    emittedReasoning := addTo emitter.emittedReasoning key }

def emitReasoning (emitter : MessagesEmitter κ) (item : SemanticReasoningItem StreamKey)
    (allowCarrier : Bool) : Fallible (MessagesEmitter κ) :=
  if item.key ∈ emitter.emittedReasoning then .ok emitter
  else if writesCarrier context item allowCarrier then do
    let (emitter, token) ← emitter.closeActiveText.carrierToken context item
    let visible := visibleText item
    return emitter.writeReasoning item.key
      (if visible = [] then .redactedThinking token else .thinking visible token) []
  else
    match item.messagesState with
    | none => .ok emitter
    | some (.redactedThinking data) =>
      .ok (emitter.closeActiveText.writeReasoning item.key (.redactedThinking data) [])
    | some (.thinking thinking signature) => do
      require (visibleText item = [] ∨ visibleText item = thinking)
      return emitter.closeActiveText.writeReasoning item.key (.thinking [] [])
        ((if thinking = [] then [] else [.thinking thinking]) ++ [.signature signature])

/-! ## The frontier -/

/-- Whether the item at the frontier waits for its carrier, which only `finish`
may make. -/
def waitsForCarrier (emitter : MessagesEmitter κ) : Bool :=
  match emitter.pendingReasoning.get (.responsesReasoning emitter.responseFrontier.item) with
  | some item => OpaqueReasoningState.isResponsesItem item.opaqueState &&
    context.carrier.isSome && emitter.responseFrontier.itemDoneAtFrontier
  | none => false

def drainReasoning (emitter : MessagesEmitter κ) : Fallible (MessagesEmitter κ) :=
  let key := StreamKey.responsesReasoning emitter.responseFrontier.item
  match emitter.pendingReasoning.get key with
  | some item =>
    if item.messagesState.isSome then
      { emitter with pendingReasoning := emitter.pendingReasoning.erase key }.emitReasoning
        context item false
    else .ok emitter
  | none => .ok emitter

def drainTool (emitter : MessagesEmitter κ) : MessagesEmitter κ :=
  let key := StreamKey.responsesTool emitter.responseFrontier.item
  match emitter.tools.get key with
  | some tool =>
    if key ∈ emitter.emittedResponseTools then emitter else emitter.emitTool key tool false
  | none => emitter

/-- The key under which content is queued at the frontier. -/
def readyKey (emitter : MessagesEmitter κ) : StreamKey :=
  let frontier := emitter.responseFrontier
  let textKey := .responsesMessagePart frontier.item frontier.currentContentIndex .text
  if emitter.pendingContent.has textKey then textKey
  else .responsesMessagePart frontier.item frontier.currentContentIndex .refusal

def drainContent (emitter : MessagesEmitter κ) : MessagesEmitter κ :=
  match emitter.pendingContent.get emitter.readyKey with
  | some pending =>
    { emitter with
      pendingContent := emitter.pendingContent.erase emitter.readyKey }.emitLiveText
        pending.kind emitter.readyKey pending.delta
  | none => emitter

/-- What one turn of `drainReadyContent` writes. -/
def drainCurrent (emitter : MessagesEmitter κ) : Fallible (MessagesEmitter κ) := do
  let emitter ← emitter.drainReasoning context
  return emitter.drainTool.drainContent

/-- The loop of `drainReadyContent`, which goes on for as long as it has fuel. -/
def drainLoop : Nat → MessagesEmitter κ → Fallible (MessagesEmitter κ)
  | 0, emitter => .ok emitter
  | fuel + 1, emitter =>
    if emitter.waitsForCarrier context then .ok emitter
    else do
      let emitter ← emitter.drainCurrent context
      let frontier := emitter.responseFrontier
      if frontier.contentDoneAtFrontier frontier.currentItemOrderKey then
        drainLoop fuel { emitter with
          responseFrontier := frontier.advanceContent frontier.currentItemOrderKey }
      else if frontier.itemDoneAtFrontier then
        drainLoop fuel { emitter with
          pendingReasoning := emitter.pendingReasoning.erase (.responsesReasoning frontier.item)
          responseFrontier := frontier.advanceItem }
      else return emitter

/-- `drainReadyContent`: every turn but the last uses up a mark. -/
def drainReadyContent (emitter : MessagesEmitter κ) : Fallible (MessagesEmitter κ) :=
  emitter.drainLoop context (emitter.responseFrontier.marks + 1)

/-! ## The interface -/

def start (emitter : MessagesEmitter κ) : Fallible (MessagesEmitter κ) :=
  .ok (emitter.event .messageStart)

/-- `messageStart` and `reserveMessage`. -/
def noteMessage (emitter : MessagesEmitter κ) (key : StreamKey) : MessagesEmitter κ :=
  { emitter with firstMessageKey := emitter.firstMessageKey.or (some key) }

def contentDone (emitter : MessagesEmitter κ) (orderKey : StreamKey) (contentIndex : Nat) :
    Fallible (MessagesEmitter κ) :=
  { emitter with
    responseFrontier := emitter.responseFrontier.markContentDone orderKey contentIndex
    }.drainReadyContent context

/-- The tool call of an item that is done. -/
def endTool (emitter : MessagesEmitter κ) (key : StreamKey) : MessagesEmitter κ :=
  match emitter.tools.get key with
  | some tool =>
    match tool.streamIndex with
    | some index =>
      if tool.closed then
        { emitter with tools := emitter.tools.set key { tool with itemEnded := true } }
      else { emitter.lines [.stop index] with
        tools := emitter.tools.set key { tool with itemEnded := true, closed := true } }
    | none => { emitter with tools := emitter.tools.set key { tool with itemEnded := true } }
  | none => emitter

def itemDone (emitter : MessagesEmitter κ) (outputIndex : Int) : Fallible (MessagesEmitter κ) :=
  let emitter := emitter.endTool (.responsesTool outputIndex)
  { emitter with
    responseFrontier := emitter.responseFrontier.markItemDone outputIndex
    }.drainReadyContent context

def reasoningDone (emitter : MessagesEmitter κ) (item : SemanticReasoningItem StreamKey) :
    Fallible (MessagesEmitter κ) :=
  if context.source = .responses then
    .ok { emitter with pendingReasoning := emitter.pendingReasoning.set item.key item }
  else if item.messagesState = none then .ok emitter
  else emitter.emitReasoning context item true

/-- Whether content waits, which for a Responses stream is up to the frontier. -/
def holdsContent (emitter : MessagesEmitter κ) (key : StreamKey) (orderKey : Option StreamKey) :
    Bool :=
  if context.source = .responses then !emitter.responseFrontier.allowsContent key orderKey
  else emitter.bufferAfterTool || emitter.firstMessageKey ≠ some (orderKey.getD key)

/-- `textDelta` and `refusalDelta`. -/
def contentDelta (emitter : MessagesEmitter κ) (kind : ContentKind) (key : StreamKey)
    (delta : JsString) (orderKey : Option StreamKey) : Fallible (MessagesEmitter κ) :=
  let emitter := emitter.noteMessage (orderKey.getD key)
  if emitter.holdsContent context key orderKey then
    if context.source = .responses then do
      let pendingContent ← queueContent emitter.pendingContent key orderKey kind delta
      return { emitter with pendingContent := pendingContent }
    else .ok emitter
  else .ok (emitter.emitLiveText kind key delta)

def toolStart (emitter : MessagesEmitter κ) (key : StreamKey) (callId name : JsString) :
    Fallible (MessagesEmitter κ) := do
  let emitter := emitter.closeActiveText
  require (¬ emitter.tools.has key)
  let tool : MessagesTool := ⟨callId, name, [], false, none, false, false⟩
  let emitter := { emitter with
    bufferAfterTool := true
    tools := emitter.tools.set key tool }
  return if context.source = .responses ∧ emitter.responseFrontier.allowsItem key then
    emitter.emitTool key tool false else emitter

def toolArgumentsDelta (emitter : MessagesEmitter κ) (key : StreamKey) (delta : JsString) :
    Fallible (MessagesEmitter κ) := do
  let tool ← required (emitter.tools.get key)
  require (¬ tool.done)
  let bufferedBytes := emitter.bufferedBytes + utf8ByteLength delta
  require (¬ context.accumulatorBytes < bufferedBytes)
  let emitter := { emitter with
    bufferedBytes := bufferedBytes
    tools := emitter.tools.set key { tool with argumentsJson := tool.argumentsJson ++ delta } }
  match tool.streamIndex with
  | some index =>
    return if context.source = .responses then emitter.lines [.change index (.inputJson delta)]
      else emitter
  | none => return emitter

def toolDone (emitter : MessagesEmitter κ) (key : StreamKey) (argumentsJson : JsString) :
    Fallible (MessagesEmitter κ) :=
  let emitter := emitter.closeActiveText
  match emitter.tools.get key with
  | none => .ok emitter
  | some tool =>
    if tool.done then .ok emitter
    else do
      require (argumentsJson = tool.argumentsJson)
      match tool.streamIndex with
      | some index =>
        return if context.source = .responses ∧ tool.closed = false then
          { emitter.lines [.stop index] with
            tools := emitter.tools.set key { tool with done := true, closed := true } }
          else { emitter with tools := emitter.tools.set key { tool with done := true } }
      | none => return { emitter with tools := emitter.tools.set key { tool with done := true } }

/-! ## The end -/

/-- What of a part has not been written yet. -/
def emitRemaining (emitter : MessagesEmitter κ) (key : StreamKey) (part : SemanticContent) :
    Fallible (MessagesEmitter κ) := do
  let streamed := streamedValue emitter.streamedContent key part.kind
  require (streamed <+: part.text)
  let remaining := part.text.drop streamed.length
  if remaining = [] then return emitter
  else
    let index := emitter.nextIndex
    return { emitter.lines [.start index (.text []), .change index (.text remaining), .stop index]
      with nextIndex := index + 1 }

/-- A step of `emitBufferedItems`. -/
def emitBufferedItem (allowCarriers : Bool) (emitter : MessagesEmitter κ) :
    SemanticResponseItem StreamKey → Fallible (MessagesEmitter κ)
  | .reasoning item =>
    if item.messagesState.isSome ∨ OpaqueReasoningState.isResponsesItem item.opaqueState then
      emitter.emitReasoning context item allowCarriers
    else .ok emitter
  | .message key contentKeys content =>
    (keyedParts key contentKeys content).foldlM
      (fun emitter part => emitter.emitRemaining part.1 part.2) emitter
  | .toolCall item => do
    let tool ← required (emitter.tools.get item.key)
    return if item.key ∈ emitter.emittedResponseTools then emitter
      else emitter.emitTool item.key tool true

def emitBufferedItems (emitter : MessagesEmitter κ) (items : List (SemanticResponseItem StreamKey))
    (allowCarriers : Bool) : Fallible (MessagesEmitter κ) :=
  items.foldlM (emitBufferedItem context allowCarriers) emitter

def finish (emitter : MessagesEmitter κ) (terminal : TerminalEvent) (usage : SemanticUsage)
    (items : List (SemanticResponseItem StreamKey)) : Fallible (MessagesEmitter κ) := do
  let emitter ← emitter.closeActiveText.closeOpenTools.emitBufferedItems context items
    (terminal.status = .completed ∧ items.any SemanticResponseItem.isToolCall)
  return (emitter.closeOpenTools.event (.messageDelta terminal.finishReason usage)).event
    .messageStop

/-- `MessagesEmitter` as a `StreamEmitter`. -/
def streamEmitter : StreamEmitter (MessagesEmitter κ) MessagesEvent where
  emitted emitter := emitter.base.emitted
  emit := emit
  start := start
  activateReserved := .ok
  messageStart emitter key := .ok (emitter.noteMessage key)
  reserveMessage emitter key _ := .ok (emitter.noteMessage key)
  contentDone := contentDone context
  itemDone := itemDone context
  reasoningDelta emitter _ _ := .ok emitter
  reasoningDone := reasoningDone context
  contentDelta := contentDelta context
  toolStart emitter key callId name _ := emitter.toolStart context key callId name
  toolArgumentsDelta := toolArgumentsDelta context
  toolDone := toolDone context
  finish := finish context

end MessagesEmitter

end GhcGateway.Conversion
