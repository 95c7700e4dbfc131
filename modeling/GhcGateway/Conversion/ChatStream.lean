/-
# The Chat stream decoder

`decodeChatStream` reads the frames of a Chat stream and yields semantic events.
Reasoning is closed by the first content or tool call, and again by the end of the
stream; tool calls start in the order of their indices once their id and name and
some argument text are known; content after a tool call waits for the finish
reason.

A frame is what `parseOpenaiChatCompletionsSse` makes of one event of the stream.
-/

import GhcGateway.Conversion.ChatReasoning
import GhcGateway.Library.Generator
import GhcGateway.Library.OrderedMap

namespace GhcGateway.Conversion

open Library

/-- What a stream decoder does: it yields semantic events and may throw. -/
abbrev Decoding := Generator SemanticStreamEvent ConversionError

def report (event : SemanticStreamEvent) : Decoding Unit := Generator.yieldValue event

/-! ## Frames -/

/-- `ChatCompletionsStreamFrame`, or the error the parser throws. -/
inductive ChatFrame
  | chunk (payload : WireJsonObject)
  | error
  | done
  | failure (error : ConversionError)

/-! ## Usage -/

structure ChatCompletionsUsageCounters where
  promptTokens : Option Nat
  completionTokens : Option Nat
  detailedReasoningTokens : Option Nat
  separateReasoningTokens : Option Nat
  cacheReadTokens : Option Nat
  cacheWriteTokens : Option Nat

def mergeChatCompletionsUsageCounters (current update : ChatCompletionsUsageCounters) :
    ChatCompletionsUsageCounters where
  promptTokens := update.promptTokens.or current.promptTokens
  completionTokens := update.completionTokens.or current.completionTokens
  detailedReasoningTokens := update.detailedReasoningTokens.or current.detailedReasoningTokens
  separateReasoningTokens := update.separateReasoningTokens.or current.separateReasoningTokens
  cacheReadTokens := update.cacheReadTokens.or current.cacheReadTokens
  cacheWriteTokens := update.cacheWriteTokens.or current.cacheWriteTokens

def chatCompletionsUsageFromCounters (counters : ChatCompletionsUsageCounters) : SemanticUsage :=
  let separateReasoning :=
    if counters.detailedReasoningTokens = none then counters.separateReasoningTokens.getD 0 else 0
  { inputTokens := counters.promptTokens.getD 0
    outputTokens := roundDouble (counters.completionTokens.getD 0 + separateReasoning)
    cacheReadTokens := counters.cacheReadTokens.getD 0
    cacheWriteTokens := counters.cacheWriteTokens.getD 0
    reasoningTokens := counters.detailedReasoningTokens.getD separateReasoning
    reportedReasoningTokens :=
      counters.detailedReasoningTokens.or counters.separateReasoningTokens }

def chatUsage (value : WireJsonObject) : Fallible ChatCompletionsUsageCounters := do
  let count (object : Option WireJsonObject) (key : String) : Fallible (Option Nat) :=
    optionalNonnegativeIntegerMember invalidStream object (js key)
  let promptDetails ← objectMember invalidStream value (js "prompt_tokens_details")
  let completionDetails ← objectMember invalidStream value (js "completion_tokens_details")
  let detailedReasoningTokens ← count completionDetails "reasoning_tokens"
  let promptTokens ← count (some value) "prompt_tokens"
  let completionTokens ← count (some value) "completion_tokens"
  let separateReasoningTokens ← (if detailedReasoningTokens = none then
    count (some value) "reasoning_tokens" else pure none)
  let cachedTokens ← count promptDetails "cached_tokens"
  let cacheReadTokens ← (if cachedTokens = none then
    count (some value) "cache_read_input_tokens" else pure cachedTokens)
  let writtenTokens ← count promptDetails "cache_write_tokens"
  let cacheWriteTokens ← (if writtenTokens = none then
    count (some value) "cache_creation_input_tokens" else pure writtenTokens)
  return ⟨promptTokens, completionTokens, detailedReasoningTokens, separateReasoningTokens,
    cacheReadTokens, cacheWriteTokens⟩

def chatFinish (value : WireJson) : Fallible FinishReason :=
  if value = .string (js "stop") then .ok .stop
  else if value = .string (js "tool_calls") then .ok .toolCalls
  else if value = .string (js "length") then .ok .length
  else if value = .string (js "content_filter") then .ok .contentFilter
  else .error invalidStream

/-- The finish reasons of a response that was cut off. -/
def FinishReason.truncates : FinishReason → Bool
  | .length => true
  | .contentFilter => true
  | _ => false

/-! ## The state of the decoder -/

/-- A tool call as `decodeChatStream` collects it. -/
structure ChatTool where
  id : JsString
  name : JsString
  pendingArguments : JsString
  argumentsSeen : Bool
  started : Bool
  done : Bool

/-- The local variables of `decodeChatStream`. The thinking blocks observed are
those of the indices 0, 1, 2, … -/
structure ChatDecoder where
  budget : DecoderBudget
  tools : OrderedMap Nat ChatTool
  nextToolToStart : Nat
  pendingFinish : Option FinishReason
  observedUsage : ChatCompletionsUsageCounters
  chatText : JsString
  chatRefusal : JsString
  chatReasoning : JsString
  scalarReasoning : JsString
  reasoningOpen : Bool
  reasoningClosed : Bool
  opaqueChatValue : Option JsString
  observedThinkingBlocks : List ChatThinkingBlock
  pendingThinkingKeys : List StreamKey
  toolObserved : Bool
  pendingPostTool : List SemanticStreamEvent

namespace ChatDecoder

/-- Before the first frame. -/
def new (accumulatorBytes : Nat) : ChatDecoder where
  budget := ⟨accumulatorBytes, 0⟩
  tools := .empty
  nextToolToStart := 0
  pendingFinish := none
  observedUsage := ⟨none, none, none, none, none, none⟩
  chatText := []
  chatRefusal := []
  chatReasoning := []
  scalarReasoning := []
  reasoningOpen := false
  reasoningClosed := false
  opaqueChatValue := none
  observedThinkingBlocks := []
  pendingThinkingKeys := []
  toolObserved := false
  pendingPostTool := []

def reserve (decoder : ChatDecoder) (value : JsString) : Fallible ChatDecoder := do
  let budget ← decoder.budget.reserve value
  return { decoder with budget := budget }

def reserveEntry (decoder : ChatDecoder) : Fallible ChatDecoder := do
  let budget ← decoder.budget.reserveEntry
  return { decoder with budget := budget }

/-- The text accumulated of a kind of content. -/
def content (decoder : ChatDecoder) : ContentKind → JsString
  | .text => decoder.chatText
  | .refusal => decoder.chatRefusal

/-- Append to the text accumulated of a kind of content. -/
def appendContent (decoder : ChatDecoder) (kind : ContentKind) (delta : JsString) : ChatDecoder :=
  match kind with
  | .text => { decoder with chatText := decoder.chatText ++ delta }
  | .refusal => { decoder with chatRefusal := decoder.chatRefusal ++ delta }

/-- Whether anything has come that reasoning has to precede. -/
def pastReasoning (decoder : ChatDecoder) : Prop :=
  decoder.reasoningClosed = true ∨ decoder.chatText ≠ [] ∨ decoder.chatRefusal ≠ [] ∨
    decoder.toolObserved = true

instance (decoder : ChatDecoder) : Decidable decoder.pastReasoning :=
  inferInstanceAs (Decidable (_ ∨ _ ∨ _ ∨ _))

/-! ## Reasoning -/

/-- A step of `observeThinkingBlocks`. -/
def observeThinkingBlock (decoder : ChatDecoder) (block : ChatThinkingBlock) (index : Nat) :
    Decoding ChatDecoder :=
  match decoder.observedThinkingBlocks[index]? with
  | some existing => do
    demand invalidStream (existing = block)
    return decoder
  | none => do
    demand invalidStream (¬ decoder.pastReasoning)
    let decoder ← decoder.reserveEntry
    let decoder := { decoder with
      observedThinkingBlocks := decoder.observedThinkingBlocks ++ [block] }
    let key := StreamKey.chatThinkingBlock index
    let pending := { decoder with pendingThinkingKeys := decoder.pendingThinkingKeys ++ [key] }
    match block with
    | .redactedThinking data =>
      if data = [] then return decoder
      else do
        let pending ← pending.reserve data
        report (.reasoningStart key none (some (.redactedThinking data)) none)
        report .semanticProgress
        return pending
    | .thinking thinking signature =>
      let signatureText := signature.getD []
      if thinking = [] ∧ signatureText = [] then return decoder
      else if signatureText = [] then do
        let decoder ← decoder.reserve thinking
        return decoder
      else do
        let pending ← pending.reserve thinking
        let pending ← pending.reserve signatureText
        report (.reasoningStart key none (some (.thinking thinking signatureText)) none)
        report .semanticProgress
        return pending

def observeThinkingBlocks (decoder : ChatDecoder) (blocks : List ChatThinkingBlock) :
    Decoding ChatDecoder :=
  blocks.zipIdx.foldlM (fun decoder (block, index) => decoder.observeThinkingBlock block index)
    decoder

/-- Where the generic reasoning is reported. -/
def reasoningAddress : ReasoningPartAddress :=
  ⟨.chatReasoning, .chatReasoningPart, none, .summary, 0⟩

def updateVisibleReasoning (decoder : ChatDecoder) : Decoding ChatDecoder := do
  let thinkingReasoning := visibleThinkingBlockText decoder.observedThinkingBlocks
  let next ← compatiblePresentation invalidStream decoder.scalarReasoning thinkingReasoning
  demand invalidStream (decoder.chatReasoning <+: next)
  let suffix := next.drop decoder.chatReasoning.length
  if suffix = [] then return decoder
  else do
    let decoder ← decoder.reserve suffix
    report (.reasoningDelta reasoningAddress suffix)
    return { decoder with chatReasoning := next, reasoningOpen := true }

def observeOpaqueChatState (decoder : ChatDecoder) (value : WireJsonObject) :
    Fallible ChatDecoder := do
  let observed ← chatReasoningState invalidStream value
  match memberValues (observed.getD []) (js "reasoning_opaque") with
  | [] => return decoder
  | .string next :: _ => do
    demand invalidStream (next ≠ [])
    match decoder.opaqueChatValue with
    | some existing => do
      demand invalidStream (existing = next)
      return decoder
    | none => do
      let decoder ← decoder.reserve next
      return { decoder with opaqueChatValue := some next }
  | _ => .error invalidStream

def opaqueState (decoder : ChatDecoder) : OpaqueReasoningState :=
  .chatState (wireObject [
    ("reasoning_content",
      if decoder.chatReasoning = [] then none else some (.string decoder.chatReasoning)),
    ("reasoning_opaque", decoder.opaqueChatValue.map .string)])

/-- The events of `closeReasoning`. -/
def closingEvents (decoder : ChatDecoder) (status : ItemStatus) : List SemanticStreamEvent :=
  (if decoder.reasoningOpen = true ∨ decoder.opaqueChatValue ≠ none then [
    .reasoningStart .chatReasoning none none (some decoder.opaqueState),
    .reasoningDone .chatReasoning status]
  else []) ++ decoder.pendingThinkingKeys.map fun key => .reasoningDone key status

def closeReasoning (decoder : ChatDecoder) (status : ItemStatus) : Decoding ChatDecoder := do
  let events := decoder.closingEvents status
  Generator.yieldValues events
  return { decoder with
    reasoningOpen := false
    pendingThinkingKeys := []
    reasoningClosed := decoder.reasoningClosed || events ≠ [] }

/-! ## Content -/

/-- A delta of content. What follows a tool call waits for the finish reason. -/
def reportContent (decoder : ChatDecoder) (kind : ContentKind) (delta : JsString) :
    Decoding ChatDecoder :=
  if decoder.toolObserved then
    return { decoder with
      pendingPostTool :=
        decoder.pendingPostTool ++ [.contentDelta kind (.chatMessage 1) none delta] }
  else do
    report (.contentDelta kind (.chatMessage 0) none delta)
    return decoder

/-- Content that is not empty closes the reasoning before it. -/
def extendContent (decoder : ChatDecoder) (kind : ContentKind) (delta : JsString) :
    Decoding ChatDecoder :=
  if delta = [] then return decoder
  else do
    let decoder ← decoder.closeReasoning .completed
    let decoder ← decoder.reserve delta
    (decoder.appendContent kind delta).reportContent kind delta

def contentDelta (decoder : ChatDecoder) (delta : WireJsonObject) (kind : ContentKind) :
    Decoding ChatDecoder := do
  let value ← nullableStringMember invalidStream delta
    (match kind with | .text => js "content" | .refusal => js "refusal")
  decoder.extendContent kind (value.getD [])

/-- The content a kind has in the final message: it continues what came before. -/
def contentSnapshot (decoder : ChatDecoder) (message : WireJsonObject) (kind : ContentKind) :
    Decoding ChatDecoder := do
  let value ← nullableStringMember invalidStream message
    (match kind with | .text => js "content" | .refusal => js "refusal")
  match value with
  | none => do
    demand invalidStream (decoder.content kind = [])
    return decoder
  | some value => do
    demand invalidStream (decoder.content kind <+: value)
    decoder.extendContent kind (value.drop (decoder.content kind).length)

/-! ## Tool calls -/

def toolKey (index : Nat) : StreamKey := .chatTool index

/-- Write a tool call back. -/
def setTool (decoder : ChatDecoder) (index : Nat) (tool : ChatTool) : ChatDecoder :=
  { decoder with tools := decoder.tools.set index tool }

/-- Report that a tool call starts, with the arguments that waited for it. -/
def startTool (decoder : ChatDecoder) (index : Nat) (tool : ChatTool) : Decoding ChatDecoder := do
  report (.toolStart (toolKey index) none tool.id tool.name)
  Generator.yieldValues (if tool.pendingArguments = [] then []
    else [.toolArgumentsDelta (toolKey index) tool.pendingArguments])
  return decoder.setTool index { tool with started := true, pendingArguments := [] }

/-- Whether a tool call can start. -/
def ready (tool : ChatTool) : Bool :=
  !tool.started && tool.argumentsSeen && tool.id ≠ [] && tool.name ≠ []

/-- The loop of `startReadyTools`. Every round starts a tool call, so there are no
more rounds than tool calls. -/
def startReadyToolsLoop : Nat → ChatDecoder → Decoding ChatDecoder
  | 0, decoder => return decoder
  | rounds + 1, decoder =>
    match decoder.tools.get decoder.nextToolToStart with
    | none => return decoder
    | some tool =>
      if ready tool then do
        let index := decoder.nextToolToStart
        let decoder ← { decoder with nextToolToStart := index + 1 }.startTool index tool
        startReadyToolsLoop rounds decoder
      else return decoder

def startReadyTools (decoder : ChatDecoder) : Decoding ChatDecoder :=
  startReadyToolsLoop decoder.tools.keys.length decoder

def startIdentifiedTools (decoder : ChatDecoder) : Decoding ChatDecoder :=
  (decoder.tools.entries.insertionSort fun left right => left.1 ≤ right.1).foldlM
    (fun decoder (index, tool) =>
      if tool.started then return decoder
      else do
        demand invalidStream (tool.id ≠ [] ∧ tool.name ≠ [])
        decoder.startTool index tool) decoder

/-- An index as `/^(?:0|[1-9]\d*)$/` matches it. -/
def isIndexLexeme : JsString → Bool
  | [] => false
  | [unit] => 0x30 ≤ unit && unit ≤ 0x39
  | first :: rest => 0x31 ≤ first && first ≤ 0x39 &&
    rest.all fun unit => 0x30 ≤ unit && unit ≤ 0x39

def toolCallIndex (value : WireJsonObject) (position : Nat) : Fallible Nat := do
  let member ← singleMember invalidStream value (js "index")
  match member with
  | none => return position
  | some (.number lexeme) => do
    demand invalidStream (isIndexLexeme lexeme = true)
    let index ← integerMember invalidStream value (js "index")
    return (index.getD 0).toNat
  | some _ => .error invalidStream

def toolCallId (decoder : ChatDecoder) (tool : ChatTool) (value : WireJsonObject) :
    Fallible (ChatDecoder × ChatTool) := do
  let id ← optionalStringMember invalidStream value (js "id")
  match id with
  | none => return (decoder, tool)
  | some id => do
    demand invalidStream (tool.id = [] ∨ tool.id = id)
    let decoder ← decoder.reserve id
    return (decoder, { tool with id := id })

/-- The name of a tool call in a delta: repeated, sent again with more, or continued. -/
def toolCallName (decoder : ChatDecoder) (tool : ChatTool) (name : Option JsString) :
    Fallible (ChatDecoder × ChatTool) :=
  match name with
  | none => .ok (decoder, tool)
  | some delta =>
    if tool.started then do
      demand invalidStream (delta = [] ∨ delta = tool.name)
      return (decoder, tool)
    else if delta = tool.name then .ok (decoder, tool)
    else if tool.name <+: delta then do
      let decoder ← decoder.reserve (delta.drop tool.name.length)
      return (decoder, { tool with name := delta })
    else do
      let decoder ← decoder.reserve delta
      return (decoder, { tool with name := tool.name ++ delta })

def toolCallArguments (decoder : ChatDecoder) (tool : ChatTool) (delta : JsString) :
    Fallible (ChatDecoder × ChatTool) :=
  if delta = [] then .ok (decoder, tool)
  else do
    let decoder ← decoder.reserve delta
    return (decoder, { tool with
      pendingArguments := tool.pendingArguments ++ delta
      argumentsSeen := true })

/-- The `function` of a tool call in a delta. -/
def toolCallFunction (value : WireJsonObject) : Fallible WireJsonObject := do
  let member ← objectMember invalidStream value (js "function")
  return member.getD []

/-- What a delta says about a tool call, but for its index. -/
def observeToolCall (decoder : ChatDecoder) (index : Nat) (value : WireJsonObject) :
    Fallible (ChatDecoder × ChatTool × Option JsString) := do
  let existing := decoder.tools.get index
  let decoder ← (if existing = none then decoder.reserveEntry else pure decoder)
  let tool := existing.getD ⟨[], [], [], false, false, false⟩
  let toolType ← singleMember invalidStream value (js "type")
  demand invalidStream (toolType = none ∨ toolType = some (.string (js "function")))
  let (decoder, tool) ← decoder.toolCallId tool value
  let fn ← toolCallFunction value
  let name ← optionalStringMember invalidStream fn (js "name")
  let (decoder, tool) ← decoder.toolCallName tool name
  let argumentsDelta ← optionalStringMember invalidStream fn (js "arguments")
  let (decoder, tool) ← decoder.toolCallArguments tool (argumentsDelta.getD [])
  return (decoder, tool, argumentsDelta)

def toolCallDelta (decoder : ChatDecoder) (value : WireJson) (position : Nat) :
    Decoding ChatDecoder :=
  match value with
  | .object value => do
    let index ← toolCallIndex value position
    let (decoder, tool, argumentsDelta) ← decoder.observeToolCall index value
    if tool.started = true ∧ argumentsDelta ≠ none ∧ tool.pendingArguments ≠ [] then do
      report (.toolArgumentsDelta (toolKey index) tool.pendingArguments)
      return decoder.setTool index { tool with pendingArguments := [] }
    else return decoder.setTool index tool
  | _ => Generator.throw invalidStream

def toolCallDeltas (decoder : ChatDecoder) (calls : List WireJson) : Decoding ChatDecoder := do
  let decoder ← calls.zipIdx.foldlM
    (fun decoder (value, position) => decoder.toolCallDelta value position) decoder
  let decoder ← decoder.startReadyTools
  return { decoder with toolObserved := decoder.toolObserved || calls ≠ [] }

/-! ## Deltas and final messages -/

/-- The checks that a delta and a final message share. -/
def rejectUnsupported (message : WireJsonObject) : Fallible Unit := do
  rejectNonemptyCitations message (js "annotations")
  let audio ← singleMember invalidStream message (js "audio")
  demand invalidStream (audio = none ∨ audio = some .null)

def extendScalarReasoning (decoder : ChatDecoder) (delta : JsString) : Fallible ChatDecoder :=
  if delta = [] then .ok decoder
  else do
    demand invalidStream (¬ decoder.pastReasoning)
    let decoder ← decoder.reserve delta
    return { decoder with scalarReasoning := decoder.scalarReasoning ++ delta }

/-- The tool calls a delta has, if they are not null. -/
def toolCallsMember (delta : WireJsonObject) : Fallible (Option (List WireJson)) := do
  let value ← singleMember invalidStream delta (js "tool_calls")
  match value with
  | none => return none
  | some .null => return none
  | some (.array calls) => return some calls
  | some _ => .error invalidStream

/-- `choice.delta`. -/
def observeDelta (decoder : ChatDecoder) (delta : WireJsonObject) : Decoding ChatDecoder := do
  rejectUnsupported delta
  let reasoning ← decodeChatReasoning invalidStream delta
  let decoder ← decoder.observeOpaqueChatState delta
  let decoder ← decoder.observeThinkingBlocks reasoning.thinkingBlocks
  let decoder ← decoder.extendScalarReasoning reasoning.scalarText
  let calls ← toolCallsMember delta
  let decoder ← decoder.updateVisibleReasoning
  let decoder ← (if calls.getD [] = [] then pure decoder else decoder.closeReasoning .completed)
  let decoder ← decoder.contentDelta delta .text
  let decoder ← decoder.contentDelta delta .refusal
  match calls with
  | none => return decoder
  | some calls => decoder.toolCallDeltas calls

/-- The reasoning text of the final message: it continues what came before. -/
def completeScalarReasoning (decoder : ChatDecoder) (text : JsString) : Fallible ChatDecoder :=
  if text = [] then .ok decoder
  else do
    demand invalidStream (decoder.scalarReasoning <+: text)
    demand invalidStream (¬ decoder.pastReasoning)
    let decoder ← decoder.reserve (text.drop decoder.scalarReasoning.length)
    return { decoder with scalarReasoning := text }

/-- The index, the function, the id and the name of a tool call of the final
message, and its arguments. -/
def finalToolCall (value : WireJson) (position : Nat) :
    Fallible (Nat × JsString × JsString × JsString) :=
  match value with
  | .object value => do
    let type ← singleMember invalidStream value (js "type")
    demand invalidStream (type = some (.string (js "function")))
    let index ← integerMember invalidStream value (js "index")
    let fn ← objectMember invalidStream value (js "function")
    let id ← stringMember invalidStream value (js "id")
    let name ← stringMember invalidStream (fn.getD []) (js "name")
    let argumentsJson ← stringMember invalidStream (fn.getD []) (js "arguments")
    let index := index.getD position
    match id, name, argumentsJson with
    | some id, some name, some argumentsJson => do
      demand invalidStream (0 ≤ index ∧ id ≠ [] ∧ name ≠ [])
      return (index.toNat, id, name, argumentsJson)
    | _, _, _ => .error invalidStream
  | _ => .error invalidStream

/-- The id of the final message completes that of the deltas. -/
def completeToolId (decoder : ChatDecoder) (tool : ChatTool) (id : JsString) :
    Fallible (ChatDecoder × ChatTool) :=
  if tool.id = [] then do
    let decoder ← decoder.reserve id
    return (decoder, { tool with id := id })
  else do
    demand invalidStream (tool.id = id)
    return (decoder, tool)

/-- The name of the final message completes that of the deltas. -/
def completeToolName (decoder : ChatDecoder) (tool : ChatTool) (name : JsString) :
    Fallible (ChatDecoder × ChatTool) :=
  if tool.name = [] then do
    let decoder ← decoder.reserve name
    return (decoder, { tool with name := name })
  else if tool.name = name then .ok (decoder, tool)
  else do
    demand invalidStream (tool.started = false ∧ tool.name <+: name)
    let decoder ← decoder.reserve (name.drop tool.name.length)
    return (decoder, { tool with name := name })

def observeFinalToolCall (decoder : ChatDecoder) (finalToolArguments : OrderedMap Nat JsString)
    (value : WireJson) (position : Nat) : Fallible (ChatDecoder × OrderedMap Nat JsString) := do
  let (index, id, name, argumentsJson) ← finalToolCall value position
  demand invalidStream (finalToolArguments.has index = false)
  let (decoder, tool) ← (match decoder.tools.get index with
    | none => do
      let decoder ← decoder.reserveEntry
      let decoder ← decoder.reserve id
      let decoder ← decoder.reserve name
      pure (decoder, (⟨id, name, [], true, false, false⟩ : ChatTool))
    | some tool => do
      let (decoder, tool) ← decoder.completeToolId tool id
      decoder.completeToolName tool name)
  return (decoder.setTool index { tool with argumentsSeen := true },
    finalToolArguments.set index argumentsJson)

/-- The arguments of the final message complete a tool call. -/
def finishFinalTool (decoder : ChatDecoder) (index : Nat) (argumentsJson : JsString) :
    Decoding ChatDecoder :=
  match decoder.tools.get index with
  | none => Generator.throw invalidStream
  | some tool => do
    demand invalidStream (tool.started = true)
    report (.toolDone (toolKey index) (some argumentsJson) none)
    return decoder.setTool index { tool with done := true }

def observeFinalToolCalls (decoder : ChatDecoder) (calls : List WireJson) :
    Decoding ChatDecoder := do
  let decoder ← (if calls = [] then pure decoder else decoder.closeReasoning .completed)
  let (decoder, finalToolArguments) ← (calls.zipIdx.foldlM
    (fun state (value, position) => observeFinalToolCall state.1 state.2 value position)
    (decoder, .empty) : Fallible (ChatDecoder × OrderedMap Nat JsString))
  demand invalidStream (∀ index ∈ decoder.tools.keys, finalToolArguments.has index = true)
  let decoder ← decoder.startReadyTools
  (finalToolArguments.entries.insertionSort fun left right => left.1 ≤ right.1).foldlM
    (fun decoder (index, argumentsJson) => decoder.finishFinalTool index argumentsJson) decoder

/-- `choice.message`. -/
def observeFinalMessage (decoder : ChatDecoder) (message : WireJsonObject) :
    Decoding ChatDecoder := do
  rejectUnsupported message
  let reasoning ← decodeChatReasoning invalidStream message
  let decoder ← decoder.observeOpaqueChatState message
  let decoder ← decoder.observeThinkingBlocks reasoning.thinkingBlocks
  let decoder ← decoder.completeScalarReasoning reasoning.scalarText
  let decoder ← decoder.updateVisibleReasoning
  let decoder ← decoder.contentSnapshot message .text
  let decoder ← decoder.contentSnapshot message .refusal
  let calls ← arrayMember invalidStream message (js "tool_calls")
  match calls with
  | some calls => decoder.observeFinalToolCalls calls
  | none => do
    demand invalidStream (decoder.tools.keys = [])
    return decoder

/-- `choice.finish_reason`. -/
def observeFinish (decoder : ChatDecoder) (finish : WireJson) : Decoding ChatDecoder := do
  let observedFinish ← chatFinish finish
  demand invalidStream (decoder.pendingFinish = none ∨ decoder.pendingFinish = some observedFinish)
  let decoder := { decoder with pendingFinish := some observedFinish }
  demand invalidStream (¬ (observedFinish = .toolCalls ∧ decoder.tools.keys = []))
  let decoder ← (if observedFinish.truncates then decoder.startIdentifiedTools
    else decoder.startReadyTools)
  Generator.yieldValues decoder.pendingPostTool
  return { decoder with pendingPostTool := [] }

def observeChoice (decoder : ChatDecoder) (choice : WireJsonObject) : Decoding ChatDecoder := do
  let choiceIndex ← singleMember invalidStream choice (js "index")
  demand invalidStream (choiceIndex = none ∨ choiceIndex = some (.number (js "0")))
  let delta ← objectMember invalidStream choice (js "delta")
  let decoder ← (match delta with
    | some delta => decoder.observeDelta delta
    | none => pure decoder)
  let finalMessage ← objectMember invalidStream choice (js "message")
  let decoder ← (match finalMessage with
    | some message => decoder.observeFinalMessage message
    | none => pure decoder)
  let finish ← singleMember invalidStream choice (js "finish_reason")
  match finish with
  | none => return decoder
  | some .null => return decoder
  | some finish => decoder.observeFinish finish

def observeChunk (decoder : ChatDecoder) (payload : WireJsonObject) : Decoding ChatDecoder := do
  let usage ← nullableObjectMember invalidStream payload (js "usage")
  let decoder ← (match usage with
    | none => pure decoder
    | some usage => do
      let counters ← chatUsage usage
      let observed := mergeChatCompletionsUsageCounters decoder.observedUsage counters
      report (.usage (chatCompletionsUsageFromCounters observed))
      return { decoder with observedUsage := observed })
  let choices ← arrayMember invalidStream payload (js "choices")
  match choices.getD [] with
  | [] => return decoder
  | [.object choice] => decoder.observeChoice choice
  | _ => Generator.throw invalidStream

/-! ## The end of the stream -/

/-- The tool calls a completed stream closes. -/
def finishTools (decoder : ChatDecoder) : Decoding Unit :=
  decoder.tools.entries.forM fun (index, tool) => do
    demand invalidStream (tool.started = true)
    if tool.done then return ()
    else report (.toolDone (toolKey index) none (some true))

/-- The finish reason the terminal event reports. -/
def terminalFinish (decoder : ChatDecoder) (finish : FinishReason) : FinishReason :=
  if decoder.chatRefusal ≠ [] ∧ finish = .stop then .refusal else finish

def terminalEvent (finish : FinishReason) : TerminalEvent :=
  ⟨if finish = .length ∨ finish = .contentFilter ∨ finish = .refusal then .incomplete
    else .completed, finish⟩

/-- The frame that ends the stream. -/
def observeDone (decoder : ChatDecoder) : Decoding Unit :=
  match decoder.pendingFinish with
  | none => Generator.throw invalidStream
  | some finish => do
    let decoder ← (if finish.truncates then decoder.startIdentifiedTools else pure decoder)
    let decoder ← decoder.closeReasoning (if finish.truncates then .incomplete else .completed)
    if finish.truncates then pure () else decoder.finishTools
    Generator.yieldValues decoder.pendingPostTool
    report (.terminal (terminalEvent (decoder.terminalFinish finish)))

end ChatDecoder

/-- `decodeChatStream`, after some frames. -/
def decodeChatFrames : ChatDecoder → List ChatFrame → Decoding Unit
  | _, [] => Generator.throw invalidTruncated
  | _, .error :: _ => Generator.throw upstreamStreamEventFailure
  | _, .failure error :: _ => Generator.throw error
  | decoder, .done :: _ => decoder.observeDone
  | decoder, .chunk payload :: frames => do
    let decoder ← decoder.observeChunk payload
    decodeChatFrames decoder frames

def decodeChatStream (accumulatorBytes : Nat) (frames : List ChatFrame) : Decoding Unit :=
  decodeChatFrames (.new accumulatorBytes) frames

end GhcGateway.Conversion
