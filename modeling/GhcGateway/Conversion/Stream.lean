/-
# Converting a stream

`convertProtocolStream` drives a stream decoder, the ledger and the emitter of
the target protocol. Every event is first recorded in the ledger and then handed
to the emitter; the emitter is not started before an event that carries output.

The work done for one event is measured, and a measured piece of work hands on
what it emitted only when it has finished. So a run that fails has emitted what
the finished pieces emitted, and no more.

An emitter is a record of functions on its state, as in the source it is an
interface. The state keeps everything emitted so far.
-/

import GhcGateway.Conversion.Ledger
import GhcGateway.Conversion.ToolRestoration
import GhcGateway.Library.Generator

namespace GhcGateway.Conversion

open Library

inductive ConversionDegradationRule
  | cacheControlOmitted
  | continuationHistoryOmitted
  | reasoningBudgetCoarsened
  | reasoningPresentationOmitted
  | reasoningStateOmitted
  | samplingTopKOmitted
  | messagesExtensionsOmitted
  | chatExtensionsOmitted
  | responsesExtensionsOmitted
  | messagesLeadingUserSynthesized
  | requestOptionOmitted
  | toolsHistoryOmitted
  | toolsParallelControlOmitted
  deriving DecidableEq

/-- `ConversionCheckpointIntent["state"]`. -/
inductive CheckpointState
  | routeOnly
  | partly
  | complete

structure ConversionCheckpointIntent where
  responseId : JsString
  output : List WireJsonObject
  state : CheckpointState
  carrierTokens : List JsString

/-- `ConvertedStreamEmission`, with the event a wire emission writes instead of
its bytes. -/
inductive Emission (ω : Type)
  | wire (event : ω)
  | checkpoint (intent : ConversionCheckpointIntent)
  | firstSemantic
  | usage (usage : SemanticUsage)
  | terminal (status : ResponseStatus)
  | degradation (rule : ConversionDegradationRule)

def Emission.wire? {ω : Type} : Emission ω → Option ω
  | .wire event => some event
  | _ => none

inductive SemanticOutputFormat
  | jsonObject
  | jsonSchema (name : JsString) (description : Option JsString) (schema : WireJsonObject)
      (strict : Option Bool)

/-! ## Reasoning carriers -/

structure CarrierInput where
  opaqueState : OpaqueReasoningState
  responseId : Option JsString
  projection : JsString

/-- `ReasoningCarrierConversionContext`: the store with the protocol its binding
writes to. Creating a carrier returns its token and the store after it. -/
structure CarrierContext (κ : Type) where
  wireProtocol : InferenceProtocol
  responseId : Option JsString
  create : κ → CarrierInput → Fallible (JsString × κ)

/-- `StreamConversionContext`. The decoded events are an input of their own, so
the event limit is not part of it. -/
structure StreamConversionContext (κ : Type) where
  source : InferenceProtocol
  model : JsString
  accumulatorBytes : Nat
  createUuid : Nat → JsString
  nowUnixSeconds : Nat
  previousResponseId : Option JsString
  outputFormat : Option SemanticOutputFormat
  degradations : List ConversionDegradationRule
  responseBindings : Option (List ToolSourceBinding)
  carrier : Option (CarrierContext κ)

/-- What every emitter keeps: the carrier store, the number of identifiers drawn,
the carriers created and the emissions so far. -/
structure EmitterBase (κ ω : Type) where
  store : κ
  uuids : Nat
  created : List (CarrierInput × JsString)
  emitted : List (Emission ω)

namespace EmitterBase

variable {κ ω : Type}

/-- Before the first emission. -/
def new (store : κ) : EmitterBase κ ω := ⟨store, 0, [], []⟩

/-- `yield`. -/
def emit (base : EmitterBase κ ω) (emission : Emission ω) : EmitterBase κ ω :=
  { base with emitted := base.emitted ++ [emission] }

def createStreamCarrier (context : StreamConversionContext κ) (base : EmitterBase κ ω)
    (item : SemanticReasoningItem StreamKey) (wireProtocol : InferenceProtocol)
    (responseId : Option JsString) : Fallible (EmitterBase κ ω × JsString) := do
  let carrier ← required context.carrier
  require (carrier.wireProtocol = wireProtocol)
  let opaqueState ← required item.opaqueState
  let input : CarrierInput :=
    ⟨opaqueState, responseId.or carrier.responseId, (item.parts.map fun part => part.text).flatten⟩
  let (token, store) ← carrier.create base.store input
  return ({ base with store := store, created := base.created ++ [(input, token)] }, token)

end EmitterBase

/-! ## The emitter interface -/

/-- `StreamEmitter`, over the state of an emitter and the wire events it writes. -/
structure StreamEmitter (σ ω : Type) where
  emitted : σ → List (Emission ω)
  emit : σ → Emission ω → σ
  start : σ → Fallible σ
  activateReserved : σ → Fallible σ
  messageStart : σ → StreamKey → Fallible σ
  reserveMessage : σ → StreamKey → ContentKind → Fallible σ
  contentDone : σ → StreamKey → Nat → Fallible σ
  itemDone : σ → Int → Fallible σ
  reasoningDelta : σ → ReasoningPartAddress → JsString → Fallible σ
  reasoningDone : σ → SemanticReasoningItem StreamKey → Fallible σ
  contentDelta : σ → ContentKind → StreamKey → JsString → Option StreamKey → Fallible σ
  toolStart : σ → StreamKey → JsString → JsString → Option JsString → Fallible σ
  toolArgumentsDelta : σ → StreamKey → JsString → Fallible σ
  toolDone : σ → StreamKey → JsString → Fallible σ
  finish : σ → TerminalEvent → SemanticUsage → List (SemanticResponseItem StreamKey) → Fallible σ

def startsSemanticOutput : SemanticStreamEvent → Bool
  | .semanticProgress => true
  | .toolStart .. => true
  | .toolDone .. => true
  | .contentDelta _ _ _ delta => delta ≠ []
  | .toolArgumentsDelta _ delta => delta ≠ []
  | .reasoningDelta _ delta => delta ≠ []
  | .reasoningSnapshot _ text => text ≠ []
  | .contentSnapshot _ _ _ text => text ≠ []
  | .terminal _ => true
  | _ => false

/-- `reconcileSnapshot`: what the snapshot adds to the current text. -/
def reconcileSnapshot (current snapshot : JsString) : Fallible JsString := do
  require (current <+: snapshot)
  return snapshot.drop current.length

/-- The state of a conversion between two events. -/
structure ConversionState (σ : Type) where
  ledger : SemanticItemLedger
  emitter : σ
  usage : SemanticUsage
  started : Bool
  terminal : Bool

/-- A failed run: what it had emitted and what it threw. -/
structure Interrupted (ω : Type) where
  emitted : List (Emission ω)
  error : ConversionError

section Convert

variable {σ ω κ : Type} (emitter : StreamEmitter σ ω) (context : StreamConversionContext κ)

/-- `measuredEvent` and `measuredWork`: a piece of work that fails hands on
nothing of what it emitted. -/
def measured (state : ConversionState σ) (work : Fallible (ConversionState σ)) :
    Except (Interrupted ω) (ConversionState σ) :=
  match work with
  | .ok next => .ok next
  | .error error => .error ⟨emitter.emitted state.emitter, error⟩

/-- The first event that carries output starts the emitter. -/
def startOutput (state : ConversionState σ) (event : SemanticStreamEvent) :
    Except (Interrupted ω) (ConversionState σ) :=
  if !state.started && startsSemanticOutput event then do
    let state := { state with
      started := true
      emitter := emitter.emit state.emitter .firstSemantic }
    let state ← measured emitter state do
      let next ← emitter.start state.emitter
      return { state with emitter := next }
    measured emitter state do
      let next ← emitter.activateReserved state.emitter
      return { state with emitter := next }
  else pure state

/-- `text_delta` and `refusal_delta`. -/
def handleContentDelta (state : ConversionState σ) (kind : ContentKind) (key : StreamKey)
    (orderKey : Option StreamKey) (delta : JsString) : Fallible (ConversionState σ) := do
  let ledger ← state.ledger.appendContent kind key delta orderKey
  let next ← (if state.started then emitter.contentDelta state.emitter kind key delta orderKey
    else emitter.reserveMessage state.emitter (orderKey.getD key) kind)
  return { state with ledger := ledger, emitter := next }

/-- `text_done` and `refusal_done`. -/
def handleContentSnapshot (state : ConversionState σ) (kind : ContentKind) (key : StreamKey)
    (orderKey : Option StreamKey) (text : JsString) : Fallible (ConversionState σ) := do
  let (ledger, first) ← state.ledger.observeContent kind key orderKey
  let suffix ← reconcileSnapshot (ledger.contentValue kind key) text
  if suffix ≠ [] then do
    let ledger ← ledger.appendContent kind key suffix orderKey
    let next ← (if state.started then
        emitter.contentDelta state.emitter kind key suffix orderKey
      else pure state.emitter)
    return { state with ledger := ledger, emitter := next }
  else if first then do
    let next ← (if state.started then emitter.contentDelta state.emitter kind key [] orderKey
      else emitter.reserveMessage state.emitter (orderKey.getD key) kind)
    return { state with ledger := ledger, emitter := next }
  else return { state with ledger := ledger }

def handleReasoningDelta (state : ConversionState σ) (address : ReasoningPartAddress)
    (delta : JsString) : Fallible (ConversionState σ) := do
  let ledger ← state.ledger.appendReasoning address delta
  let next ← (if state.started then emitter.reasoningDelta state.emitter address delta
    else pure state.emitter)
  return { state with ledger := ledger, emitter := next }

/-- `tool_done`. Only the Messages emitter closes a tool before the terminal
event. -/
def handleToolDone (target : InferenceProtocol) (state : ConversionState σ) (key : StreamKey)
    (argumentsJson : Option JsString) (completed : Option Bool) :
    Fallible (ConversionState σ) := do
  let tool ← state.ledger.tool key
  let policy ← resolveToolRestorationPolicy context.responseBindings tool.name
  let (ledger, suffix) ← state.ledger.finishTool key argumentsJson (completed = some true)
    (!policy.allowsLooseArguments)
  let next ← (if suffix ≠ [] then emitter.toolArgumentsDelta state.emitter key suffix
    else pure state.emitter)
  let tool ← ledger.tool key
  let next ← (if target = .messages ∧ completed ≠ some false then
      emitter.toolDone next key tool.argumentsJson
    else pure next)
  return { state with ledger := ledger, emitter := next }

/-- The tools of a terminal event: all of them are finished and reported, one
piece of work for each. -/
def finishTools (state : ConversionState σ) (terminal : TerminalEvent) :
    Except (Interrupted ω) (ConversionState σ) :=
  if terminal.status = .completed ∨ context.responseBindings.isSome then do
    let state ← measured emitter state do
      let ledger ← state.ledger.finishOpenTools fun name =>
        if terminal.status = .completed then do
          let policy ← resolveToolRestorationPolicy context.responseBindings name
          return !policy.allowsLooseArguments
        else return false
      return { state with ledger := ledger }
    state.ledger.toolKeys.foldlM (fun state key => measured emitter state do
      let tool ← state.ledger.tool key
      let next ← emitter.toolDone state.emitter key tool.argumentsJson
      return { state with emitter := next }) state
  else pure state

/-- The reasoning items of a terminal event that are still open. -/
def finishReasoningItems (state : ConversionState σ) (terminal : TerminalEvent) :
    Except (Interrupted ω) (ConversionState σ) :=
  match state.ledger.finishOpenReasoning terminal.status with
  | .error error => .error ⟨emitter.emitted state.emitter, error⟩
  | .ok (ledger, items) =>
    items.foldlM (fun state item => measured emitter state do
      let next ← emitter.reasoningDone state.emitter item
      return { state with emitter := next }) { state with ledger := ledger }

def handleTerminal (state : ConversionState σ) (terminal : TerminalEvent) :
    Except (Interrupted ω) (ConversionState σ) := do
  let state ← measured emitter state do
    require (¬ state.terminal)
    return { state with terminal := true }
  let state ← finishTools emitter context state terminal
  let state ← finishReasoningItems emitter state terminal
  let state ← measured emitter state do
    let (ledger, items) ← state.ledger.items terminal.status
    let next ← emitter.finish state.emitter terminal state.usage items
    return { state with ledger := ledger, emitter := next }
  return { state with emitter := emitter.emit state.emitter (.terminal terminal.status) }

/-- An event after the emitter has been started for it. -/
def handleStarted (target : InferenceProtocol) (state : ConversionState σ) :
    SemanticStreamEvent → Except (Interrupted ω) (ConversionState σ)
  | .reasoningStart key itemId messagesState opaqueState => measured emitter state do
    let ledger ← state.ledger.startReasoning key itemId messagesState opaqueState
    return { state with ledger := ledger }
  | .reasoningDelta address delta =>
    if delta = [] then pure state
    else measured emitter state (handleReasoningDelta emitter state address delta)
  | .reasoningSnapshot address text => measured emitter state do
    let suffix ← reconcileSnapshot (state.ledger.reasoningValue address.partKey) text
    if suffix = [] then return state
    else handleReasoningDelta emitter state address suffix
  | .reasoningDone key status => measured emitter state do
    let (ledger, item) ← state.ledger.finishReasoning key status
    let next ← emitter.reasoningDone state.emitter item
    return { state with ledger := ledger, emitter := next }
  | .contentDelta kind key orderKey delta =>
    measured emitter state (handleContentDelta emitter state kind key orderKey delta)
  | .contentSnapshot kind key orderKey text =>
    measured emitter state (handleContentSnapshot emitter state kind key orderKey text)
  | .contentDone key orderKey contentIndex => measured emitter state do
    let ledger ← state.ledger.finishContent key
    let next ← emitter.contentDone state.emitter orderKey contentIndex
    return { state with ledger := ledger, emitter := next }
  | .itemDone outputIndex itemType => measured emitter state do
    let ledger ← (if itemType = js "message" then
        state.ledger.finishMessage (.responsesMessage outputIndex)
      else pure state.ledger)
    let next ← emitter.itemDone state.emitter outputIndex
    return { state with ledger := ledger, emitter := next }
  | .toolStart key itemId callId name => measured emitter state do
    let ledger ← state.ledger.startTool key itemId callId name
    let next ← emitter.toolStart state.emitter key callId name itemId
    return { state with ledger := ledger, emitter := next }
  | .toolArgumentsDelta key delta => measured emitter state do
    let ledger ← state.ledger.appendToolArguments key delta
    let next ← emitter.toolArgumentsDelta state.emitter key delta
    return { state with ledger := ledger, emitter := next }
  | .toolDone key argumentsJson completed =>
    measured emitter state (handleToolDone emitter context target state key argumentsJson completed)
  | .terminal terminal => handleTerminal emitter context state terminal
  | .semanticProgress => pure state
  | .messageStart _ => pure state
  | .usage _ => pure state

/-- One iteration of the loop of `convertProtocolStream`. Usage and the start of
a message come before the emitter is started. -/
def handleEvent (target : InferenceProtocol) (state : ConversionState σ)
    (event : SemanticStreamEvent) : Except (Interrupted ω) (ConversionState σ) :=
  match event with
  | .usage usage =>
    pure { state with usage := usage, emitter := emitter.emit state.emitter (.usage usage) }
  | .messageStart key => measured emitter state do
    let ledger ← state.ledger.startMessage key
    let next ← emitter.messageStart state.emitter key
    return { state with ledger := ledger, emitter := next }
  | event => do
    let state ← startOutput emitter state event
    handleStarted emitter context target state event

/-- The loop, which a terminal event ends. -/
def handleEvents (target : InferenceProtocol) :
    ConversionState σ → List SemanticStreamEvent → Except (Interrupted ω) (ConversionState σ)
  | state, [] => pure state
  | state, event :: events => do
    let state ← handleEvent emitter context target state event
    if state.terminal then pure state else handleEvents target state events

/-- `convertProtocolStream` on the events of a decoder: what it emits and how it
ends. The decoder is a generator, so its own failure counts only when the loop
has used up what it yielded before. -/
def convertEvents (target : InferenceProtocol) (initial : σ)
    (decoded : Generator SemanticStreamEvent ConversionError Unit) :
    Generator (Emission ω) ConversionError (ConversionState σ) :=
  let state : ConversionState σ :=
    { ledger := .new context.accumulatorBytes
      emitter := context.degradations.foldl
        (fun state rule => emitter.emit state (.degradation rule)) initial
      usage := zeroUsage
      started := false
      terminal := false }
  match handleEvents emitter context target state decoded.yielded with
  | .error interrupted => ⟨interrupted.emitted, .error interrupted.error⟩
  | .ok state =>
    if state.terminal then ⟨emitter.emitted state.emitter, .ok state⟩
    else
      match decoded.outcome with
      | .error error => ⟨emitter.emitted state.emitter, .error error⟩
      | .ok () => ⟨emitter.emitted state.emitter, .error invalid⟩

end Convert

end GhcGateway.Conversion
