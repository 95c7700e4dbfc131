/-
# What the converters talk about

The semantic items, events and states that the stream decoders produce and the
ledger and the emitters consume, whatever the two protocols.

Items are generic in their key: the items of a stream have one, which the ledger
gave them, and those of a buffered response have none.
-/

import GhcGateway.Conversion.StreamKeys
import GhcGateway.Gateway.Failure
import GhcGateway.Serialization.WireJson

namespace GhcGateway.Conversion

inductive InferenceProtocol
  | chat
  | messages
  | responses
  deriving DecidableEq

/-- `InferenceProtocol` as it is spelled. -/
def InferenceProtocol.text : InferenceProtocol → String
  | .chat => "chat"
  | .messages => "messages"
  | .responses => "responses"

/-- What a conversion can throw: a `GatewayFailureError`, an `SseDecodeError`, an
error of the JSON writer, one of the carrier store, or a plain `Error` for a key
that cannot be made. -/
inductive ConversionError
  | gateway (failure : GatewayFailure)
  | sseDecode
  | wireJson (error : WireJsonError)
  | carrierUnavailable
  | carrierCapacity
  | reasoningKey
  deriving DecidableEq

abbrev Fallible := Except ConversionError

/-- An error of the JSON writer where the source lets it through. -/
def Fallible.ofWireJson {α : Type} : Except WireJsonError α → Fallible α
  | .ok value => .ok value
  | .error error => .error (.wireJson error)

/-- `invalid()` of the ledger and the emitters. -/
def invalid : ConversionError :=
  .gateway ⟨.invalidUpstreamResponse, some .converter, some .stream⟩

/-- `invalid()` unless a condition holds. -/
def require (condition : Prop) [Decidable condition] : Fallible Unit :=
  if condition then .ok () else .error invalid

/-- The value, or `invalid()`. -/
def required {α : Type} : Option α → Fallible α
  | some value => .ok value
  | none => .error invalid

inductive ResponseStatus
  | completed
  | incomplete
  deriving DecidableEq

inductive ItemStatus
  | completed
  | incomplete
  | inProgress
  deriving DecidableEq

def ResponseStatus.item : ResponseStatus → ItemStatus
  | .completed => .completed
  | .incomplete => .incomplete

inductive FinishReason
  | stop
  | toolCalls
  | length
  | contentFilter
  | refusal
  deriving DecidableEq

structure SemanticUsage where
  inputTokens : Nat
  outputTokens : Nat
  cacheReadTokens : Nat
  cacheWriteTokens : Nat
  reasoningTokens : Nat
  reportedReasoningTokens : Option Nat
  deriving DecidableEq

def zeroUsage : SemanticUsage := ⟨0, 0, 0, 0, 0, none⟩

inductive MessagesReasoningState
  | thinking (thinking signature : JsString)
  | redactedThinking (data : JsString)
  deriving DecidableEq

inductive OpaqueReasoningState
  | responsesItem (item : WireJsonObject)
  | messagesBlock (block : WireJsonObject)
  | chatState (state : WireJsonObject)
  deriving DecidableEq

/-- The value of the state, whatever its kind. -/
def OpaqueReasoningState.value : OpaqueReasoningState → WireJsonObject
  | .responsesItem item => item
  | .messagesBlock block => block
  | .chatState state => state

structure SemanticReasoningPart (κ : Type) where
  key : κ
  presentation : Presentation
  index : Nat
  text : JsString
  deriving DecidableEq

structure SemanticReasoningItem (κ : Type) where
  key : κ
  itemId : Option JsString
  parts : List (SemanticReasoningPart κ)
  status : Option ItemStatus
  hasOpaqueState : Bool
  messagesState : Option MessagesReasoningState
  opaqueState : Option OpaqueReasoningState
  deriving DecidableEq

/-- `part.text.length > 0` for some part. -/
def SemanticReasoningItem.visible {κ : Type} (item : SemanticReasoningItem κ) : Bool :=
  item.parts.any fun part => part.text ≠ []

/-- `SemanticToolCallItem`, as the converters build it. -/
structure SemanticToolCallItem (κ : Type) where
  key : κ
  itemId : Option JsString
  callId : JsString
  name : JsString
  argumentsJson : JsString
  deriving DecidableEq

/-- `SemanticText | SemanticRefusal`. -/
structure SemanticContent where
  kind : ContentKind
  text : JsString
  deriving DecidableEq

/-- `SemanticResponseItem`: a message with the keys of its content parts, a
reasoning item or a tool call. -/
inductive SemanticResponseItem (κ : Type)
  | message (key : κ) (contentKeys : List κ) (content : List SemanticContent)
  | reasoning (item : SemanticReasoningItem κ)
  | toolCall (item : SemanticToolCallItem κ)
  deriving DecidableEq

def SemanticResponseItem.isToolCall {κ : Type} : SemanticResponseItem κ → Bool
  | .toolCall _ => true
  | _ => false

/-- `SemanticStreamEvent["kind"] === "terminal"`. -/
structure TerminalEvent where
  status : ResponseStatus
  finishReason : FinishReason
  deriving DecidableEq

/-- The part of a reasoning item that an event is about. -/
structure ReasoningPartAddress where
  key : StreamKey
  partKey : StreamKey
  itemId : Option JsString
  presentation : Presentation
  partIndex : Nat
  deriving DecidableEq

inductive SemanticStreamEvent
  | semanticProgress
  | reasoningStart (key : StreamKey) (itemId : Option JsString)
      (messagesState : Option MessagesReasoningState) (opaqueState : Option OpaqueReasoningState)
  | reasoningDelta (address : ReasoningPartAddress) (delta : JsString)
  | reasoningSnapshot (address : ReasoningPartAddress) (text : JsString)
  | reasoningDone (key : StreamKey) (status : ItemStatus)
  | messageStart (key : StreamKey)
  | contentDelta (kind : ContentKind) (key : StreamKey) (orderKey : Option StreamKey)
      (delta : JsString)
  | contentSnapshot (kind : ContentKind) (key : StreamKey) (orderKey : Option StreamKey)
      (text : JsString)
  | contentDone (key : StreamKey) (orderKey : StreamKey) (contentIndex : Nat)
  | itemDone (outputIndex : Int) (itemType : JsString)
  | toolStart (key : StreamKey) (itemId : Option JsString) (callId name : JsString)
  | toolArgumentsDelta (key : StreamKey) (delta : JsString)
  | toolDone (key : StreamKey) (argumentsJson : Option JsString) (completed : Option Bool)
  | usage (usage : SemanticUsage)
  | terminal (terminal : TerminalEvent)
  deriving DecidableEq

end GhcGateway.Conversion
