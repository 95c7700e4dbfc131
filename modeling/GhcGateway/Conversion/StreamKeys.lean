/-
# Stream keys

The stream decoders name what they report by strings such as
`responses:3:0:text`, and the ledger and the emitters find it again by that
name. Here a key is what the decoder put into the string; `StreamKey.render` is
the string itself, whose bytes the ledger counts.

An index that a decoder reads from the upstream may be negative until it is
validated, and then renders with a sign, which is why indices are integers.
-/

import GhcGateway.Serialization.Text

namespace GhcGateway.Conversion

inductive ContentKind
  | text
  | refusal
  deriving DecidableEq

inductive Presentation
  | summary
  | content
  deriving DecidableEq

inductive StreamKey
  /-- `chat:message:${position}`: before the first tool call, or after it. -/
  | chatMessage (position : Nat)
  /-- `chat:${index}`. -/
  | chatTool (index : Nat)
  /-- `chat:reasoning:generic`. -/
  | chatReasoning
  /-- `chat:reasoning:generic:summary:0`. -/
  | chatReasoningPart
  /-- `chat:reasoning:block:${index}`. -/
  | chatThinkingBlock (index : Nat)
  /-- `messages:${index}:text` and `messages:${index}:refusal`. -/
  | messagesContent (index : Int) (kind : ContentKind)
  /-- `messages:${index}`. -/
  | messagesTool (index : Int)
  /-- `messages:${index}:reasoning`. -/
  | messagesReasoning (index : Int)
  /-- `messages:${index}:reasoning:summary:0`. -/
  | messagesReasoningPart (index : Int)
  /-- `responseToolKey`. -/
  | responsesTool (outputIndex : Int)
  /-- `responseMessageKey`. -/
  | responsesMessage (outputIndex : Int)
  /-- `responseReasoningKey`. -/
  | responsesReasoning (outputIndex : Int)
  /-- `responseMessagePartKey`. -/
  | responsesMessagePart (outputIndex contentIndex : Int) (kind : ContentKind)
  /-- `responseReasoningPartKey`, which refuses an item key without an output
  index. -/
  | responsesReasoningPart (outputIndex : Nat) (presentation : Presentation) (partIndex : Nat)
  deriving DecidableEq

/-- How a content kind is written in a key. -/
def ContentKind.render : ContentKind → String
  | .text => "text"
  | .refusal => "refusal"

/-- How a presentation is written in a key. -/
def Presentation.render : Presentation → String
  | .summary => "summary"
  | .content => "content"

namespace StreamKey

def render : StreamKey → JsString
  | chatMessage position => js "chat:message:" ++ js (toString position)
  | chatTool index => js "chat:" ++ js (toString index)
  | chatReasoning => js "chat:reasoning:generic"
  | chatReasoningPart => js "chat:reasoning:generic:summary:0"
  | chatThinkingBlock index => js "chat:reasoning:block:" ++ js (toString index)
  | messagesContent index kind =>
    js "messages:" ++ js (toString index) ++ js ":" ++ js kind.render
  | messagesTool index => js "messages:" ++ js (toString index)
  | messagesReasoning index => js "messages:" ++ js (toString index) ++ js ":reasoning"
  | messagesReasoningPart index =>
    js "messages:" ++ js (toString index) ++ js ":reasoning:summary:0"
  | responsesTool outputIndex => js "responses:" ++ js (toString outputIndex)
  | responsesMessage outputIndex =>
    js "responses:" ++ js (toString outputIndex) ++ js ":message"
  | responsesReasoning outputIndex =>
    js "responses:" ++ js (toString outputIndex) ++ js ":reasoning"
  | responsesMessagePart outputIndex contentIndex kind =>
    js "responses:" ++ js (toString outputIndex) ++ js ":" ++ js (toString contentIndex) ++
      js ":" ++ js kind.render
  | responsesReasoningPart outputIndex presentation partIndex =>
    js "responses:" ++ js (toString outputIndex) ++ js ":reasoning:" ++ js presentation.render ++
      js ":" ++ js (toString partIndex)

/-- A nonnegative index, the only kind `\d+` matches. -/
def natural? (index : Int) : Option Nat := if 0 ≤ index then some index.toNat else none

/-- `responseOutputIndex`: the item keys of a Responses stream. -/
def responseOutputIndex : StreamKey → Option Nat
  | responsesTool outputIndex => natural? outputIndex
  | responsesMessage outputIndex => natural? outputIndex
  | responsesReasoning outputIndex => natural? outputIndex
  | _ => none

/-- `responseMessagePartPosition`: the content keys of a Responses stream. -/
def responseMessagePartPosition : StreamKey → Option (Nat × Nat × ContentKind)
  | responsesMessagePart outputIndex contentIndex kind => do
    let outputIndex ← natural? outputIndex
    let contentIndex ← natural? contentIndex
    return (outputIndex, contentIndex, kind)
  | _ => none

end StreamKey

end GhcGateway.Conversion
