/-
# Reasoning in Chat messages

The readers of the reasoning members of a Chat message or delta, as the response
decoders use them: nothing is tolerated, and every violation is the decoder's own
error.
-/

import GhcGateway.Conversion.Members

namespace GhcGateway.Conversion

inductive ChatThinkingBlock
  | thinking (thinking : JsString) (signature : Option JsString)
  | redactedThinking (data : JsString)
  deriving DecidableEq

structure ChatReasoning where
  text : JsString
  scalarText : JsString
  thinkingText : JsString
  hasOpaqueState : Bool
  thinkingBlocks : List ChatThinkingBlock

section ChatReasoning

variable (error : ConversionError)

/-- `consistentSubstantive`: the nonempty values have to agree. -/
def consistentSubstantive (values : List (Option JsString)) : Fallible JsString := do
  let substantive := values.filterMap fun value => value.filter fun text => text ≠ []
  let first := substantive.head?.getD []
  demand error (∀ value ∈ substantive, value = first)
  return first

/-- `compatiblePresentation`: one of the texts has to continue the other. -/
def compatiblePresentation (left right : JsString) : Fallible JsString :=
  if left = [] then .ok right
  else if right = [] then .ok left
  else if right <+: left then .ok left
  else if left <+: right then .ok right
  else .error error

def decodeReasoningValue : Option WireJson → Fallible (Option JsString)
  | none => .ok none
  | some .null => .ok none
  | some (.string text) => .ok (some text)
  | some (.object value) => do
    assertAllowedKeys error value ["content", "text", "summary"]
    let content ← nullableStringMember error value (js "content")
    let text ← nullableStringMember error value (js "text")
    let summary ← nullableStringMember error value (js "summary")
    let result ← consistentSubstantive error [content, text, summary]
    return some result
  | some _ => .error error

/-- `decodeReasoningDetails`, with the number of levels that may still follow. -/
def decodeReasoningDetails : Nat → Option WireJson → Fallible (Option JsString)
  | _, none => .ok none
  | _, some .null => .ok none
  | 0, some _ => .error error
  | _ + 1, some (.string text) => .ok (some text)
  | levels + 1, some (.array items) => do
    let texts ← items.mapM fun part => decodeReasoningDetails levels (some part)
    return some (texts.map fun text => text.getD []).flatten
  | levels + 1, some (.object value) => do
    assertAllowedKeys error value ["type", "text", "content", "summary", "parts"]
    let type ← singleMember error value (js "type")
    demand error (type = none ∨ (type.bind WireJson.string?).isSome)
    let text ← nullableStringMember error value (js "text")
    let content ← nullableStringMember error value (js "content")
    let summary ← nullableStringMember error value (js "summary")
    let direct ← consistentSubstantive error [text, content, summary]
    let nested ← arrayMember error value (js "parts")
    let texts ← (nested.getD []).mapM fun part => decodeReasoningDetails levels (some part)
    let result ← consistentSubstantive error
      [some direct, some (texts.map fun text => text.getD []).flatten]
    return some result
  | _ + 1, some _ => .error error

/-- A block of `decodeThinkingBlocks`. -/
def decodeThinkingBlock : WireJson → Fallible ChatThinkingBlock
  | .object block => do
    let type ← singleMember error block (js "type")
    if type = some (.string (js "thinking")) then do
      assertAllowedKeys error block ["type", "thinking", "signature"]
      let thinking ← singleMember error block (js "thinking")
      match thinking with
      | some (.string thinking) => do
        let signature ← nullableStringMember error block (js "signature")
        return .thinking thinking signature
      | _ => .error error
    else if type = some (.string (js "redacted_thinking")) then do
      assertAllowedKeys error block ["type", "data"]
      let data ← singleMember error block (js "data")
      match data with
      | some (.string data) => return .redactedThinking data
      | _ => .error error
    else .error error
  | _ => .error error

def decodeThinkingBlocks : Option WireJson → Fallible (List ChatThinkingBlock)
  | none => .ok []
  | some .null => .ok []
  | some (.array items) => items.mapM (decodeThinkingBlock error)
  | some _ => .error error

/-- The text of the thinking blocks, `visibleThinkingBlockText`. -/
def visibleThinkingBlockText (blocks : List ChatThinkingBlock) : JsString :=
  (blocks.map fun block =>
    match block with
    | .thinking thinking _ => thinking
    | .redactedThinking _ => []).flatten

def ChatThinkingBlock.isOpaque : ChatThinkingBlock → Bool
  | .thinking _ signature => signature.getD [] ≠ []
  | .redactedThinking data => data ≠ []

def decodeChatReasoning (object : WireJsonObject) : Fallible ChatReasoning := do
  let reasoningText ← nullableStringMember error object (js "reasoning_text")
  let reasoningContent ← nullableStringMember error object (js "reasoning_content")
  let reasoningMember ← singleMember error object (js "reasoning")
  let reasoning ← decodeReasoningValue error reasoningMember
  let detailsMember ← singleMember error object (js "reasoning_details")
  let reasoningDetails ← decodeReasoningDetails error 9 detailsMember
  let blocksMember ← singleMember error object (js "thinking_blocks")
  let thinkingBlocks ← decodeThinkingBlocks error blocksMember
  let thinkingText := visibleThinkingBlockText thinkingBlocks
  let scalarText ← consistentSubstantive error
    [reasoningText, reasoningContent, reasoning, reasoningDetails]
  let text ← compatiblePresentation error scalarText thinkingText
  return ⟨text, scalarText, thinkingText, thinkingBlocks.any ChatThinkingBlock.isOpaque,
    thinkingBlocks⟩

/-- `chatReasoningState`: the reasoning members of a message, if it has any. -/
def chatReasoningState (object : WireJsonObject) : Fallible (Option WireJsonObject) := do
  let keep := ["reasoning_text", "reasoning_content", "reasoning", "reasoning_details",
    "reasoning_opaque"]
  let members := object.filter fun member => member.1 ∈ keep.map js
  if members = [] then return none
  else do
    demand error (∀ member ∈ members, member.1 = js "reasoning_opaque" →
      (WireJson.string? member.2).isSome)
    return some members

end ChatReasoning

end GhcGateway.Conversion
