/-
# A Messages request

`encodeMessagesRequest` moves the instructions of a request to the system prompt, replaces
images that the model cannot see, groups the blocks of the items by role, puts a user message
with some content first, and marks cache breakpoints. What stands beside the messages in the
body is computed from other parts of the request and is a parameter here.

The messages are listed the last one first while they are written.
-/

import GhcGateway.Requests.CacheBreakpoints
import GhcGateway.Serialization.WireJson

namespace GhcGateway.Requests

open Conversion

inductive ContractError
  | invalidRequest (ruleId : String)
  | unsupportedSemantics (ruleId : String)
  deriving DecidableEq

/-! ## Projection -/

/-- A message whose content belongs to the instructions. -/
def SemanticRequestItem.isInstruction : SemanticRequestItem → Bool
  | .message .system _ => true
  | .message .developer _ => true
  | _ => false

def SemanticRequestItem.messageContent : SemanticRequestItem → List SemanticContent
  | .message _ content => content
  | _ => []

/-- `collectTargetInstructions`: the request with its instructions collected, and the
degradations that adds. -/
def collectTargetInstructions (request : SemanticRequest) (omission : ConversionDegradationRule) :
    SemanticRequest × List ConversionDegradationRule :=
  let collected := request.instructions ++
    (request.items.filter SemanticRequestItem.isInstruction).flatMap
      SemanticRequestItem.messageContent
  let chunks := (collected.filterMap SemanticContent.text?).filter fun text => text.trim ≠ []
  ({ request with
      instructions :=
        if chunks = [] then [] else [.text (List.intercalate (js "\n\n") chunks)]
      items := request.items.filter fun item => !item.isInstruction },
    if collected.any SemanticContent.isImage then [omission] else [])

def unsupportedImageReplacement : JsString := js "[Unsupported Image]"

/-- `replaceContent` of `applyUnsupportedImageFallback`. -/
def replaceContent (content : List SemanticContent) (preserveImages : Bool) :
    List SemanticContent :=
  content.map fun part =>
    if part.isImage && !preserveImages then .text unsupportedImageReplacement else part

def replaceItem (preserveAssistantImages : Bool) : SemanticRequestItem → SemanticRequestItem
  | .message role content =>
    .message role (replaceContent content (preserveAssistantImages && role = .assistant))
  | .toolResult result => .toolResult { result with content := replaceContent result.content false }
  | item => item

def applyUnsupportedImageFallback (request : SemanticRequest) (supportsImages : Bool)
    (preserveAssistantImages : Bool) : SemanticRequest :=
  if supportsImages then request
  else
    let instructions := replaceContent request.instructions false
    let items := request.items.map (replaceItem preserveAssistantImages)
    if instructions = request.instructions ∧ items = request.items then request
    else {
      instructions := instructions
      items := items
      degradations := request.degradations ++ [.requestOptionOmitted] }

/-! ## Content -/

def isBase64Unit (unit : UInt16) : Bool :=
  (0x41 ≤ unit && unit ≤ 0x5A) || (0x61 ≤ unit && unit ≤ 0x7A) ||
    (0x30 ≤ unit && unit ≤ 0x39) || unit = 0x2B || unit = 0x2F

def dataOf (url : JsString) (mediaType : String) : Option (JsString × JsString) :=
  let scheme := js ("data:" ++ mediaType ++ ";base64,")
  let data := url.drop scheme.length
  if url.take scheme.length = scheme ∧ data.takeWhile isBase64Unit ≠ [] ∧
      data.dropWhile isBase64Unit ∈ [[], js "=", js "=="] then some (js mediaType, data)
  else none

def parseDataUrl (url : JsString) : Option (JsString × JsString) :=
  ["image/png", "image/jpeg", "image/gif", "image/webp"].findSome? (dataOf url)

def messagesText (text : JsString) : WireJsonObject :=
  wireObject [("type", some (.string (js "text"))), ("text", some (.string text))]

def messagesImage (source : WireJsonObject) : WireJsonObject :=
  wireObject [("type", some (.string (js "image"))), ("source", some (.object source))]

def encodeMessagesContent (part : SemanticContent) : WireJsonObject :=
  match part with
  | .text text => messagesText text
  | .refusal text => messagesText text
  | .image url _ =>
    match parseDataUrl url with
    | some (mediaType, data) =>
      messagesImage (wireObject [
        ("type", some (.string (js "base64"))),
        ("media_type", some (.string mediaType)),
        ("data", some (.string data))])
    | none =>
      messagesImage (wireObject [("type", some (.string (js "url"))), ("url", some (.string url))])

def messagesBlocks (content : List SemanticContent) : List WireJson :=
  content.map fun part => .object (encodeMessagesContent part)

def parseArgumentsObject (value : JsString) (ruleId : String) :
    Except ContractError WireJsonObject :=
  match parseWireJson (encodeUtf8 value) ⟨max (encodeUtf8 value).length 1, 32⟩ with
  | .ok (.object members) => .ok members
  | _ => .error (.invalidRequest ruleId)

/-! ## Messages -/

def pushMessagesRole (role : String) (blocks : List WireJson) (output : List WireJsonObject) :
    List WireJsonObject :=
  let fresh := wireObject [("role", some (.string (js role))), ("content", some (.array blocks))]
  match output with
  | [] => [fresh]
  | previous :: earlier =>
    if hasRole previous role then
      match oneMember previous "content" with
      | some (.array content) =>
        assignFirst previous "content" (.array (content ++ blocks)) :: earlier
      | _ => fresh :: previous :: earlier
    else fresh :: previous :: earlier

def thinkingBlock (text : JsString) : WireJsonObject :=
  wireObject [("type", some (.string (js "thinking"))), ("thinking", some (.string text))]

def toolUseBlock (call : ToolCallItem) (input : WireJsonObject) : WireJsonObject :=
  wireObject [
    ("type", some (.string (js "tool_use"))),
    ("id", some (.string call.callId)),
    ("name", some (.string call.name)),
    ("input", some (.object input))]

def toolResultBlock (result : ToolResultItem) : WireJsonObject :=
  wireObject [
    ("type", some (.string (js "tool_result"))),
    ("tool_use_id", some (.string result.callId)),
    ("content", some (.array (messagesBlocks result.content))),
    ("is_error", if result.isError then some (.bool true) else none)]

/-- One item of `encodeMessagesItems`. -/
def encodeMessagesItem (output : List WireJsonObject) :
    SemanticRequestItem → Except ContractError (List WireJsonObject)
  | .message .system _ => .ok output
  | .message .developer _ => .ok output
  | .message .user content => .ok (pushMessagesRole "user" (messagesBlocks content) output)
  | .message .assistant content =>
      .ok (pushMessagesRole "assistant" (messagesBlocks content) output)
  | .reasoning _ (some (.messagesBlock block)) =>
    .ok (pushMessagesRole "assistant" [.object block] output)
  | .reasoning parts _ =>
    .ok (if joinedText parts = [] then output
      else pushMessagesRole "assistant" [.object (thinkingBlock (joinedText parts))] output)
  | .toolCall call => do
    let input ← parseArgumentsObject call.argumentsJson "REQ-TARGET-M-TOOL-ARGS"
    return pushMessagesRole "assistant" [.object (toolUseBlock call input)] output
  | .toolResult result => .ok (pushMessagesRole "user" [.object (toolResultBlock result)] output)

def encodeMessagesItems (items : List SemanticRequestItem) :
    Except ContractError (List WireJsonObject) := do
  let output ← items.foldlM encodeMessagesItem []
  return output.reverse

/-- The rule that `encodeMessagesItems` adds for the state of another protocol. -/
def omittedMessagesState : SemanticRequestItem → Option ConversionDegradationRule
  | .reasoning _ (some (.responsesItem _)) => some .reasoningStateOmitted
  | .reasoning _ (some (.chatState _)) => some .reasoningStateOmitted
  | _ => none

def hasSubstantiveMessagesUserContent : Option WireJson → Bool
  | some (.string text) => text.trim ≠ []
  | some (.array items) => items.any fun item =>
    match item with
    | .object block =>
      if oneMember block "type" = some (.string (js "text")) then
        match oneMember block "text" with
        | some (.string text) => text.trim ≠ []
        | _ => false
      else oneMember block "type" = some (.string (js "image"))
    | _ => false
  | _ => false

def hasSubstantiveMessagesTurn (message : WireJsonObject) : Bool :=
  if hasRole message "user" then hasSubstantiveMessagesUserContent (oneMember message "content")
  else if hasRole message "assistant" then
    match oneMember message "content" with
    | some (.array items) => items.any fun item =>
      match item with
      | .object block =>
        if oneMember block "type" = some (.string (js "text")) then
          match oneMember block "text" with
          | some (.string text) => text.trim ≠ []
          | _ => false
        else if oneMember block "type" = some (.string (js "thinking")) then
          match oneMember block "thinking" with
          | some (.string text) => text.trim ≠ []
          | _ => false
        else
          oneMember block "type" = some (.string (js "redacted_thinking")) ||
            oneMember block "type" = some (.string (js "tool_use"))
      | _ => false
    | _ => false
  else false

def hasSubstantiveLeadingMessagesUser (output : List WireJsonObject) : Bool :=
  match output with
  | [] => false
  | first :: _ =>
    hasRole first "user" && hasSubstantiveMessagesUserContent (oneMember first "content")

def syntheticMessagesLeadingUser : WireJsonObject :=
  wireObject [
    ("role", some (.string (js "user"))),
    ("content", some (.array [.object (messagesText (js "(continuing the conversation)"))]))]

def withLeadingUser (messages : List WireJsonObject) : List WireJsonObject × Bool :=
  if ¬ messages.any hasSubstantiveMessagesTurn ∨ ¬ hasSubstantiveLeadingMessagesUser messages then
    match messages with
    | [] => ([syntheticMessagesLeadingUser], true)
    | first :: others =>
      if hasRole first "user" then (syntheticMessagesLeadingUser :: others, true)
      else (syntheticMessagesLeadingUser :: first :: others, true)
  else (messages, false)

/-! ## The request -/

def encodeMessagesSystem (content : List SemanticContent) : Option WireJson :=
  let blocks := (content.filterMap SemanticContent.text?).map fun text =>
    WireJson.object (messagesText text)
  if blocks = [] then none else some (.array blocks)

/-- The members of the body that do not come from the items, and the degradations of
computing them. -/
structure MessagesOptions where
  model : WireJson
  maxTokens : WireJson
  temperature : Option WireJson
  topP : Option WireJson
  stopSequences : Option WireJson
  stream : Option WireJson
  tools : Option WireJson
  toolChoice : Option WireJson
  outputConfig : Option WireJson
  metadata : Option WireJson
  degradations : List ConversionDegradationRule

/-- `EncodedConversionRequest`, as far as the items decide it. -/
structure EncodedMessagesRequest where
  body : WireJsonObject
  hasVisionInput : Bool
  agentInitiated : Bool
  degradations : List ConversionDegradationRule

/-- The content of a message or of a tool result. -/
def SemanticRequestItem.visibleContent : SemanticRequestItem → List SemanticContent
  | .message _ content => content
  | .toolResult result => result.content
  | _ => []

/-- `encodeMessagesRequest`, with what computes the other members of the body. -/
def encodeMessagesRequest (options : SemanticRequest → Except ContractError MessagesOptions)
    (supportsImages : Bool) (request : SemanticRequest) :
    Except ContractError EncodedMessagesRequest := do
  let (projectedRequest, projectionDegradations) :=
    collectTargetInstructions request .messagesExtensionsOmitted
  let targetRequest := applyUnsupportedImageFallback projectedRequest supportsImages false
  let other ← options targetRequest
  let messages ← encodeMessagesItems targetRequest.items
  let (messages, synthesized) := withLeadingUser messages
  let body := withMessagesCacheBreakpoints (wireObject [
    ("model", some other.model),
    ("system", encodeMessagesSystem targetRequest.instructions),
    ("messages", some (.array (messages.map .object))),
    ("max_tokens", some other.maxTokens),
    ("temperature", other.temperature),
    ("top_p", other.topP),
    ("stop_sequences", other.stopSequences),
    ("stream", other.stream),
    ("tools", other.tools),
    ("tool_choice", other.toolChoice),
    ("output_config", other.outputConfig),
    ("metadata", other.metadata)])
  return {
    body := body
    hasVisionInput := targetRequest.instructions.any SemanticContent.isImage ||
      targetRequest.items.any fun item => item.visibleContent.any SemanticContent.isImage
    agentInitiated :=
      match targetRequest.items.head? with
      | some (.message .assistant _) => true
      | _ => false
    degradations := (targetRequest.degradations ++ (projectionDegradations ++ other.degradations ++
      targetRequest.items.filterMap omittedMessagesState ++
        if synthesized then [ConversionDegradationRule.messagesLeadingUserSynthesized] else
          [])).eraseDups }

end GhcGateway.Requests
