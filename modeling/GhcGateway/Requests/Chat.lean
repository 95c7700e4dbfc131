/-
# The messages of a Chat request

`encodeChatMessages` turns the items of a request into Chat messages. An assistant message is
grown: reasoning and tool calls are appended to the last one where that fits, and an opaque
state goes back to the last one that has calls.

Messages are listed the last one first while they are written, since the code looks at the
end of its output and changes only messages there.
-/

import GhcGateway.Requests.Types

namespace GhcGateway.Requests

open Conversion

/-! ## Parts -/

def toolResultErrorMarker : JsString := js "[ghc-gateway:tool-result-error]"

def toolResultMediaReplacement : JsString :=
  js "[ghc-gateway: tool result media moved to the following user message]"

def toolResultMediaReference (callId : JsString) : JsString :=
  js "[ghc-gateway: media output of tool call " ++ callId ++ js "]"

def toolResultText (text : JsString) (isError : Bool) : JsString :=
  if isError then toolResultErrorMarker ++ (if text = [] then [] else js "\n" ++ text) else text

def encodeChatImage (url : JsString) (detail : Option ImageDetail) : WireJsonObject :=
  wireObject [
    ("type", some (.string (js "image_url"))),
    ("image_url", some (.object (wireObject [
      ("url", some (.string url)),
      ("detail", detail.map fun detail => .string (js detail.text))])))]

def chatText (text : JsString) : WireJsonObject :=
  wireObject [("type", some (.string (js "text"))), ("text", some (.string text))]

def encodeChatContent (content : List SemanticContent) : WireJson :=
  match content with
  | [.text text] => .string text
  | content => .array (content.map fun part =>
    match part with
    | .text text => .object (chatText text)
    | .image url detail => .object (encodeChatImage url detail)
    | .refusal text => .object (chatText text))

def encodeChatToolCall (call : ToolCallItem) : WireJsonObject :=
  wireObject [
    ("id", some (.string call.callId)),
    ("type", some (.string (js "function"))),
    ("function", some (.object (wireObject [
      ("name", some (.string call.name)),
      ("arguments", some (.string call.argumentsJson))])))]

/-! ## Messages -/

def reasoningMessage (text : JsString) : WireJsonObject :=
  wireObject [
    ("role", some (.string (js "assistant"))),
    ("content", some .null),
    ("reasoning_content", some (.string text))]

/-- A reasoning item without opaque state. -/
def pushReasoningText (text : JsString) (output : List WireJsonObject) : List WireJsonObject :=
  match output with
  | [] => [reasoningMessage text]
  | previous :: earlier =>
    if ¬ hasRole previous "assistant" ∨ oneMember previous "tool_calls" ≠ none then
      reasoningMessage text :: previous :: earlier
    else appendMember previous "reasoning_content" (.string text) :: earlier

/-- How far back the last message with calls is, of the assistant messages at the end. -/
def lastWithCalls : List WireJsonObject → Option Nat
  | [] => none
  | candidate :: earlier =>
    if ¬ hasRole candidate "assistant" then none
    else if oneMember candidate "tool_calls" ≠ none then some 0
    else (lastWithCalls earlier).map (· + 1)

/-- A reasoning item with the state of a Chat message. -/
def pushChatState (state : WireJsonObject) (output : List WireJsonObject) : List WireJsonObject :=
  let index := (lastWithCalls output).getD 0
  match output[index]? with
  | none =>
    (wireObject [("role", some (.string (js "assistant"))), ("content", some .null)] ++ state) ::
      output
  | some last =>
    if ¬ hasRole last "assistant" then
      (wireObject [("role", some (.string (js "assistant"))), ("content", some .null)] ++ state) ::
        output
    else output.modify index (· ++ state)

def pushChatReasoning (parts : List ReasoningPart) (opaqueState : Option OpaqueReasoningState)
    (output : List WireJsonObject) : List WireJsonObject :=
  match opaqueState with
  | none => if joinedText parts = [] then output else pushReasoningText (joinedText parts) output
  | some (.chatState state) => pushChatState state output
  | some _ => if joinedText parts =
      [] then output else reasoningMessage (joinedText parts) :: output

def pushToolCall (call : ToolCallItem) (output : List WireJsonObject) : List WireJsonObject :=
  let fresh := wireObject [
    ("role", some (.string (js "assistant"))),
    ("content", some .null),
    ("tool_calls", some (.array [.object (encodeChatToolCall call)]))]
  match output with
  | [] => [fresh]
  | last :: earlier =>
    if hasRole last "assistant" then
      let called := appendObjectArrayMember last "tool_calls" (encodeChatToolCall call)
      (if oneMember called "content" = none then appendMember called "content" .null else called) ::
        earlier
    else fresh :: last :: earlier

def toolMessage (result : ToolResultItem) : WireJsonObject :=
  let text := (textContent result.content).getD []
  wireObject [
    ("role", some (.string (js "tool"))),
    ("tool_call_id", some (.string result.callId)),
    ("content", some (.string (
      if result.content.any SemanticContent.isImage then
        toolResultText text result.isError ++
          (if text = [] ∧ ¬ result.isError then [] else js "\n") ++ toolResultMediaReplacement
      else toolResultText text result.isError)))]

/-- What a result adds to `mediaContent`. -/
def mediaOf (result : ToolResultItem) : List WireJson :=
  let images := result.content.filterMap fun part =>
    match part with
    | .image url detail => some (.object (encodeChatImage url detail))
    | _ => none
  if images = [] then [] else .object (chatText (toolResultMediaReference result.callId)) :: images

/-- The messages of results that follow each other, with their media behind them. -/
def pushToolResults (results : List ToolResultItem) (output : List WireJsonObject) :
    List WireJsonObject :=
  let pushed := (results.map toolMessage).reverse ++ output
  let mediaContent := results.flatMap mediaOf
  if mediaContent = [] then pushed
  else
    wireObject [("role", some (.string (js "user"))), ("content", some (.array mediaContent))] ::
      pushed

/-- The loop of `encodeChatMessages`; `results` is the run of results that the loop is in. -/
def encodeChatItems : List SemanticRequestItem → List ToolResultItem → List WireJsonObject →
    List WireJsonObject
  | [], results, output => pushToolResults results output
  | .toolResult result :: items, results, output =>
    encodeChatItems items (results ++ [result]) output
  | .message role content :: items, results, output =>
    encodeChatItems items []
      (wireObject [
        ("role", some (.string (js role.text))),
        ("content", some (encodeChatContent content))] :: pushToolResults results output)
  | .reasoning parts opaqueState :: items, results, output =>
    encodeChatItems items [] (pushChatReasoning parts opaqueState (pushToolResults results output))
  | .toolCall call :: items, results, output =>
    encodeChatItems items [] (pushToolCall call (pushToolResults results output))

/-- The rule that a reasoning item of another protocol adds to the degradations. -/
def omittedState : SemanticRequestItem → Option ConversionDegradationRule
  | .reasoning _ (some (.responsesItem _)) => some .reasoningStateOmitted
  | .reasoning _ (some (.messagesBlock _)) => some .reasoningStateOmitted
  | _ => none

/-- `encodeChatMessages`: the messages, and the degradations with those it adds. -/
def encodeChatMessages (request : SemanticRequest)
    (degradations : List ConversionDegradationRule) :
    List WireJsonObject × List ConversionDegradationRule :=
  let instructions :=
    if request.instructions = [] then []
    else [wireObject [
      ("role", some (.string (js "system"))),
      ("content", some (.string ((textContent request.instructions).getD [])))]]
  ((encodeChatItems request.items [] instructions).reverse,
    (request.items.filterMap omittedState).foldl (fun rules rule => rules.insert rule) degradations)

end GhcGateway.Requests
