/-
# What a decoded request says

The items of a request, whatever protocol it came in. Of `SemanticRequest` there is what the
encoders of its messages read.
-/

import GhcGateway.Conversion.Stream

namespace GhcGateway.Requests

open Conversion

inductive ImageDetail
  | auto
  | low
  | high
  deriving DecidableEq

/-- `SemanticImage["detail"]` as it is spelled. -/
def ImageDetail.text : ImageDetail → String
  | .auto => "auto"
  | .low => "low"
  | .high => "high"

inductive SemanticContent
  | text (text : JsString)
  | image (url : JsString) (detail : Option ImageDetail)
  | refusal (text : JsString)
  deriving DecidableEq

def SemanticContent.isImage : SemanticContent → Bool
  | .image _ _ => true
  | _ => false

/-- `SemanticMessageItem["role"]`. -/
inductive MessageRole
  | system
  | developer
  | user
  | assistant
  deriving DecidableEq

/-- `SemanticMessageItem["role"]` as it is spelled. -/
def MessageRole.text : MessageRole → String
  | .system => "system"
  | .developer => "developer"
  | .user => "user"
  | .assistant => "assistant"

structure ReasoningPart where
  presentation : Presentation
  index : Nat
  text : JsString
  deriving DecidableEq

structure ToolCallItem where
  callId : JsString
  name : JsString
  argumentsJson : JsString
  deriving DecidableEq

structure ToolResultItem where
  callId : JsString
  content : List SemanticContent
  isError : Bool
  deriving DecidableEq

inductive SemanticRequestItem
  | message (role : MessageRole) (content : List SemanticContent)
  | reasoning (parts : List ReasoningPart) (opaqueState : Option OpaqueReasoningState)
  | toolCall (call : ToolCallItem)
  | toolResult (result : ToolResultItem)
  deriving DecidableEq

def SemanticRequestItem.isReasoning : SemanticRequestItem → Bool
  | .reasoning _ _ => true
  | _ => false

def SemanticRequestItem.isToolResult : SemanticRequestItem → Bool
  | .toolResult _ => true
  | _ => false

structure SemanticRequest where
  instructions : List SemanticContent
  items : List SemanticRequestItem
  degradations : List ConversionDegradationRule

/-- `item.parts.map((part) => part.text).join("")`. -/
def joinedText (parts : List ReasoningPart) : JsString := parts.flatMap ReasoningPart.text

/-- `part.text`, for a part that has one. -/
def SemanticContent.text? : SemanticContent → Option JsString
  | .text written => some written
  | .image _ _ => none
  | .refusal written => some written

def textContent (content : List SemanticContent) : Option JsString :=
  let text := (content.filterMap SemanticContent.text?).flatten
  if text = [] then none else some text

/-- `oneMember`: the first value of that name. -/
def oneMember (object : WireJsonObject) (key : String) : Option WireJson :=
  (memberValues object (js key)).head?

/-- `oneMember(message, "role") === role`. -/
def hasRole (message : WireJsonObject) (role : String) : Prop :=
  oneMember message "role" = some (.string (js role))

instance (message : WireJsonObject) (role : String) : Decidable (hasRole message role) :=
  inferInstanceAs (Decidable (_ = _))

def appendMember (object : WireJsonObject) (key : String) (value : WireJson) : WireJsonObject :=
  object ++ [(js key, value)]

/-- `object[key] = value` for the first member of that name. -/
def assignFirst (object : WireJsonObject) (key : String) (value : WireJson) : WireJsonObject :=
  match object with
  | [] => []
  | member :: members =>
    if member.1 = js key then (member.1, value) :: members
    else member :: assignFirst members key value

def appendObjectArrayMember (object : WireJsonObject) (key : String) (value : WireJsonObject) :
    WireJsonObject :=
  match oneMember object key with
  | some (.array items) => assignFirst object key (.array (items ++ [.object value]))
  | _ => appendMember object key (.array [.object value])

end GhcGateway.Requests
