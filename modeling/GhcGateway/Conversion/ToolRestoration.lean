/-
# Restoring extended tools

A Responses request may declare tools that the other protocols do not have:
custom tools and tool search. They are sent upstream as functions, and the
policy here turns the calls of such a function back into what the client
declared. A tool without a binding is an ordinary function.
-/

import GhcGateway.Conversion.Types

namespace GhcGateway.Conversion

/-- `ResponsesToolSourceBinding["kind"]`. -/
inductive ToolSourceKind
  | function
  | namespace
  | custom
  | toolSearch
  deriving DecidableEq

structure ToolSourceBinding where
  kind : ToolSourceKind
  chatName : JsString
  sourceName : JsString
  sourceNamespace : Option JsString
  deriving DecidableEq

structure RestoredToolArguments where
  rawCustomInput : Option JsString
  toolSearchArguments : Option WireJsonObject
  degraded : Bool
  deriving DecidableEq

structure ToolRestorationPolicy where
  sourceKind : ToolSourceKind
  sourceName : JsString
  sourceNamespace : Option JsString
  fromExtendedRequest : Bool

def createToolRestorationPolicy (binding : Option ToolSourceBinding) (chatName : JsString)
    (fromExtendedRequest : Bool) : ToolRestorationPolicy :=
  match binding with
  | some binding =>
    ⟨binding.kind, binding.sourceName, binding.sourceNamespace, fromExtendedRequest⟩
  | none => ⟨.function, chatName, none, fromExtendedRequest⟩

/-- `resolveResponsesToolRestorationPolicy`: a name bound twice is invalid. -/
def resolveToolRestorationPolicy (bindings : Option (List ToolSourceBinding))
    (chatName : JsString) : Fallible ToolRestorationPolicy :=
  match (bindings.getD []).filter fun binding => binding.chatName = chatName with
  | [] => .ok (createToolRestorationPolicy none chatName bindings.isSome)
  | [binding] => .ok (createToolRestorationPolicy (some binding) chatName bindings.isSome)
  | _ => .error invalid

/-- The code units `trim` removes. -/
def isTrimmed (unit : UInt16) : Bool :=
  (0x09 ≤ unit && unit ≤ 0x0D) || unit = 0x20 || unit = 0xA0 || unit = 0x1680 ||
    (0x2000 ≤ unit && unit ≤ 0x200A) || unit = 0x2028 || unit = 0x2029 || unit = 0x202F ||
    unit = 0x205F || unit = 0x3000 || unit = 0xFEFF

/-- `parseUpstreamArguments`: an object without duplicate names, or nothing. -/
def parseUpstreamArguments (value : JsString) : Option WireJsonObject :=
  let bytes := encodeUtf8 value
  match parseWireJson bytes ⟨max 1 bytes.length, 32⟩ with
  | .ok (.object members) => if (members.map Prod.fst).Nodup then some members else none
  | _ => none

namespace ToolRestorationPolicy

def allowsLooseArguments (policy : ToolRestorationPolicy) : Bool :=
  policy.sourceKind = .custom || policy.sourceKind = .toolSearch

def restoreArguments (policy : ToolRestorationPolicy) (argumentsJson : JsString) :
    RestoredToolArguments :=
  match policy.sourceKind with
  | .custom =>
    if argumentsJson.all isTrimmed then ⟨some [], none, false⟩
    else
      match (parseUpstreamArguments argumentsJson).map (memberValues · (js "input")) with
      | some [.string input] => ⟨some input, none, false⟩
      | _ => ⟨some argumentsJson, none, true⟩
  | .toolSearch =>
    if argumentsJson.all isTrimmed then ⟨none, some [], false⟩
    else
      match parseUpstreamArguments argumentsJson with
      | some members => ⟨none, some members, false⟩
      | none => ⟨none, some (wireObject [("query", some (.string argumentsJson))]), true⟩
  | _ => ⟨none, none, false⟩

end ToolRestorationPolicy

end GhcGateway.Conversion
