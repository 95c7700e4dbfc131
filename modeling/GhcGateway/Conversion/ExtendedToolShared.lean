/-
# Reading the extended tools of a request

What the decoders of declared tools share: their state, the errors they throw, the readers
of members, and the projection of an object to the members that are known. A value that
may be left out is refused instead where it holds a reasoning carrier.
-/

import GhcGateway.Conversion.Stream
import GhcGateway.Conversion.ToolRestoration
import GhcGateway.Library.OrderedMap

namespace GhcGateway.Conversion

open Library

/-! ## Reasoning carriers in a value -/

/-- `isReasoningCarrier`: `/^ghcg-rsn-v[^:]*:/u`. -/
def isReasoningCarrier (value : JsString) : Bool :=
  (js "ghcg-rsn-v").isPrefixOf value && (value.drop (js "ghcg-rsn-v").length).contains 0x3A

mutual

def containsReasoningCarrier : WireJson → Bool
  | .string value => isReasoningCarrier value
  | .array items => itemsContainReasoningCarrier items
  | .object members => membersContainReasoningCarrier members
  | .null | .bool _ | .number _ => false

def itemsContainReasoningCarrier : List WireJson → Bool
  | [] => false
  | item :: items => containsReasoningCarrier item || itemsContainReasoningCarrier items

def membersContainReasoningCarrier : List (JsString × WireJson) → Bool
  | [] => false
  | (_, value) :: members =>
    containsReasoningCarrier value || membersContainReasoningCarrier members

end

/-! ## The state -/

/-- What the decoders throw: a `ConversionContractError` with the rule of an invalid
request, or an error of the JSON writer. -/
inductive ExtendedToolError
  | contract (ruleId : String)
  | wireJson (error : WireJsonError)
  deriving DecidableEq

/-- `MutableState`, without the calls and results of the input; a discovered tool list is
kept under the place of its item in the input. -/
structure ExtendedToolState where
  degradations : List ConversionDegradationRule
  discoveredTools : List (Nat × List WireJson)
  bindings : List ToolSourceBinding
  bySourceKey : OrderedMap JsString ToolSourceBinding
  byChatName : OrderedMap JsString ToolSourceBinding
  omittedSourceKeys : List JsString
  tools : List WireJsonObject

def ExtendedToolState.initial (degradations : List ConversionDegradationRule) :
    ExtendedToolState where
  degradations := degradations
  discoveredTools := []
  bindings := []
  bySourceKey := .empty
  byChatName := .empty
  omittedSourceKeys := []
  tools := []

/-- A decoder: what it has written stays written when it throws. -/
abbrev ToolDecoding := EStateM ExtendedToolError ExtendedToolState

def invalidRequest {α : Type} (ruleId : String) : ToolDecoding α := throw (.contract ruleId)

def refuse (carries : Bool) (ruleId : String) : ToolDecoding PUnit :=
  if carries then invalidRequest ruleId else pure ⟨⟩

def degrade (rule : ConversionDegradationRule) : ToolDecoding PUnit :=
  modify fun state => { state with degradations := state.degradations.insert rule }

/-! ## Members -/

/-- `single`: the first member of that name. -/
def single (value : WireJsonObject) (key : String) : Option WireJson :=
  (memberValues value (js key)).head?

def toolObject (members : List (String × WireJson)) : WireJsonObject :=
  members.map fun member => (js member.1, member.2)

def replaceMember (value : WireJsonObject) (key : String) (replacement : WireJson) :
    WireJsonObject :=
  value.map fun member => if member.1 = js key then (js key, replacement) else member

def removeMember (value : WireJsonObject) (key : String) : WireJsonObject :=
  value.filter fun member => member.1 ≠ js key

def sourceKey (sourceNamespace : Option JsString) (name : JsString) : JsString :=
  sourceNamespace.getD [] ++ 0 :: name

def canonicalString (value : WireJson) : Except WireJsonError JsString :=
  (canonicalizeWireJson value).map decodeText

def extendedSensitiveFields : List String :=
  ["allowed_callers", "caller", "container", "defer_loading", "encrypted_content", "output_schema",
    "previous_response_id", "reasoning_content", "reasoning_details", "reasoning_items",
    "tool_call_id", "tool_use_id"]

/-- The loop of `projectKnownObject`: the members that are known, each the first of its
name, and whether another one was left out. -/
def projectMembers (known : List String) (ruleId : String) :
    List JsString → WireJsonObject → ToolDecoding (WireJsonObject × Bool)
  | _, [] => pure ([], false)
  | seen, member :: rest =>
    if member.1 ∈ known.map js then
      if member.1 ∈ seen then do
        refuse (containsReasoningCarrier member.2) ruleId
        projectMembers known ruleId seen rest
      else do
        let (members, omitted) ← projectMembers known ruleId (member.1 :: seen) rest
        pure (member :: members, omitted)
    else do
      refuse (decide (member.1 ∈ extendedSensitiveFields.map js) ||
        containsReasoningCarrier member.2) ruleId
      let (members, _) ← projectMembers known ruleId seen rest
      pure (members, true)

def projectExtended (value : WireJsonObject) (allowed : List String) (ruleId : String) :
    ToolDecoding WireJsonObject := do
  let (members, omitted) ← projectMembers allowed ruleId [] value
  if omitted then do
    degrade .responsesExtensionsOmitted
    pure members
  else pure members

def requiredArray (value : Option WireJson) (ruleId : String) : ToolDecoding (List WireJson) :=
  match value with
  | some (.array items) => pure items
  | _ => invalidRequest ruleId

/-- `requiredString`, which refuses the empty string. -/
def requiredString (value : Option WireJson) (ruleId : String) : ToolDecoding JsString :=
  match value with
  | some (.string text) => if text = [] then invalidRequest ruleId else pure text
  | _ => invalidRequest ruleId

def looseObject (value : WireJson) (ruleId : String) : ToolDecoding WireJsonObject :=
  match value with
  | .object members => pure members
  | _ => invalidRequest ruleId

def omitMalformedExtended (α : Type) (value : WireJson) (ruleId : String) :
    ToolDecoding (Option α) := do
  refuse (containsReasoningCarrier value) ruleId
  degrade .requestOptionOmitted
  pure none

def optionalExtendedString (value : Option WireJson) (ruleId : String) :
    ToolDecoding (Option JsString) :=
  match value with
  | none => pure none
  | some (.string text) =>
    if text = [] then omitMalformedExtended JsString (.string text) ruleId else pure (some text)
  | some value => omitMalformedExtended JsString value ruleId

def optionalExtendedObject (value : Option WireJson) (ruleId : String) :
    ToolDecoding (Option WireJsonObject) :=
  match value with
  | none => pure none
  | some (.object members) => pure (some members)
  | some value => omitMalformedExtended WireJsonObject value ruleId

/-! ## Strict schemas -/

/-- The member of that name, if it occurs at most once and is an object. -/
def strictMembers (schema : WireJsonObject) (key : String) : Option WireJsonObject :=
  match memberValues schema (js key) with
  | [] => some []
  | [.object members] => if (members.map Prod.fst).Nodup then some members else none
  | _ => none

/-- What `isOpenaiStrictSchemaCompatible` asks of an object type. -/
def isStrictObject (compatible : WireJson → Bool) (schema : WireJsonObject) : Bool :=
  let required :=
    match memberValues schema (js "required") with
    | [] => some []
    | [.array items] => some items
    | _ => none
  match strictMembers schema "properties", required with
  | some properties, some required =>
    memberValues schema (js "additionalProperties") = [.bool false] &&
      required.all (fun item => item.string?.isSome) && decide required.Nodup &&
      properties.length = required.length &&
      properties.all fun member =>
        decide (WireJson.string member.1 ∈ required) && compatible member.2
  | _, _ => false

/-- `isOpenaiStrictSchemaCompatible`; the first argument is how many levels are left of
the 33 that are allowed. -/
def isOpenaiStrictSchemaCompatible : Nat → Bool → WireJson → Bool
  | remaining + 1, root, .object schema =>
    let compatible := isOpenaiStrictSchemaCompatible remaining false
    let types := memberValues schema (js "type")
    let objectType :=
      match types with
      | .string type :: _ => decide (type = js "object")
      | .array items :: _ => decide (WireJson.string (js "object") ∈ items)
      | _ => false
    decide (schema.map Prod.fst).Nodup && types.length ≤ 1 && (!root || objectType) &&
      (!objectType || isStrictObject compatible schema) &&
      (match memberValues schema (js "items") with
        | [] => true
        | [items] => compatible items
        | _ => false) &&
      (match memberValues schema (js "anyOf") with
        | [] => true
        | [.array branches] => branches.all compatible
        | _ => false) &&
      (match strictMembers schema "$defs" with
        | some definitions => definitions.all fun definition => compatible definition.2
        | none => false)
  | _, _, _ => false

end GhcGateway.Conversion
