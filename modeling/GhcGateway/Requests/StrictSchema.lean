/-
# Tool schemas for chat

`cleanChatToolSchema` rewrites the schema of a tool's parameters for the chat protocol: it removes
`propertyNames` and the format `uri` wherever a schema stands, makes the root an object schema, and
replaces tuples by a schema for all of their items. Data in the schema is left alone. What is
removed must not hold a reasoning carrier.

The recursion stops below a depth of 32. Here it goes by the levels that are left, 33 of them at
the root; the work of one level is given the cleaner of the next.
-/

import GhcGateway.Conversion.ExtendedToolShared
import GhcGateway.Requests.Messages
import GhcGateway.Serialization.Number

namespace GhcGateway.Requests

open Conversion

/-! ## Keys -/

def schemaChildKeys : List String :=
  ["additionalItems", "additionalProperties", "contains", "contentSchema", "else", "if", "items",
    "not", "then", "unevaluatedItems", "unevaluatedProperties"]

def schemaArrayKeys : List String := ["allOf", "anyOf", "oneOf", "prefixItems"]

def schemaMapKeys : List String :=
  ["$defs", "definitions", "dependencies", "dependentSchemas", "patternProperties", "properties"]

def hasKey (keys : List String) (key : JsString) : Bool := key ∈ keys.map js

/-! ## Values -/

def invalidToolSchema : ContractError := .invalidRequest "REQ-TARGET-C-TOOL-SCHEMA"

/-- `if (containsReasoningCarrier(value)) invalid(…)`. -/
def refuseCarrier (value : WireJson) : Except ContractError Unit :=
  if containsReasoningCarrier value then .error invalidToolSchema else .ok ()

def isArray (value : WireJson) : Bool := value.array?.isSome

/-- `isWireJsonObject`. -/
def isObject (value : WireJson) : Bool := value.object?.isSome

/-- A `type` that allows objects. -/
def isObjectType (value : WireJson) : Bool :=
  value = .string (js "object") ||
    match value with
    | .array items => items.contains (.string (js "object"))
    | _ => false

/-- A member that the cleaner drops. -/
def isDropped (key : JsString) (value : WireJson) : Bool :=
  key = js "propertyNames" || (key = js "format" && value = .string (js "uri"))

/-! ## Tuples -/

def tupleItems (member : JsString × WireJson) : List WireJson :=
  if member.1 = js "prefixItems" ∨ member.1 = js "items" then member.2.array?.getD [] else []

/-- What a tuple is replaced by: the schema of its items, the new `maxItems` where there is one,
whether the tuple is an array of `items`, and the place of the schema of its tail. -/
structure TupleProjection where
  items : WireJson
  cap : Option WireJson
  legacy : Bool
  tailIndex : Option Nat

/-- The second loop of `projectTupleItems`, from a place on, with what has been written. -/
def writeTuple (projection : TupleProjection) :
    Nat → Bool → Bool → WireJsonObject → Except ContractError WireJsonObject
  | _, wroteItems, wroteMax, [] =>
    .ok ((if wroteItems then [] else [(js "items", projection.items)]) ++
      if wroteMax then [] else projection.cap.toList.map fun max => (js "maxItems", max))
  | index, wroteItems, wroteMax, (key, value) :: members =>
    let isItems := key = js "prefixItems" || key = js "items"
    if isItems || (projection.legacy && key = js "additionalItems") then do
      let retained := (isItems && isArray value) || projection.tailIndex = some index
      if !retained then refuseCarrier value
      if isItems then do
        let output ← writeTuple projection (index + 1) true wroteMax members
        return if wroteItems then output else (js "items", projection.items) :: output
      else writeTuple projection (index + 1) wroteItems wroteMax members
    else
      match projection.cap with
      | some max =>
        if key = js "maxItems" then do
          refuseCarrier value
          let output ← writeTuple projection (index + 1) wroteItems true members
          return if wroteMax then output else (key, max) :: output
        else do
          let output ← writeTuple projection (index + 1) wroteItems wroteMax members
          return (key, value) :: output
      | none => do
        let output ← writeTuple projection (index + 1) wroteItems wroteMax members
        return (key, value) :: output

/-- The tuple allows no more items than it has, and `maxItems` does not say so. -/
def capsItems (tail : Option WireJson) (existingMax : Option WireJson) (positional : Nat) : Bool :=
  tail = some (.bool false) &&
    match existingMax with
    | some (.number lexeme) =>
      match jsSafeInteger lexeme with
      | some max => max < 0 || (positional : Int) < max
      | none => true
    | _ => true

def itemsSchema (unrestricted : Bool) (choices : List WireJson) : WireJson :=
  if unrestricted then .object []
  else
    match choices with
    | [] => .object []
    | [choice] => choice
    | _ => .object [(js "anyOf", .array choices)]

def projectTupleItems (members : WireJsonObject) : Except ContractError (WireJsonObject × Bool) :=
  let hasPrefix := members.any fun member => member.1 = js "prefixItems" && isArray member.2
  let legacy := members.any fun member => member.1 = js "items" && isArray member.2
  if !hasPrefix && !legacy then .ok (members, false)
  else do
    let positional := members.flatMap tupleItems
    let isTail (member : JsString × WireJson) : Bool :=
      member.1 = js (if hasPrefix then "items" else "additionalItems") && !isArray member.2
    let tail := (members.find? isTail).map Prod.snd
    for value in positional do
      if !isObject value then refuseCarrier value
    for value in tail do
      if !isObject value then refuseCarrier value
    let choices := positional.filter isObject ++ tail.toList.filter isObject
    let unrestricted := tail = none || tail = some (.bool true) || positional.contains (.bool true)
    if unrestricted && choices.any containsReasoningCarrier then .error invalidToolSchema
    let existingMax := (members.find? fun member => member.1 = js "maxItems").map Prod.snd
    let cap := capsItems tail existingMax positional.length
    let output ← writeTuple {
      items := itemsSchema unrestricted choices
      cap := if cap then some (wireNumber positional.length) else none
      legacy := legacy
      tailIndex := if tail.any isObject then members.findIdx? isTail else none } 0 false
        false members
    return (output, true)

/-! ## Schemas -/

/-- What cleans a schema: the schema, and whether it has changed. -/
abbrev SchemaCleaner := WireJsonObject → Except ContractError (WireJsonObject × Bool)

section Node

variable (clean : SchemaCleaner)

def cleanSchemaMap : WireJsonObject → Except ContractError (WireJsonObject × Bool)
  | [] => .ok ([], false)
  | (name, .object schema) :: members => do
    let (cleaned, changed) ← clean schema
    let (rest, restChanged) ← cleanSchemaMap members
    return ((name, .object cleaned) :: rest, changed || restChanged)
  | member :: members => do
    let (rest, changed) ← cleanSchemaMap members
    return (member :: rest, changed)

def cleanSchemaArray : List WireJson → Except ContractError (List WireJson × Bool)
  | [] => .ok ([], false)
  | .object schema :: items => do
    let (cleaned, changed) ← clean schema
    let (rest, restChanged) ← cleanSchemaArray items
    return (.object cleaned :: rest, changed || restChanged)
  | item :: items => do
    let (rest, changed) ← cleanSchemaArray items
    return (item :: rest, changed)

/-- A member's value in the loop of `cleanSchemaNode`. -/
def cleanValue (root : Bool) (key : JsString) (value : WireJson) :
    Except ContractError (WireJson × Bool) :=
  if key = js "type" then
    if root && !isObjectType value then do
      refuseCarrier value
      return (.string (js "object"), true)
    else .ok (value, false)
  else if hasKey schemaMapKeys key then
    if key = js "properties" && !isObject value then do
      refuseCarrier value
      return (.object [], true)
    else
      match value with
      | .object members => do
        let (cleaned, changed) ← cleanSchemaMap clean members
        return (.object cleaned, changed)
      | _ => .ok (value, false)
  else if hasKey schemaArrayKeys key && isArray value then
    match value with
    | .array items => do
      let (cleaned, changed) ← cleanSchemaArray clean items
      return (.array cleaned, changed)
    | _ => .ok (value, false)
  else if hasKey schemaChildKeys key then
    match value with
    | .object schema => do
      let (cleaned, changed) ← clean schema
      return (.object cleaned, changed)
    | .array items =>
      if key = js "items" then do
        let (cleaned, changed) ← cleanSchemaArray clean items
        return (.array cleaned, changed)
      else .ok (value, false)
    | _ => .ok (value, false)
  else .ok (value, false)

/-- The loop of `cleanSchemaNode`. -/
def cleanMembers (root : Bool) : WireJsonObject → Except ContractError (WireJsonObject × Bool)
  | [] => .ok ([], false)
  | (key, value) :: members =>
    if isDropped key value then do
      refuseCarrier value
      let (rest, _) ← cleanMembers root members
      return (rest, true)
    else do
      let (cleaned, changed) ← cleanValue clean root key value
      let (rest, restChanged) ← cleanMembers root members
      return ((key, cleaned) :: rest, changed || restChanged)

/-- The members of the root with its type and its properties. -/
def completeRoot (root : Bool) (schema members : WireJsonObject) : WireJsonObject × Bool :=
  let noType := root && !schema.any fun member => member.1 = js "type"
  let noProperties := root && !schema.any fun member => member.1 = js "properties"
  ((if noType then [(js "type", .string (js "object"))] else []) ++ members ++
    if noProperties then [(js "properties", .object [])] else [], noType || noProperties)

/-- One level of `cleanSchemaNode`. -/
def cleanNode (root : Bool) (schema : WireJsonObject) :
    Except ContractError (WireJsonObject × Bool) := do
  let (members, changed) ← cleanMembers clean root schema
  let (members, completed) := completeRoot root schema members
  let (projected, isTuple) ← projectTupleItems members
  let changed := changed || completed || isTuple
  return (if changed then projected else schema, changed)

end Node

/-- `cleanSchemaNode`, with the levels from its depth to the last one. -/
def cleanSchemaNode : Nat → Bool → SchemaCleaner
  | 0, _, _ => .error invalidToolSchema
  | levels + 1, root, schema => cleanNode (cleanSchemaNode levels false) root schema

def cleanChatToolSchema : SchemaCleaner := cleanSchemaNode 33 true

end GhcGateway.Requests
