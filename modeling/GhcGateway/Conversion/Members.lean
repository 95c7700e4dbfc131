/-
# Reading members of upstream objects

The decoders read the members of a JSON object by name and reject a name that
occurs twice. They share these readers, each with an error of its own, so the
error is an argument.
-/

import GhcGateway.Conversion.Types
import GhcGateway.Serialization.Number

namespace GhcGateway.Conversion

section Members

variable (error : ConversionError)

/-- `invalid()` with the decoder's own error, unless a condition holds. -/
def demand (condition : Prop) [Decidable condition] : Fallible Unit :=
  if condition then .ok () else .error error

def singleMember (object : WireJsonObject) (key : JsString) : Fallible (Option WireJson) :=
  match memberValues object key with
  | [] => .ok none
  | [value] => .ok (some value)
  | _ => .error error

/-- `stringMember` of the stream decoders: any other value counts as missing. -/
def stringMember (object : WireJsonObject) (key : JsString) : Fallible (Option JsString) := do
  let value ← singleMember error object key
  return value.bind WireJson.string?

def objectMember (object : WireJsonObject) (key : JsString) : Fallible (Option WireJsonObject) := do
  let value ← singleMember error object key
  match value with
  | none => return none
  | some (.object members) => return some members
  | some _ => .error error

def nullableObjectMember (object : WireJsonObject) (key : JsString) :
    Fallible (Option WireJsonObject) := do
  let value ← singleMember error object key
  match value with
  | none => return none
  | some .null => return none
  | some (.object members) => return some members
  | some _ => .error error

def arrayMember (object : WireJsonObject) (key : JsString) : Fallible (Option (List WireJson)) := do
  let value ← singleMember error object key
  match value with
  | none => return none
  | some (.array items) => return some items
  | some _ => .error error

/-- `nullableStringMember`: a string, or nothing for a missing member and for null. -/
def nullableStringMember (object : WireJsonObject) (key : JsString) :
    Fallible (Option JsString) := do
  let value ← singleMember error object key
  match value with
  | none => return none
  | some .null => return none
  | some (.string text) => return some text
  | some _ => .error error

/-- A member that has to be a string if it is there. -/
def optionalStringMember (object : WireJsonObject) (key : JsString) :
    Fallible (Option JsString) := do
  let value ← singleMember error object key
  match value with
  | none => return none
  | some (.string text) => return some text
  | some _ => .error error

def integerMember (object : WireJsonObject) (key : JsString) : Fallible (Option Int) := do
  let value ← singleMember error object key
  match value with
  | none => return none
  | some (.number lexeme) =>
    match jsSafeInteger lexeme with
    | some value => return some value
    | none => .error error
  | some _ => .error error

def optionalNonnegativeIntegerMember (object : Option WireJsonObject) (key : JsString) :
    Fallible (Option Nat) :=
  match object with
  | none => .ok none
  | some object => do
    let value ← integerMember error object key
    match value with
    | none => return none
    | some value =>
      if 0 ≤ value then return some value.toNat
      else .error error

def assertAllowedKeys (object : WireJsonObject) (allowed : List String) : Fallible Unit :=
  demand error ((∀ member ∈ object, member.1 ∈ allowed.map js) ∧ (object.map Prod.fst).Nodup)

end Members

/-! ## The errors of the stream decoders -/

/-- `invalid()` of the stream decoders. -/
def invalidStream : ConversionError :=
  .gateway ⟨.invalidUpstreamResponse, some .parser, some .stream⟩

def invalidTruncated : ConversionError :=
  .gateway ⟨.upstreamStreamTruncated, some .parser, some .stream⟩

def unsupportedOutput : ConversionError :=
  .gateway ⟨.unsupportedUpstreamOutput, some .converter, some .stream⟩

def upstreamStreamEventFailure : ConversionError :=
  .gateway ⟨.upstreamStreamError, some .parser, some .stream⟩

def rejectNonemptyCitations (object : WireJsonObject) (key : JsString) : Fallible Unit := do
  let value ← singleMember invalidStream object key
  match value with
  | none => return ()
  | some .null => return ()
  | some (.array items) => if items = [] then return () else .error unsupportedOutput
  | some _ => .error invalidStream

/-! ## The decoder's budget -/

/-- `DecoderBudget`: what a decoder may hold, and what it holds. -/
structure DecoderBudget where
  maxBytes : Nat
  used : Nat

namespace DecoderBudget

/-- `assertBounded` after a charge. -/
def charge (budget : DecoderBudget) (count : Nat) : Fallible DecoderBudget :=
  if budget.maxBytes < budget.used + count then .error invalidStream
  else .ok { budget with used := budget.used + count }

def reserve (budget : DecoderBudget) (value : JsString) : Fallible DecoderBudget :=
  budget.charge (utf8ByteLength value)

def reserveEntry (budget : DecoderBudget) : Fallible DecoderBudget := budget.charge 64

end DecoderBudget

end GhcGateway.Conversion
