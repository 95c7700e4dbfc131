/-
# Wire JSON

The gateway keeps JSON exactly as it arrives: member order, duplicate member
names and the text of every number survive a parse. This module has the value
type, its member access, the parser with its byte and depth limits, the
serializer, and the canonical form used to compare opaque reasoning state.

The parser of the source walks an index over a byte array; here the rest of the
input stands for the index. A number called `fuel` bounds the recursion, and
`parseWireJson` gives it one more than the input has bytes, which no nesting can
use up because every recursive call has consumed a byte.
-/

import GhcGateway.Serialization.Text
import Mathlib.Computability.RegularExpressions
import Mathlib.Data.List.Sort

namespace GhcGateway

/-- `WireJson`. A number keeps its lexeme, an object its members in order. -/
inductive WireJson
  | null
  | bool (value : Bool)
  | string (value : JsString)
  | number (lexeme : JsString)
  | array (items : List WireJson)
  | object (members : List (JsString × WireJson))

/-- `WireJsonObject`: the members of an object, in order. -/
abbrev WireJsonObject := List (JsString × WireJson)

namespace WireJson

mutual

/-- Equality of JSON values can be decided member by member. -/
def decEq : (left right : WireJson) → Decidable (left = right)
  | .null, .null => isTrue rfl
  | .bool a, .bool b => decidable_of_iff (a = b) (by simp)
  | .string a, .string b => decidable_of_iff (a = b) (by simp)
  | .number a, .number b => decidable_of_iff (a = b) (by simp)
  | .array a, .array b =>
    have := decEqItems a b
    decidable_of_iff (a = b) (by simp)
  | .object a, .object b =>
    have := decEqMembers a b
    decidable_of_iff (a = b) (by simp)
  | .null, .bool _ | .null, .string _ | .null, .number _ | .null, .array _ | .null, .object _
  | .bool _, .null | .bool _, .string _ | .bool _, .number _ | .bool _, .array _
  | .bool _, .object _ | .string _, .null | .string _, .bool _ | .string _, .number _
  | .string _, .array _ | .string _, .object _ | .number _, .null | .number _, .bool _
  | .number _, .string _ | .number _, .array _ | .number _, .object _ | .array _, .null
  | .array _, .bool _ | .array _, .string _ | .array _, .number _ | .array _, .object _
  | .object _, .null | .object _, .bool _ | .object _, .string _ | .object _, .number _
  | .object _, .array _ => isFalse (by simp)

def decEqItems : (left right : List WireJson) → Decidable (left = right)
  | [], [] => isTrue rfl
  | [], _ :: _ | _ :: _, [] => isFalse (by simp)
  | a :: as, b :: bs =>
    have := decEq a b
    have := decEqItems as bs
    decidable_of_iff (a = b ∧ as = bs) (by simp)

def decEqMembers : (left right : List (JsString × WireJson)) → Decidable (left = right)
  | [], [] => isTrue rfl
  | [], _ :: _ | _ :: _, [] => isFalse (by simp)
  | (k, a) :: as, (l, b) :: bs =>
    have := decEq a b
    have := decEqMembers as bs
    decidable_of_iff (k = l ∧ a = b ∧ as = bs) (by simp [and_assoc])

end

instance : DecidableEq WireJson := decEq

/-- `isWireJsonObject`, as the members of the object. -/
def object? : WireJson → Option WireJsonObject
  | .object members => some members
  | _ => none

/-- `isWireJsonArray`, as the items of the array. -/
def array? : WireJson → Option (List WireJson)
  | .array items => some items
  | _ => none

/-- `typeof value === "string"`, as the string. -/
def string? : WireJson → Option JsString
  | .string value => some value
  | _ => none

end WireJson

/-- `memberValues`: the values of every member of that name, in order. -/
def memberValues (object : WireJsonObject) (key : JsString) : List WireJson :=
  (object.filter fun member => member.1 = key).map Prod.snd

/-- `wireObject`: members given with an optional value, the absent ones left
out. -/
def wireObject (entries : List (String × Option WireJson)) : WireJsonObject :=
  entries.filterMap fun entry => entry.2.map fun value => (js entry.1, value)

/-- `wireNumber` of a natural number. -/
def wireNumber (value : Nat) : WireJson := .number (js (toString value))

/-! ## Parsing -/

/-- `WireJsonErrorCode`. -/
inductive WireJsonError
  | byteLimit
  | depthLimit
  | invalidUtf8
  | malformedJson
  | serializationFailure
  deriving DecidableEq

structure WireJsonParseLimits where
  maxBytes : Nat
  maxDepth : Nat

namespace Parser

def isWhitespace (byte : UInt8) : Bool :=
  byte = 0x20 || byte = 0x09 || byte = 0x0A || byte = 0x0D

def skipWhitespace (input : List UInt8) : List UInt8 := input.dropWhile isWhitespace

def isDigit (byte : UInt8) : Bool := 0x30 ≤ byte && byte ≤ 0x39

def hexNibble (byte : UInt8) : Option Nat :=
  if 0x30 ≤ byte && byte ≤ 0x39 then some (byte.toNat - 0x30)
  else if 0x41 ≤ byte && byte ≤ 0x46 then some (byte.toNat - 0x41 + 10)
  else if 0x61 ≤ byte && byte ≤ 0x66 then some (byte.toNat - 0x61 + 10)
  else none

def needContinuation : List UInt8 → Except WireJsonError (Nat × List UInt8)
  | [] => .error .invalidUtf8
  | byte :: rest =>
    if byte &&& 0xC0 = 0x80 then .ok (byte.toNat % 0x40, rest) else .error .invalidUtf8

def consumeUtf8CodePoint : List UInt8 → Except WireJsonError (Nat × List UInt8)
  | [] => .error .invalidUtf8
  | b0 :: input =>
    if b0 < 0x80 then .ok (b0.toNat, input)
    else if b0 < 0xC2 || 0xF4 < b0 then .error .invalidUtf8
    else if b0 < 0xE0 then do
      let (b1, input) ← needContinuation input
      let codePoint := b0.toNat % 0x20 * 0x40 + b1
      if codePoint < 0x80 then .error .invalidUtf8 else .ok (codePoint, input)
    else if b0 < 0xF0 then do
      let (b1, input) ← needContinuation input
      let (b2, input) ← needContinuation input
      let codePoint := b0.toNat % 0x10 * 0x1000 + b1 * 0x40 + b2
      if codePoint < 0x800 || (0xD800 ≤ codePoint && codePoint ≤ 0xDFFF) then
        .error .invalidUtf8
      else .ok (codePoint, input)
    else do
      let (b1, input) ← needContinuation input
      let (b2, input) ← needContinuation input
      let (b3, input) ← needContinuation input
      let codePoint := b0.toNat % 0x08 * 0x40000 + b1 * 0x1000 + b2 * 0x40 + b3
      if codePoint < 0x10000 || 0x10FFFF < codePoint then .error .invalidUtf8
      else .ok (codePoint, input)

/-- `unexpected`: a byte outside ASCII is first read as a character, so that
broken UTF-8 is reported as such. -/
def unexpected (α : Type) (input : List UInt8) : Except WireJsonError (α × List UInt8) :=
  match input with
  | byte :: _ =>
    if 0x80 ≤ byte then do
      let _ ← consumeUtf8CodePoint input
      .error .malformedJson
    else .error .malformedJson
  | [] => .error .malformedJson

def expectAscii : List UInt8 → List UInt8 → Except WireJsonError (Unit × List UInt8)
  | [], input => .ok ((), input)
  | expected :: text, byte :: input =>
    if byte = expected then expectAscii text input else unexpected Unit (byte :: input)
  | _ :: _, [] => .error .malformedJson

/-- `parseHexCodeUnit`: exactly four hexadecimal digits. -/
def parseHexCodeUnit : Nat → Nat → List UInt8 → Except WireJsonError (Nat × List UInt8)
  | 0, value, input => .ok (value, input)
  | _ + 1, _, [] => .error .malformedJson
  | count + 1, value, byte :: input =>
    match hexNibble byte with
    | some nibble => parseHexCodeUnit count (value * 0x10 + nibble) input
    | none => .error .malformedJson

/-- `parseEscape`, after the backslash. -/
def parseEscape : List UInt8 → Except WireJsonError (JsString × List UInt8)
  | [] => .error .malformedJson
  | marker :: input =>
    if marker = 0x22 then .ok ([0x22], input)
    else if marker = 0x5C then .ok ([0x5C], input)
    else if marker = 0x2F then .ok ([0x2F], input)
    else if marker = 0x62 then .ok ([0x08], input)
    else if marker = 0x66 then .ok ([0x0C], input)
    else if marker = 0x6E then .ok ([0x0A], input)
    else if marker = 0x72 then .ok ([0x0D], input)
    else if marker = 0x74 then .ok ([0x09], input)
    else if marker = 0x75 then do
      let (unit, input) ← parseHexCodeUnit 4 0 input
      .ok ([UInt16.ofNat unit], input)
    else .error .malformedJson

/-- `parseString`, after the opening quote. -/
def parseString : Nat → JsString → List UInt8 → Except WireJsonError (JsString × List UInt8)
  | 0, _, _ => .error .malformedJson
  | _ + 1, _, [] => .error .malformedJson
  | fuel + 1, result, byte :: input =>
    if byte = 0x22 then .ok (result, input)
    else if byte = 0x5C then do
      let (units, input) ← parseEscape input
      parseString fuel (result ++ units) input
    else if byte < 0x20 then .error .malformedJson
    else if byte < 0x80 then parseString fuel (result ++ [UInt16.ofNat byte.toNat]) input
    else do
      let (codePoint, input) ← consumeUtf8CodePoint (byte :: input)
      parseString fuel (result ++ codePointUnits codePoint) input

/-- `consumeDigits`: the digits and what follows them. -/
def consumeDigits (input : List UInt8) : List UInt8 × List UInt8 := input.span isDigit

/-- The integer part of a number: one zero, or digits that do not start with
one. -/
def parseInteger : List UInt8 → Except WireJsonError (List UInt8 × List UInt8)
  | first :: input =>
    if first = 0x30 then .ok ([first], input)
    else if 0x31 ≤ first && first ≤ 0x39 then
      .ok (first :: (consumeDigits input).1, (consumeDigits input).2)
    else .error .malformedJson
  | [] => .error .malformedJson

def parseFraction : List UInt8 → Except WireJsonError (List UInt8 × List UInt8)
  | 0x2E :: input =>
    if (consumeDigits input).1 = [] then .error .malformedJson
    else .ok (0x2E :: (consumeDigits input).1, (consumeDigits input).2)
  | input => .ok ([], input)

def splitSign : List UInt8 → List UInt8 × List UInt8
  | byte :: input => if byte = 0x2B || byte = 0x2D then ([byte], input) else ([], byte :: input)
  | [] => ([], [])

def parseExponent : List UInt8 → Except WireJsonError (List UInt8 × List UInt8)
  | byte :: input =>
    if byte = 0x65 || byte = 0x45 then
      let (sign, input) := splitSign input
      if (consumeDigits input).1 = [] then .error .malformedJson
      else .ok (byte :: sign ++ (consumeDigits input).1, (consumeDigits input).2)
    else .ok ([], byte :: input)
  | [] => .ok ([], [])

def splitMinus : List UInt8 → List UInt8 × List UInt8
  | 0x2D :: input => ([0x2D], input)
  | input => ([], input)

/-- `parseNumber`: the lexeme is the slice of the input the number occupies. -/
def parseNumber (input : List UInt8) : Except WireJsonError (WireJson × List UInt8) := do
  let (minus, input) := splitMinus input
  let (integer, input) ← parseInteger input
  let (fraction, input) ← parseFraction input
  let (exponent, input) ← parseExponent input
  let lexeme := minus ++ integer ++ fraction ++ exponent
  .ok (.number (lexeme.map fun byte => UInt16.ofNat byte.toNat), input)

mutual

def parseValue (maxDepth : Nat) :
    Nat → Nat → List UInt8 → Except WireJsonError (WireJson × List UInt8)
  | 0, _, _ => .error .malformedJson
  | fuel + 1, depth, input =>
    match skipWhitespace input with
    | [] => .error .malformedJson
    | byte :: rest =>
      if byte = 0x7B then
        if maxDepth < depth then .error .depthLimit
        else
          -- `parseObject`
          match skipWhitespace rest with
          | 0x7D :: rest => .ok (.object [], rest)
          | rest => parseMembers maxDepth fuel depth [] rest
      else if byte = 0x5B then
        if maxDepth < depth then .error .depthLimit
        else
          -- `parseArray`
          match skipWhitespace rest with
          | 0x5D :: rest => .ok (.array [], rest)
          | rest => parseItems maxDepth fuel depth [] rest
      else if byte = 0x22 then do
        let (text, rest) ← parseString (rest.length + 1) [] rest
        .ok (.string text, rest)
      else if byte = 0x74 then do
        let (_, rest) ← expectAscii [0x74, 0x72, 0x75, 0x65] (byte :: rest)
        .ok (.bool true, rest)
      else if byte = 0x66 then do
        let (_, rest) ← expectAscii [0x66, 0x61, 0x6C, 0x73, 0x65] (byte :: rest)
        .ok (.bool false, rest)
      else if byte = 0x6E then do
        let (_, rest) ← expectAscii [0x6E, 0x75, 0x6C, 0x6C] (byte :: rest)
        .ok (.null, rest)
      else if byte = 0x2D || isDigit byte then parseNumber (byte :: rest)
      else unexpected WireJson (byte :: rest)

/-- The member loop of `parseObject`, from before a key. -/
def parseMembers (maxDepth : Nat) :
    Nat → Nat → List (JsString × WireJson) → List UInt8 →
      Except WireJsonError (WireJson × List UInt8)
  | 0, _, _, _ => .error .malformedJson
  | fuel + 1, depth, members, input =>
    match skipWhitespace input with
    | 0x22 :: rest => do
      let (key, rest) ← parseString (rest.length + 1) [] rest
      match skipWhitespace rest with
      | 0x3A :: rest => do
        let (value, rest) ← parseValue maxDepth fuel (depth + 1) rest
        match skipWhitespace rest with
        | 0x2C :: rest => parseMembers maxDepth fuel depth (members ++ [(key, value)]) rest
        | 0x7D :: rest => .ok (.object (members ++ [(key, value)]), rest)
        | rest => unexpected WireJson rest
      | rest => unexpected WireJson rest
    | rest => unexpected WireJson rest

/-- The item loop of `parseArray`. -/
def parseItems (maxDepth : Nat) :
    Nat → Nat → List WireJson → List UInt8 → Except WireJsonError (WireJson × List UInt8)
  | 0, _, _, _ => .error .malformedJson
  | fuel + 1, depth, items, input => do
    let (value, rest) ← parseValue maxDepth fuel (depth + 1) input
    match skipWhitespace rest with
    | 0x2C :: rest => parseItems maxDepth fuel depth (items ++ [value]) rest
    | 0x5D :: rest => .ok (.array (items ++ [value]), rest)
    | rest => unexpected WireJson rest

end

def parseDocument (maxDepth : Nat) (bytes : List UInt8) : Except WireJsonError WireJson := do
  let (value, rest) ← parseValue maxDepth (bytes.length + 1) 1 bytes
  match skipWhitespace rest with
  | [] => .ok value
  | rest => do
    let (value, _) ← unexpected WireJson rest
    .ok value

end Parser

def parseWireJson (bytes : List UInt8) (limits : WireJsonParseLimits) :
    Except WireJsonError WireJson :=
  if limits.maxBytes < bytes.length then .error .byteLimit
  else Parser.parseDocument limits.maxDepth bytes

/-! ## Serializing -/

/-- Four lower-case hexadecimal digits, as `toString(16).padStart(4, "0")`
writes them. -/
def hexCodeUnit (unit : Nat) : List UInt8 :=
  [unit / 0x1000 % 0x10, unit / 0x100 % 0x10, unit / 0x10 % 0x10, unit % 0x10].map fun nibble =>
    if nibble < 10 then UInt8.ofNat (0x30 + nibble) else UInt8.ofNat (0x57 + nibble)

/-- The bytes `writeJsonString` writes for one character. -/
def writeCharacter (codePoint : Nat) : List UInt8 :=
  if codePoint = 0x22 then [0x5C, 0x22]
  else if codePoint = 0x5C then [0x5C, 0x5C]
  else if codePoint = 0x08 then [0x5C, 0x62]
  else if codePoint = 0x09 then [0x5C, 0x74]
  else if codePoint = 0x0A then [0x5C, 0x6E]
  else if codePoint = 0x0C then [0x5C, 0x66]
  else if codePoint = 0x0D then [0x5C, 0x72]
  else if codePoint < 0x20 ∨ (0xD800 ≤ codePoint ∧ codePoint ≤ 0xDFFF) then
    [0x5C, 0x75] ++ hexCodeUnit codePoint
  else utf8Bytes codePoint

def writeJsonString (value : JsString) : List UInt8 :=
  [0x22] ++ value.codePoints.flatMap writeCharacter ++ [0x22]

/-- A choice between single code units, as a bracket of a regular expression
lists them. -/
def unitClass (units : JsString) : RegularExpression UInt16 :=
  (units.map RegularExpression.char).sum

/-- `JSON_NUMBER_LEXEME`, which is
`/^-?(?:0|[1-9]\d*)(?:\.\d+)?(?:[eE][+-]?\d+)?$/u`. -/
def jsonNumberLexeme : RegularExpression UInt16 :=
  let digit := unitClass (js "0123456789")
  let digits := digit * digit.star
  (1 + unitClass (js "-")) * (unitClass (js "0") + unitClass (js "123456789") * digit.star) *
    (1 + unitClass (js ".") * digits) *
    (1 + unitClass (js "eE") * (1 + unitClass (js "+-")) * digits)

def isNumberLexeme (lexeme : JsString) : Bool := jsonNumberLexeme.rmatch lexeme

def writeNumberLexeme (lexeme : JsString) : Except WireJsonError (List UInt8) :=
  if isNumberLexeme lexeme then .ok (lexeme.map fun unit => UInt8.ofNat unit.toNat)
  else .error .serializationFailure

mutual

def writeValue : WireJson → Except WireJsonError (List UInt8)
  | .null => .ok [0x6E, 0x75, 0x6C, 0x6C]
  | .bool true => .ok [0x74, 0x72, 0x75, 0x65]
  | .bool false => .ok [0x66, 0x61, 0x6C, 0x73, 0x65]
  | .string value => .ok (writeJsonString value)
  | .number lexeme => writeNumberLexeme lexeme
  | .array items => do
    let bytes ← writeItems items
    .ok ([0x5B] ++ bytes ++ [0x5D])
  | .object members => do
    let bytes ← writeMembers members
    .ok ([0x7B] ++ bytes ++ [0x7D])

/-- The items of an array, separated by commas. -/
def writeItems : List WireJson → Except WireJsonError (List UInt8)
  | [] => .ok []
  | [item] => writeValue item
  | item :: next :: items => do
    let bytes ← writeValue item
    let rest ← writeItems (next :: items)
    .ok (bytes ++ [0x2C] ++ rest)

/-- The members of an object, separated by commas. -/
def writeMembers : List (JsString × WireJson) → Except WireJsonError (List UInt8)
  | [] => .ok []
  | [(key, value)] => do
    let bytes ← writeValue value
    .ok (writeJsonString key ++ [0x3A] ++ bytes)
  | (key, value) :: next :: members => do
    let bytes ← writeValue value
    let rest ← writeMembers (next :: members)
    .ok (writeJsonString key ++ [0x3A] ++ bytes ++ [0x2C] ++ rest)

end

def serializeWireJson (value : WireJson) : Except WireJsonError (List UInt8) := writeValue value

/-- `new TextDecoder().decode(bytes)` on the well-formed bytes the serializer
writes. -/
def decodeText (bytes : List UInt8) : JsString :=
  match Utf8Decoder.initial.decode bytes with
  | some (_, text) => text
  | none => []

/-! ## Canonical form -/

/-- `compareUnicodeCodePoints(left, right) ≤ 0`. -/
def codePointsLe : List Nat → List Nat → Bool
  | [], _ => true
  | _ :: _, [] => false
  | left :: lefts, right :: rights =>
    if left = right then codePointsLe lefts rights else decide (left < right)

mutual

def canonicalizeValue : WireJson → WireJson
  | .array items => .array (canonicalizeItems items)
  | .object members =>
    .object ((canonicalizeMembers members).insertionSort fun left right =>
      codePointsLe (JsString.codePoints left.1) (JsString.codePoints right.1))
  | value => value

/-- Every item of an array in canonical form. -/
def canonicalizeItems : List WireJson → List WireJson
  | [] => []
  | item :: items => canonicalizeValue item :: canonicalizeItems items

/-- Every member of an object with its value in canonical form, still in the
order given. -/
def canonicalizeMembers : List (JsString × WireJson) → List (JsString × WireJson)
  | [] => []
  | (key, value) :: members => (key, canonicalizeValue value) :: canonicalizeMembers members

end

def canonicalizeWireJson (value : WireJson) : Except WireJsonError (List UInt8) :=
  serializeWireJson (canonicalizeValue value)

end GhcGateway
