/-
# The comparison of tool arguments

A stream may announce the arguments of a tool call and then send them again piece by piece.
`sameToolArguments` decides whether the two texts are the same JSON object: members in any
order, no name twice, and numbers by their exact decimal value, which `normalizeJsonNumber`
computes on the digits of the lexeme.

The digit loops of the source run from the last digit to the first and build their output in
that order; here they run over the reversed strings.
-/

import GhcGateway.Serialization.Text
import GhcGateway.Serialization.WireJson
import Mathlib.Data.Nat.Digits.Defs

namespace GhcGateway.Conversion

/-! ## Numbers -/

/-- `\d`, which is ASCII. -/
def isDigitUnit (unit : UInt16) : Bool := 0x30 ≤ unit && unit ≤ 0x39

/-- `charCodeAt(…) - 48`. -/
def digitValue (unit : UInt16) : Nat := unit.toNat - 0x30

/-- `String(digit)` of a single digit. -/
def digitUnit (digit : Nat) : UInt16 := UInt16.ofNat (0x30 + digit)

/-- The groups of `/^(-?)(\d+)(?:\.(\d+))?(?:[eE]([+-]?\d+))?$/u`; an optional group that did
not take part is empty, which the code does not tell apart from its default. -/
structure DecimalMatch where
  minus : JsString
  integer : JsString
  fraction : JsString
  exponent : Option JsString

def splitMinusUnit : JsString → JsString × JsString
  | 0x2D :: rest => ([0x2D], rest)
  | rest => ([], rest)

/-- `(?:\.(\d+))?`. -/
def splitFraction : JsString → JsString × JsString
  | 0x2E :: rest =>
    if rest.takeWhile isDigitUnit = [] then ([], 0x2E :: rest)
    else (rest.takeWhile isDigitUnit, rest.dropWhile isDigitUnit)
  | rest => ([], rest)

def splitSignUnit : JsString → JsString × JsString
  | unit :: rest => if unit = 0x2B ∨ unit = 0x2D then ([unit], rest) else ([], unit :: rest)
  | [] => ([], [])

/-- `(?:[eE]([+-]?\d+))?`. -/
def splitExponent : JsString → Option JsString × JsString
  | unit :: rest =>
    let (sign, digits) := splitSignUnit rest
    if (unit = 0x65 ∨ unit = 0x45) ∧ digits.takeWhile isDigitUnit ≠ [] then
      (some (sign ++ digits.takeWhile isDigitUnit), digits.dropWhile isDigitUnit)
    else (none, unit :: rest)
  | [] => (none, [])

/-- `/^(-?)(\d+)(?:\.(\d+))?(?:[eE]([+-]?\d+))?$/u.exec(value)`. No group can give back a
digit that the next one could take, so each takes all it can. -/
def matchDecimal (value : JsString) : Option DecimalMatch :=
  let (minus, unsigned) := splitMinusUnit value
  let integer := unsigned.takeWhile isDigitUnit
  let (fraction, afterFraction) := splitFraction (unsigned.dropWhile isDigitUnit)
  let (exponent, rest) := splitExponent afterFraction
  if integer = [] ∨ rest ≠ [] then none else some ⟨minus, integer, fraction, exponent⟩

def stripLeadingZeros (digits : JsString) : JsString := digits.dropWhile (· = 0x30)

def orZero (digits : JsString) : JsString := if digits = [] then js "0" else digits

/-- The decimal text of a number, its last digit first. -/
def reversedDecimal (value : Nat) : JsString := (Nat.digits 10 value).map digitUnit

/-- `String(value)` of a natural number. -/
def decimalText (value : Nat) : JsString := orZero (reversedDecimal value).reverse

/-- `String(value)` of an integer; that of `-0` is `"0"`. -/
def integerText (value : Int) : JsString :=
  if value < 0 then 0x2D :: decimalText value.natAbs else decimalText value.natAbs

structure SignedDecimal where
  negative : Bool
  digits : JsString

def signedDecimal (value : JsString) : SignedDecimal :=
  let negative := value.head? = some 0x2D
  let unsigned := if value.head? = some 0x2D ∨ value.head? = some 0x2B then value.drop 1 else value
  let digits := orZero (stripLeadingZeros unsigned)
  ⟨negative && digits ≠ js "0", digits⟩

def signedMagnitude (negative : Bool) (digits : JsString) : JsString :=
  if negative && digits ≠ js "0" then 0x2D :: digits else digits

def compareMagnitude (left right : JsString) : Ordering :=
  if left.length = right.length then
    if left = right then .eq else if right < left then .gt else .lt
  else if right.length < left.length then .gt else .lt

/-- The loop of `addMagnitude`, for so many offsets; the carry makes one more. -/
def addDigits : Nat → JsString → JsString → Nat → JsString
  | 0, _, _, carry => if 0 < carry then [digitUnit (carry % 10)] else []
  | offsets + 1, left, right, carry =>
    let total := (left.head?.map digitValue).getD 0 + (right.head?.map digitValue).getD 0 + carry
    digitUnit (total % 10) :: addDigits offsets left.tail right.tail (total / 10)

def addMagnitude (left right : JsString) : JsString :=
  (addDigits (max left.length right.length) left.reverse right.reverse 0).reverse

/-- The loop of `subtractMagnitude`. -/
def subtractDigits : JsString → JsString → Nat → JsString
  | [], _, _ => []
  | unit :: left, right, borrow =>
    let digit : Int := digitValue unit - borrow
    let rightDigit : Int := (right.head?.map digitValue).getD 0
    if digit < rightDigit then
      digitUnit (digit + 10 - rightDigit).toNat :: subtractDigits left right.tail 1
    else digitUnit (digit - rightDigit).toNat :: subtractDigits left right.tail 0

def subtractMagnitude (left right : JsString) : JsString :=
  orZero (stripLeadingZeros (subtractDigits left.reverse right.reverse 0).reverse)

def adjustSignedDecimal (value : JsString) (adjustment : Int) : JsString :=
  let left := signedDecimal value
  let right := signedDecimal (integerText adjustment)
  if left.negative = right.negative then
    signedMagnitude left.negative (addMagnitude left.digits right.digits)
  else
    match compareMagnitude left.digits right.digits with
    | .eq => js "0"
    | .gt => signedMagnitude left.negative (subtractMagnitude left.digits right.digits)
    | .lt => signedMagnitude right.negative (subtractMagnitude right.digits left.digits)

/-- The digits without the zeros at their end, and how many those were. -/
def splitTrailingZeros (digits : JsString) : JsString × Nat :=
  let trailingZeros := (digits.reverse.takeWhile (· = 0x30)).length
  (digits.take (digits.length - trailingZeros), trailingZeros)

def normalizeJsonNumber (value : JsString) : JsString :=
  match matchDecimal value with
  | none => value
  | some found =>
    let digits := stripLeadingZeros (found.integer ++ found.fraction)
    if digits = [] then js "0"
    else
      let (digits, trailingZeros) := splitTrailingZeros digits
      let exponentAdjustment : Int := -found.fraction.length + trailingZeros
      found.minus ++ digits ++ js "e" ++
        adjustSignedDecimal (found.exponent.getD (js "0")) exponentAdjustment

/-! ## Values -/

/-- The loop of `duplicateMemberNames`; what it has reported is what it has found. -/
def collectDuplicates (seen duplicates : List JsString) : WireJsonObject → List JsString
  | [] => duplicates
  | (key, _) :: members =>
    if key ∈ seen then
      collectDuplicates seen (if key ∈ duplicates then duplicates else duplicates ++ [key]) members
    else collectDuplicates (seen ++ [key]) duplicates members

def duplicateMemberNames (object : WireJsonObject) : List JsString :=
  collectDuplicates [] [] object

/-- `new Map(members).get(key)`: the last member of that name. -/
def lastMember (members : WireJsonObject) (key : JsString) : Option WireJson :=
  (memberValues members key).getLast?

mutual

def equalWireJson : WireJson → WireJson → Bool
  | .number left, right =>
    match right with
    | .number right => normalizeJsonNumber left = normalizeJsonNumber right
    | _ => false
  | .array left, right =>
    match right with
    | .array right => left.length = right.length && equalItems left right
    | _ => false
  | .object left, right =>
    match right with
    | .object right =>
      if left.length ≠ right.length ∨ 0 < (duplicateMemberNames left).length ∨
          0 < (duplicateMemberNames right).length then false
      else equalMembers left right
    | _ => false
  | .null, right => right = .null
  | .bool left, right => right = .bool left
  | .string left, right => right = .string left

/-- `left.items.every(…)`. -/
def equalItems : List WireJson → List WireJson → Bool
  | [], _ => true
  | _ :: _, [] => false
  | left :: lefts, right :: rights => equalWireJson left right && equalItems lefts rights

/-- `left.members.every(…)`, with the members that the map is made of. -/
def equalMembers : WireJsonObject → WireJsonObject → Bool
  | [], _ => true
  | (key, value) :: members, right =>
    (match lastMember right key with
      | some found => equalWireJson value found
      | none => false) && equalMembers members right

end

def sameToolArguments (left right : JsString) : Bool :=
  let parse (text : JsString) : Except WireJsonError WireJson :=
    parseWireJson (encodeUtf8 text) ⟨max 1 (encodeUtf8 text).length, 32⟩
  match parse left, parse right with
  | .ok (.object left), .ok (.object right) => equalWireJson (.object left) (.object right)
  | _, _ => false

end GhcGateway.Conversion
