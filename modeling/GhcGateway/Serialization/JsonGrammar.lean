/-
# The JSON grammar

RFC 8259 as a relation between texts and values, written without reference to
the parser. A text is a list of Unicode scalar values, so that a byte sequence
is well formed exactly if it is the encoding of one. The value of a text keeps
what the gateway keeps: the code units of a string, the lexeme of a number, and
the items and members in order.

One relation covers values, item lists and member lists: a `Phrase` says which
of them a text spells, and the derivations of all three are one induction.
-/

import GhcGateway.Serialization.WireJson

namespace GhcGateway

namespace JsonGrammar

def encode (text : List Char) : List UInt8 := text.flatMap String.utf8EncodeChar

/-- `ws`. -/
def Blank (text : List Char) : Prop := ∀ c ∈ text, c = ' ' ∨ c = '\t' ∨ c = '\n' ∨ c = '\r'

/-! ## Numbers -/

/-- `1*DIGIT`. -/
def Digits (text : List Char) : Prop := text ≠ [] ∧ ∀ c ∈ text, c.isDigit = true

/-- `int`: a zero, or digits that do not start with one. -/
inductive Integer : List Char → Prop
  | zero : Integer ['0']
  | digits (first : Char) (rest : List Char) (digit : first.isDigit = true) (nonzero : first ≠ '0')
      (digits : ∀ c ∈ rest, c.isDigit = true) : Integer (first :: rest)

/-- `[ frac ]`. -/
inductive Fraction : List Char → Prop
  | none : Fraction []
  | some (digits : List Char) (spelled : Digits digits) : Fraction ('.' :: digits)

/-- `[ exp ]`. -/
inductive Exponent : List Char → Prop
  | none : Exponent []
  | some (marker : Char) (sign digits : List Char) (isMarker : marker = 'e' ∨ marker = 'E')
      (isSign : sign = [] ∨ sign = ['+'] ∨ sign = ['-']) (spelled : Digits digits) :
      Exponent (marker :: sign ++ digits)

inductive Number : List Char → Prop
  | mk (minus integer fraction exponent : List Char) (isMinus : minus = [] ∨ minus = ['-'])
      (isInteger : Integer integer) (isFraction : Fraction fraction)
      (isExponent : Exponent exponent) :
      Number (minus ++ integer ++ fraction ++ exponent)

/-- The lexeme of a number text, which is ASCII. -/
def lexemeOf (text : List Char) : JsString := text.map fun c => UInt16.ofNat c.toNat

/-! ## Strings -/

/-- The code unit a two-character escape stands for. -/
def shortEscape : Char → Option UInt16
  | '"' => some 0x22
  | '\\' => some 0x5C
  | '/' => some 0x2F
  | 'b' => some 0x08
  | 'f' => some 0x0C
  | 'n' => some 0x0A
  | 'r' => some 0x0D
  | 't' => some 0x09
  | _ => none

/-- `HEXDIG`, in either case. -/
def hexDigit (c : Char) : Option Nat :=
  if '0' ≤ c ∧ c ≤ '9' then some (c.toNat - 0x30)
  else if 'A' ≤ c ∧ c ≤ 'F' then some (c.toNat - 0x41 + 10)
  else if 'a' ≤ c ∧ c ≤ 'f' then some (c.toNat - 0x61 + 10)
  else none

/-- What stands between the quotes of a string, and the code units it means. -/
inductive Characters : List Char → JsString → Prop
  | nil : Characters [] []
  | unescaped (c : Char) (printable : 0x20 ≤ c.toNat) (quote : c ≠ '"') (backslash : c ≠ '\\')
      {text : List Char} {value : JsString} (rest : Characters text value) :
      Characters (c :: text) (codePointUnits c.toNat ++ value)
  | escape (marker : Char) (unit : UInt16) (short : shortEscape marker = some unit)
      {text : List Char} {value : JsString} (rest : Characters text value) :
      Characters ('\\' :: marker :: text) (unit :: value)
  | codeUnit (first second third fourth : Char) (a b c d : Nat)
      (isFirst : hexDigit first = some a) (isSecond : hexDigit second = some b)
      (isThird : hexDigit third = some c) (isFourth : hexDigit fourth = some d)
      {text : List Char} {value : JsString} (rest : Characters text value) :
      Characters ('\\' :: 'u' :: first :: second :: third :: fourth :: text)
        (UInt16.ofNat (((a * 0x10 + b) * 0x10 + c) * 0x10 + d) :: value)

/-! ## Values -/

/-- What a text can spell. -/
inductive Phrase
  | value (value : WireJson)
  | items (items : List WireJson)
  | members (members : List (JsString × WireJson))

/-- A text spells a value, the items of an array or the members of an object;
blanks stand around items and members and never around a value. -/
inductive Spells : Phrase → List Char → Prop
  | null : Spells (.value .null) ['n', 'u', 'l', 'l']
  | true : Spells (.value (.bool true)) ['t', 'r', 'u', 'e']
  | false : Spells (.value (.bool false)) ['f', 'a', 'l', 's', 'e']
  | number {text : List Char} (number : Number text) :
      Spells (.value (.number (lexemeOf text))) text
  | string {text : List Char} {value : JsString} (characters : Characters text value) :
      Spells (.value (.string value)) ('"' :: text ++ ['"'])
  | emptyArray {blank : List Char} (isBlank : Blank blank) :
      Spells (.value (.array [])) ('[' :: blank ++ [']'])
  | array {item : WireJson} {items : List WireJson} {text : List Char}
      (spelled : Spells (.items (item :: items)) text) :
      Spells (.value (.array (item :: items))) ('[' :: text ++ [']'])
  | emptyObject {blank : List Char} (isBlank : Blank blank) :
      Spells (.value (.object [])) ('\x7b' :: blank ++ ['\x7d'])
  | object {member : JsString × WireJson} {members : List (JsString × WireJson)}
      {text : List Char} (spelled : Spells (.members (member :: members)) text) :
      Spells (.value (.object (member :: members))) ('\x7b' :: text ++ ['\x7d'])
  | lastItem {item : WireJson} {before text after : List Char} (isBefore : Blank before)
      (spelled : Spells (.value item) text) (isAfter : Blank after) :
      Spells (.items [item]) (before ++ text ++ after)
  | item {item next : WireJson} {items : List WireJson} {before text after rest : List Char}
      (isBefore : Blank before) (spelled : Spells (.value item) text) (isAfter : Blank after)
      (others : Spells (.items (next :: items)) rest) :
      Spells (.items (item :: next :: items)) (before ++ text ++ after ++ ',' :: rest)
  | lastMember {key : JsString} {value : WireJson} {before name middle inner text after : List Char}
      (isBefore : Blank before) (isName : Characters name key) (isMiddle : Blank middle)
      (isInner : Blank inner) (spelled : Spells (.value value) text) (isAfter : Blank after) :
      Spells (.members [(key, value)])
        (before ++ ('"' :: name ++ ['"']) ++ middle ++ ':' :: (inner ++ text ++ after))
  | member {key : JsString} {value : WireJson} {next : JsString × WireJson}
      {members : List (JsString × WireJson)}
      {before name middle inner text after rest : List Char}
      (isBefore : Blank before) (isName : Characters name key) (isMiddle : Blank middle)
      (isInner : Blank inner) (spelled : Spells (.value value) text) (isAfter : Blank after)
      (others : Spells (.members (next :: members)) rest) :
      Spells (.members ((key, value) :: next :: members))
        (before ++ ('"' :: name ++ ['"']) ++ middle ++
          ':' :: (inner ++ text ++ after ++ ',' :: rest))

/-- `JSON-text`: one value with blanks around it. -/
def Text (text : List Char) (value : WireJson) : Prop :=
  ∃ before body after, Blank before ∧ Spells (.value value) body ∧ Blank after ∧
    text = before ++ body ++ after

end JsonGrammar

namespace WireJson

mutual

/-- How deep arrays and objects nest in a value. -/
def nesting : WireJson → Nat
  | .array items => nestingItems items + 1
  | .object members => nestingMembers members + 1
  | _ => 0

def nestingItems : List WireJson → Nat
  | [] => 0
  | item :: items => max (nesting item) (nestingItems items)

def nestingMembers : List (JsString × WireJson) → Nat
  | [] => 0
  | (_, value) :: members => max (nesting value) (nestingMembers members)

end

mutual

/-- Every number lexeme in a value is a number. -/
def WellFormed : WireJson → Prop
  | .number lexeme => ∃ text, JsonGrammar.Number text ∧ lexeme = JsonGrammar.lexemeOf text
  | .array items => WellFormedItems items
  | .object members => WellFormedMembers members
  | _ => True

/-- Every number lexeme in some items is a number. -/
def WellFormedItems : List WireJson → Prop
  | [] => True
  | item :: items => WellFormed item ∧ WellFormedItems items

/-- Every number lexeme in some members is a number. -/
def WellFormedMembers : List (JsString × WireJson) → Prop
  | [] => True
  | (_, value) :: members => WellFormed value ∧ WellFormedMembers members

end

end WireJson

end GhcGateway
