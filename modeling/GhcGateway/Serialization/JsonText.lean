/-
# JSON in texts

What `JSON.stringify` writes, `JSON.parse` reads back, also through the UTF-8 bytes of a
buffer. Integers are written in decimal digits and read back as the same doubles as long as
they are safe.
-/

import GhcGateway.Serialization.JsonSerializer
import GhcGateway.Serialization.Number
import GhcGateway.Serialization.TextCodec

namespace GhcGateway

open JsonGrammar

variable {value : WireJson} {bytes : List UInt8} {digits : List Char} {c : Char}

/-! ## Texts and values -/

/-- `bytes.toString("utf8")`, from between two bytes on. What is no character is replaced,
and the byte that shows it is read anew unless it is the first. -/
def utf8Text : Utf8Decoder → List UInt8 → JsString
  | decoder, [] => if decoder.bytesNeeded = 0 then [] else [0xFFFD]
  | decoder, byte :: bytes =>
    match decoder.step byte with
    | some (next, units) => units ++ utf8Text next bytes
    | none =>
      if decoder.bytesNeeded = 0 then 0xFFFD :: utf8Text .initial bytes
      else
        match Utf8Decoder.initial.step byte with
        | some (next, units) => 0xFFFD :: (units ++ utf8Text next bytes)
        | none => 0xFFFD :: 0xFFFD :: utf8Text .initial bytes

/-- `JSON.stringify`. It writes strings and numbers as the gateway's own serializer does, and
does not fail on a value whose lexemes are numbers. -/
def jsonStringify (value : WireJson) : JsString :=
  match serializeWireJson value with
  | .ok bytes => decodeText bytes
  | .error _ => []

/-- `JSON.parse`, `none` where it throws. -/
def jsonParse (text : JsString) : Option WireJson :=
  match Parser.parseDocument (encodeUtf8 text).length (encodeUtf8 text) with
  | .ok value => some value
  | .error _ => none

theorem utf8Text_of_decode {decoder last : Utf8Decoder} {text : JsString}
    (decoded : decoder.decode bytes = some (last, text)) (whole : last.bytesNeeded = 0) :
    utf8Text decoder bytes = text := by
  induction bytes generalizing decoder text with
  | nil =>
    cases decoded
    rw [utf8Text, if_pos whole]
  | cons byte bytes ih =>
    obtain ⟨⟨next, units⟩, stepped, decoded⟩ := Option.bind_eq_some_iff.mp decoded
    obtain ⟨⟨final, more⟩, others, same⟩ := Option.bind_eq_some_iff.mp decoded
    cases same
    rw [utf8Text, stepped]
    dsimp only
    rw [ih others]

/-- The text of a value has the bytes that the serializer writes. -/
theorem encodeUtf8_jsonStringify (written : serializeWireJson value = .ok bytes) :
    encodeUtf8 (jsonStringify value) = bytes := by
  obtain ⟨text, rfl, -⟩ := serializeWireJson_eq_ok written
  rw [jsonStringify, written]
  dsimp only
  rw [decodeText_encode, encodeUtf8_textUnits]

/-- The text of a value, with what it spells. -/
theorem jsonStringify_spec (wellFormed : value.WellFormed) :
    ∃ text, encodeUtf8 (jsonStringify value) = encode text ∧ Spells (.value value) text := by
  obtain ⟨text, written, spelled⟩ := writeValue_spec value wellFormed
  exact ⟨text, encodeUtf8_jsonStringify written, spelled⟩

/-- A flat value is read back from the bytes of its text. -/
theorem jsonParse_jsonStringify (wellFormed : value.WellFormed) (flat : value.nesting ≤ 1) :
    jsonParse (utf8Text .initial (encodeUtf8 (jsonStringify value))) = some value := by
  obtain ⟨text, written, spelled⟩ := jsonStringify_spec wellFormed
  obtain ⟨byte, tail, shape, -, -⟩ := Parser.value_head spelled
  have nonempty : 1 ≤ (encode text).length := by
    rw [shape, List.length_cons]
    exact Nat.succ_pos tail.length
  have parsed : Parser.parseDocument (encode text).length (encode text) = .ok value := by
    apply Parser.parseDocument_iff.mpr
    refine ⟨text, rfl, ⟨[], text, [], Parser.blank_nil, spelled, Parser.blank_nil, ?_⟩,
      flat.trans nonempty⟩
    rw [List.nil_append, List.append_nil]
  rw [written, utf8Text_of_decode (Utf8Decoder.decode_encode text) rfl, jsonParse,
    encodeUtf8_textUnits, parsed]

theorem encodeUtf8_jsonStringify_ne_nil (wellFormed : value.WellFormed) :
    encodeUtf8 (jsonStringify value) ≠ [] := by
  obtain ⟨text, written, spelled⟩ := jsonStringify_spec wellFormed
  obtain ⟨byte, tail, shape, -, -⟩ := Parser.value_head spelled
  rw [written, shape]
  exact List.cons_ne_nil byte tail

/-! ### Lengths -/

theorem length_utf8Bytes (point : Nat) :
    1 ≤ (utf8Bytes point).length ∧ (utf8Bytes point).length ≤ 4 ∧
      (0x10000 ≤ point → 4 ≤ (utf8Bytes point).length) := by
  rw [utf8Bytes]
  split_ifs
  all_goals
    simp only [List.length_cons, List.length_nil]
    exact ⟨by omega, by omega, fun large => by omega⟩

theorem length_writeCharacter (point : Nat) :
    1 ≤ (writeCharacter point).length ∧ (writeCharacter point).length ≤ 6 ∧
      (0x10000 ≤ point → 2 ≤ (writeCharacter point).length) := by
  have whole := length_utf8Bytes point
  rw [writeCharacter]
  split_ifs
  case neg => omega
  all_goals
    simp only [hexCodeUnit, List.length_append, List.length_map, List.length_cons, List.length_nil]
    exact ⟨by omega, by omega, fun large => by omega⟩

/-- A string has no fewer bytes than code units, and six times as many at most, besides its
quotes. -/
theorem length_writeJsonString (value : JsString) :
    value.length + 2 ≤ (writeJsonString value).length ∧
      (writeJsonString value).length ≤ 6 * value.length + 2 := by
  have characters : value.length ≤ (value.codePoints.flatMap writeCharacter).length ∧
      (value.codePoints.flatMap writeCharacter).length ≤ 6 * value.length := by
    fun_induction JsString.codePoints value with
    | case1 => exact ⟨Nat.le_refl 0, Nat.le_refl 0⟩
    | case2 unit =>
      have one := length_writeCharacter unit.toNat
      simp only [List.flatMap_cons, List.flatMap_nil, List.append_nil, List.length_cons,
        List.length_nil]
      omega
    | case3 first second rest pair ih =>
      have one := length_writeCharacter
        (0x10000 + (first.toNat - 0xD800) * 0x400 + (second.toNat - 0xDC00))
      simp only [List.flatMap_cons, List.length_append, List.length_cons]
      omega
    | case4 first second rest single ih =>
      have one := length_writeCharacter first.toNat
      simp only [List.flatMap_cons, List.length_append, List.length_cons] at ih ⊢
      omega
  rw [writeJsonString, List.length_append, List.length_append]
  simp only [List.length_cons, List.length_nil]
  omega

/-! ## Integers -/

def integerText (value : Int) : List Char :=
  if 0 ≤ value then Nat.toDigits 10 value.toNat else '-' :: Nat.toDigits 10 (-value).toNat

theorem isDigit_of_toDigits (value : Nat) : ∀ c ∈ Nat.toDigits 10 value, c.isDigit = true :=
  fun _ member => Nat.isDigit_of_mem_toDigits (by decide) (by decide) member

theorem toNat_le_of_isDigit (digit : c.isDigit = true) :
    0x30 ≤ c.toNat ∧ c.toNat ≤ 0x39 := (Parser.charIsDigit_iff c).mp digit

/-- An ASCII literal is its own lexeme. -/
theorem js_eq_lexemeOf {text : String} (ascii : ∀ c ∈ text.toList, c.toNat < 0x80) :
    js text = lexemeOf text.toList := by
  rw [js, lexemeOf]
  generalize text.toList = characters at ascii
  induction characters with
  | nil => rfl
  | cons c characters ih =>
    have small : c.toNat < 0x10000 := (ascii c List.mem_cons_self).trans (by decide)
    rw [List.flatMap_cons, codePointUnits, if_pos small,
      ih fun other member => ascii other (List.mem_cons_of_mem c member)]
    rfl

theorem toList_toString (value : Int) : (toString value).toList = integerText value := by
  rw [Int.toString_eq_repr, Int.repr_eq_if, integerText]
  split
  · exact Nat.toList_repr
  · rw [String.toList_append, Nat.toList_repr]
    rfl

theorem ascii_integerText (value : Int) : ∀ c ∈ integerText value, c.toNat < 0x80 := by
  have digits (value : Nat) : ∀ c ∈ Nat.toDigits 10 value, c.toNat < 0x80 := fun c member =>
    (toNat_le_of_isDigit (isDigit_of_toDigits value c member)).2.trans_lt (by decide)
  rw [integerText]
  split
  · exact digits value.toNat
  · intro c member
    cases List.mem_cons.mp member with
    | inl minus => exact minus ▸ by decide
    | inr digit => exact digits _ c digit

theorem js_toString (value : Int) : js (toString value) = lexemeOf (integerText value) := by
  rw [js_eq_lexemeOf, toList_toString]
  rw [toList_toString]
  exact ascii_integerText value

/-- The digits of a positive number do not start with a zero. -/
theorem toDigits_cons {value : Nat} (positive : 0 < value) :
    ∃ first rest, Nat.toDigits 10 value = first :: rest ∧ first ≠ '0' := by
  induction value using Nat.strong_induction_on with
  | h value ih =>
    by_cases small : value < 10
    · refine ⟨value.digitChar, [], Nat.toDigits_of_lt_base small, ?_⟩
      have all : ∀ digit : Fin 10, 0 < digit.val → digit.val.digitChar ≠ '0' := by decide
      exact all ⟨value, small⟩ positive
    · have large := Nat.not_lt.mp small
      obtain ⟨first, rest, same, nonzero⟩ :=
        ih (value / 10) (Nat.div_lt_self positive (by decide)) (Nat.div_pos large (by decide))
      refine ⟨first, rest ++ [(value % 10).digitChar], ?_, nonzero⟩
      rw [Nat.toDigits_of_base_le (by decide) large, same]
      rfl

theorem integer_toDigits (value : Nat) : Integer (Nat.toDigits 10 value) := by
  cases Nat.eq_zero_or_pos value with
  | inl zero =>
    rw [zero, Nat.toDigits_zero]
    exact .zero
  | inr positive =>
    obtain ⟨first, rest, same, nonzero⟩ := toDigits_cons positive
    have digits := isDigit_of_toDigits value
    rw [same] at digits ⊢
    exact .digits first rest (digits first List.mem_cons_self) nonzero fun c member =>
      digits c (List.mem_cons_of_mem first member)

theorem number_integerText (value : Int) : Number (integerText value) := by
  rw [integerText]
  split
  · have number := Number.mk [] _ [] [] (.inl rfl) (integer_toDigits value.toNat) .none .none
    simpa using number
  · have number := Number.mk ['-'] _ [] [] (.inr rfl) (integer_toDigits (-value).toNat) .none .none
    simpa using number

/-! ### Reading integers -/

theorem toNat_lexeme (digit : c.isDigit = true) : (UInt16.ofNat c.toNat).toNat = c.toNat := by
  have := toNat_le_of_isDigit digit
  rw [UInt16.toNat_ofNat']
  omega

theorem digitsValue_lexemeOf (isDigits : ∀ c ∈ digits, c.isDigit = true) :
    digitsValue (lexemeOf digits) = Nat.ofDigitChars 10 digits 0 := by
  rw [digitsValue, lexemeOf, Nat.ofDigitChars_eq_foldl, List.foldl_map]
  apply List.foldl_ext
  intro value c member
  rw [toNat_lexeme (isDigits c member), Nat.mul_comm]
  rfl

/-- The parts of a lexeme of digits after its sign. -/
theorem decimalLexeme_digits (negative : Bool) (isDigits : ∀ c ∈ digits, c.isDigit = true) :
    decimalLexeme ((if negative then [0x2D] else []) ++ lexemeOf digits) =
      ⟨negative, Nat.ofDigitChars 10 digits 0, 0⟩ := by
  have isDigitUnit : ∀ unit ∈ lexemeOf digits,
      (decide (0x30 ≤ unit) && decide (unit ≤ 0x39)) = true ∧ unit ≠ 0x2D := by
    intro unit member
    obtain ⟨c, isChar, rfl⟩ := List.mem_map.mp member
    have value := toNat_le_of_isDigit (isDigits c isChar)
    have same := toNat_lexeme (isDigits c isChar)
    constructor
    · rw [Bool.and_eq_true, decide_eq_true_eq, decide_eq_true_eq, UInt16.le_iff_toNat_le,
        UInt16.le_iff_toNat_le, same]
      exact value
    · intro minus
      rw [minus] at same
      have : (0x2D : UInt16).toNat = 0x2D := rfl
      omega
  have taken : (lexemeOf digits).takeWhile
      (fun unit => decide (0x30 ≤ unit) && decide (unit ≤ 0x39)) = lexemeOf digits :=
    List.takeWhile_eq_self_iff.mpr fun unit member => (isDigitUnit unit member).1
  have value := digitsValue_lexemeOf isDigits
  have noExponent : digitsValue [] = 0 := rfl
  cases negative with
  | false =>
    have positive : (lexemeOf digits).head? ≠ some 0x2D := by
      intro head
      exact (isDigitUnit 0x2D (List.mem_of_mem_head? head)).2 rfl
    show decimalLexeme (lexemeOf digits) = _
    unfold decimalLexeme
    simp [positive, taken, value, noExponent]
  | true =>
    show decimalLexeme (0x2D :: lexemeOf digits) = _
    unfold decimalLexeme
    simp [taken, value, noExponent]

theorem decimalLexeme_integerText (value : Int) :
    decimalLexeme (lexemeOf (integerText value)) = ⟨decide (value < 0), value.natAbs, 0⟩ := by
  rw [integerText]
  split
  case isTrue positive =>
    have parts := decimalLexeme_digits false (isDigit_of_toDigits value.toNat)
    rw [Nat.ofDigitChars_ten_toDigits] at parts
    have same : value.toNat = value.natAbs := by omega
    rw [decide_eq_false (Int.not_lt.mpr positive), ← same]
    exact parts
  case isFalse negative =>
    have parts := decimalLexeme_digits true (isDigit_of_toDigits (-value).toNat)
    rw [Nat.ofDigitChars_ten_toDigits] at parts
    have same : (-value).toNat = value.natAbs := by omega
    rw [decide_eq_true (Int.not_le.mp negative), ← same]
    exact parts

theorem nearestDoubleInteger_of_small {value : Nat} (small : value < 2 ^ 53) :
    nearestDoubleInteger value 1 = some value := by
  rw [nearestDoubleInteger]
  split
  case isTrue zero => rw [zero]
  case isFalse nonzero =>
    have exponent : binaryExponent value 1 = Nat.log2 value := by
      have below : 2 ^ value.log2 ≤ value := Nat.log2_self_le nonzero
      have unit : Nat.log2 1 = 0 := rfl
      simp [binaryExponent, powerOfTwo, below, unit]
    have finite (exponent : Nat) (large : 53 ≤ exponent) : value < 2 ^ exponent :=
      Nat.lt_of_lt_of_le small (Nat.pow_le_pow_right Nat.two_pos large)
    have small : value.log2 < 53 := (Nat.log2_lt nonzero).mpr small
    have spacing : powerOfTwo (max (binaryExponent value 1 - 52) (-1074)) =
        (1, 2 ^ (52 - value.log2)) := by
      have same : max (binaryExponent value 1 - 52) (-1074) = -((52 - value.log2 : Nat) : Int) := by
        rw [exponent]
        omega
      rw [same, powerOfTwo]
      split
      case isTrue nonnegative =>
        have zero : 52 - value.log2 = 0 := by omega
        rw [zero]
        rfl
      case isFalse => rw [Int.neg_neg, Int.toNat_natCast]
    have positive := Nat.two_pow_pos (52 - value.log2)
    dsimp only
    rw [spacing]
    dsimp only
    simp only [Nat.mul_one, divideHalfEven_one, Nat.mul_mod_left, if_true,
      Nat.mul_div_cancel _ positive]
    exact if_pos (finite _ (by decide))

/-- A safe integer is read back from its decimal text. -/
theorem jsInteger_toString {value : Int} (safe : value.natAbs < 2 ^ 53) :
    jsInteger (js (toString value)) = some value := by
  rw [js_toString, jsInteger, decimalLexeme_integerText]
  simp only [Int.toNat_zero, Int.neg_zero, Nat.pow_zero, Nat.mul_one,
    nearestDoubleInteger_of_small safe, decide_eq_true_eq]
  show some (if value < 0 then -(value.natAbs : Int) else value.natAbs) = some value
  congr 1
  split
  · omega
  · omega

theorem jsSafeInteger_toString {value : Int} (safe : value.natAbs < 2 ^ 53) :
    jsSafeInteger (js (toString value)) = some value := by
  rw [jsSafeInteger, jsInteger_toString safe, Option.filter_some, if_pos (decide_eq_true safe)]

end GhcGateway
