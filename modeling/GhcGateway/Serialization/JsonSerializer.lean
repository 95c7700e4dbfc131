/-
# The serializer writes the grammar

What `serializeWireJson` writes is a JSON text of the value it was given: every
escape it writes is one the grammar knows, a surrogate pair is written as the
one character it is, and an unpaired surrogate as an escape of its own. With the
parser reading every JSON text, serializing and parsing is the identity.
-/

import GhcGateway.Library.Fallible
import GhcGateway.Serialization.JsonParser

namespace GhcGateway

open JsonGrammar

variable {lexeme units : JsString} {unit second first : UInt16} {text : List Char}
  {value : WireJson}

/-! ## Number lexemes -/

theorem mem_unitClass : lexeme ∈ (unitClass units).matches' ↔ ∃ unit ∈ units, lexeme = [unit] := by
  induction units with
  | nil => simp [unitClass, Language.notMem_zero]
  | cons unit units ih =>
    rw [unitClass, List.map_cons, List.sum_cons, RegularExpression.matches'_add, Language.mem_add,
      RegularExpression.matches'_char, ← unitClass, ih]
    show (lexeme = [unit] ∨ _) ↔ _
    simp

theorem mem_optional {pattern : RegularExpression UInt16} :
    lexeme ∈ (1 + pattern).matches' ↔ lexeme = [] ∨ lexeme ∈ pattern.matches' := by
  rw [RegularExpression.matches'_add, Language.mem_add, RegularExpression.matches'_epsilon,
    Language.mem_one]

theorem mem_unitClass_star :
    lexeme ∈ (unitClass units).star.matches' ↔ ∀ unit ∈ lexeme, unit ∈ units := by
  rw [RegularExpression.matches'_star, Language.mem_kstar]
  constructor
  · rintro ⟨parts, rfl, inside⟩ unit member
    obtain ⟨part, ofParts, ofPart⟩ := List.mem_flatten.mp member
    obtain ⟨other, ofClass, rfl⟩ := mem_unitClass.mp (inside part ofParts)
    rw [List.mem_singleton.mp ofPart]
    exact ofClass
  · intro all
    refine ⟨lexeme.map fun unit => [unit], ?_, ?_⟩
    · rw [← List.flatMap_def, List.flatMap_singleton']
    · intro part member
      obtain ⟨unit, ofLexeme, rfl⟩ := List.mem_map.mp member
      exact mem_unitClass.mpr ⟨unit, all unit ofLexeme, rfl⟩

theorem mem_product {first second : RegularExpression UInt16} :
    lexeme ∈ (first * second).matches' ↔
      ∃ front ∈ first.matches', ∃ back ∈ second.matches', front ++ back = lexeme := by
  rw [RegularExpression.matches'_mul, Language.mem_mul]

/-- The digits of a lexeme and those of a text. -/
theorem mem_digits_iff : unit ∈ js "0123456789" ↔
    0x30 ≤ unit.toNat ∧ unit.toNat ≤ 0x39 := by
  have digits : js "0123456789" = [0x30, 0x31, 0x32, 0x33, 0x34, 0x35, 0x36, 0x37, 0x38, 0x39] := by
    rfl
  rw [digits]
  simp only [List.mem_cons, List.not_mem_nil, or_false, ← UInt16.toNat_inj]
  simp only [UInt16.reduceToNat]
  omega

theorem mem_nonzero_iff : unit ∈ js "123456789" ↔
    0x31 ≤ unit.toNat ∧ unit.toNat ≤ 0x39 := by
  have digits : js "123456789" = [0x31, 0x32, 0x33, 0x34, 0x35, 0x36, 0x37, 0x38, 0x39] := by
    rfl
  rw [digits]
  simp only [List.mem_cons, List.not_mem_nil, or_false, ← UInt16.toNat_inj]
  simp only [UInt16.reduceToNat]
  omega

def LexemeOf (kind : List Char → Prop) (lexeme : JsString) : Prop :=
  ∃ text, kind text ∧ lexeme = lexemeOf text

theorem lexemeOf_append (text more : List Char) :
    lexemeOf (text ++ more) = lexemeOf text ++ lexemeOf more := List.map_append

/-- The character of an ASCII code unit. -/
theorem exists_char (ascii : unit.toNat < 0x80) :
    ∃ c : Char, c.toNat = unit.toNat ∧ lexemeOf [c] = [unit] := by
  have same : (Char.ofNat unit.toNat).toNat = unit.toNat := toNat_ofNat_of_lt ascii
  refine ⟨Char.ofNat unit.toNat, same, ?_⟩
  rw [lexemeOf, List.map_singleton, same, UInt16.ofNat_toNat]

theorem toNat_lexemeOf {c : Char} (ascii : c.toNat < 0x80) :
    (UInt16.ofNat c.toNat).toNat = c.toNat := by
  rw [UInt16.toNat_ofNat']
  omega

theorem digits_star_iff :
    lexeme ∈ (unitClass (js "0123456789")).star.matches' ↔
      LexemeOf (fun text => ∀ c ∈ text, c.isDigit = true) lexeme := by
  rw [mem_unitClass_star]
  constructor
  · intro digits
    induction lexeme with
    | nil => exact ⟨[], fun c member => absurd member List.not_mem_nil, rfl⟩
    | cons unit lexeme ih =>
      have bounds := mem_digits_iff.mp (digits unit List.mem_cons_self)
      obtain ⟨c, value, spelled⟩ := exists_char (show unit.toNat < 0x80 by omega)
      obtain ⟨text, all, rfl⟩ := ih fun other member => digits other (List.mem_cons_of_mem _ member)
      refine ⟨c :: text, ?_, ?_⟩
      · intro other member
        rcases List.mem_cons.mp member with rfl | member
        · rw [Parser.charIsDigit_iff, value]
          exact bounds
        · exact all other member
      · rw [← List.singleton_append, ← spelled, ← lexemeOf_append]
        rfl
  · rintro ⟨text, all, rfl⟩ unit member
    obtain ⟨c, ofText, rfl⟩ := List.mem_map.mp member
    have bounds := (Parser.charIsDigit_iff c).mp (all c ofText)
    rw [mem_digits_iff, toNat_lexemeOf (by omega)]
    exact bounds

theorem digits_iff :
    lexeme ∈ (unitClass (js "0123456789") * (unitClass (js "0123456789")).star).matches' ↔
      LexemeOf Digits lexeme := by
  rw [mem_product]
  constructor
  · rintro ⟨front, isFront, back, isBack, rfl⟩
    obtain ⟨unit, isDigit, rfl⟩ := mem_unitClass.mp isFront
    obtain ⟨text, all, shape⟩ := digits_star_iff.mp <| mem_unitClass_star.mpr
      (fun other member => (List.mem_cons.mp member).elim (fun same => same ▸ isDigit)
        (mem_unitClass_star.mp isBack other))
    refine ⟨text, ⟨?_, all⟩, shape⟩
    rintro rfl
    cases shape
  · rintro ⟨text, ⟨some, all⟩, rfl⟩
    obtain ⟨c, text, rfl⟩ := List.exists_cons_of_ne_nil some
    have inside := mem_unitClass_star.mp (digits_star_iff.mpr ⟨_, all, rfl⟩)
    refine ⟨lexemeOf [c], mem_unitClass.mpr ⟨_, inside _ List.mem_cons_self, rfl⟩, lexemeOf text,
      mem_unitClass_star.mpr fun other member => inside other (List.mem_cons_of_mem _ member), rfl⟩

theorem integer_iff :
    lexeme ∈ (unitClass (js "0") +
        unitClass (js "123456789") * (unitClass (js "0123456789")).star).matches' ↔
      LexemeOf Integer lexeme := by
  rw [RegularExpression.matches'_add, Language.mem_add, mem_product]
  constructor
  · rintro (zero | ⟨front, isFront, back, isBack, rfl⟩)
    · obtain ⟨unit, isZero, rfl⟩ := mem_unitClass.mp zero
      rw [List.mem_singleton.mp isZero]
      exact ⟨['0'], .zero, rfl⟩
    · obtain ⟨unit, isNonzero, rfl⟩ := mem_unitClass.mp isFront
      obtain ⟨text, all, rfl⟩ := digits_star_iff.mp isBack
      have bounds := mem_nonzero_iff.mp isNonzero
      obtain ⟨c, value, spelled⟩ := exists_char (show unit.toNat < 0x80 by omega)
      refine ⟨c :: text, .digits c text ?_ ?_ all, ?_⟩
      · rw [Parser.charIsDigit_iff]
        omega
      · rintro rfl
        have : '0'.toNat = 0x30 := rfl
        omega
      · rw [← spelled, ← lexemeOf_append]
        rfl
  · rintro ⟨text, integer, rfl⟩
    cases integer with
    | zero => exact .inl (mem_unitClass.mpr ⟨0x30, List.mem_singleton.mpr rfl, rfl⟩)
    | digits first rest digit nonzero digits =>
      have bounds := (Parser.charIsDigit_iff first).mp digit
      have notZero : first.toNat ≠ 0x30 := fun same => nonzero (Char.toNat_inj.mp same)
      refine .inr ⟨lexemeOf [first], mem_unitClass.mpr ⟨_, ?_, rfl⟩, lexemeOf rest,
        digits_star_iff.mpr ⟨rest, digits, rfl⟩, rfl⟩
      rw [mem_nonzero_iff, toNat_lexemeOf (by omega)]
      omega

theorem fraction_iff :
    lexeme ∈ (1 + unitClass (js ".") *
        (unitClass (js "0123456789") * (unitClass (js "0123456789")).star)).matches' ↔
      LexemeOf Fraction lexeme := by
  rw [mem_optional, mem_product]
  constructor
  · rintro (rfl | ⟨front, isFront, back, isBack, rfl⟩)
    · exact ⟨[], .none, rfl⟩
    · obtain ⟨unit, isPoint, rfl⟩ := mem_unitClass.mp isFront
      obtain ⟨text, digits, rfl⟩ := digits_iff.mp isBack
      rw [List.mem_singleton.mp isPoint]
      exact ⟨'.' :: text, .some text digits, rfl⟩
  · rintro ⟨text, fraction, rfl⟩
    cases fraction with
    | none => exact .inl rfl
    | some digits spelled =>
      exact .inr ⟨[0x2E], mem_unitClass.mpr ⟨_, List.mem_singleton.mpr rfl, rfl⟩, lexemeOf digits,
        digits_iff.mpr ⟨digits, spelled, rfl⟩, rfl⟩

/-- An optional character that is one of two. -/
theorem mem_either {pattern : JsString} (units : pattern = [first, second]) :
    lexeme ∈ (unitClass pattern).matches' ↔ lexeme = [first] ∨ lexeme = [second] := by
  rw [mem_unitClass, units]
  simp

theorem exponent_iff :
    lexeme ∈ (1 + unitClass (js "eE") * (1 + unitClass (js "+-")) *
        (unitClass (js "0123456789") * (unitClass (js "0123456789")).star)).matches' ↔
      LexemeOf Exponent lexeme := by
  have markers : js "eE" = [0x65, 0x45] := rfl
  have signs : js "+-" = [0x2B, 0x2D] := rfl
  rw [mem_optional, mem_product]
  constructor
  · rintro (rfl | ⟨front, isFront, back, isBack, rfl⟩)
    · exact ⟨[], .none, rfl⟩
    · obtain ⟨marker, isMarker, sign, isSign, rfl⟩ := mem_product.mp isFront
      obtain ⟨text, digits, rfl⟩ := digits_iff.mp isBack
      have signed : ∃ chars, (chars = [] ∨ chars = ['+'] ∨ chars = ['-']) ∧
          sign = lexemeOf chars := by
        rcases mem_optional.mp isSign with rfl | isSign
        · exact ⟨[], .inl rfl, rfl⟩
        · rcases (mem_either signs).mp isSign with rfl | rfl
          · exact ⟨['+'], .inr (.inl rfl), rfl⟩
          · exact ⟨['-'], .inr (.inr rfl), rfl⟩
      obtain ⟨chars, plusOrMinus, rfl⟩ := signed
      rcases (mem_either markers).mp isMarker with rfl | rfl
      · refine ⟨'e' :: chars ++ text, .some 'e' chars text (.inl rfl) plusOrMinus digits, ?_⟩
        rw [lexemeOf_append]
        rfl
      · refine ⟨'E' :: chars ++ text, .some 'E' chars text (.inr rfl) plusOrMinus digits, ?_⟩
        rw [lexemeOf_append]
        rfl
  · rintro ⟨text, exponent, rfl⟩
    cases exponent with
    | none => exact .inl rfl
    | some marker sign digits isMarker isSign spelled =>
      refine .inr ⟨lexemeOf (marker :: sign), mem_product.mpr ⟨lexemeOf [marker], ?_, lexemeOf sign,
        ?_, rfl⟩, lexemeOf digits, digits_iff.mpr ⟨digits, spelled, rfl⟩, ?_⟩
      · rw [mem_either markers]
        rcases isMarker with rfl | rfl
        · exact .inl rfl
        · exact .inr rfl
      · rw [mem_optional, mem_either signs]
        rcases isSign with rfl | rfl | rfl
        · exact .inl rfl
        · exact .inr (.inl rfl)
        · exact .inr (.inr rfl)
      · rw [← lexemeOf_append]

/-- The pattern of the serializer is the grammar of numbers. -/
theorem isNumberLexeme_iff : isNumberLexeme lexeme = true ↔ LexemeOf Number lexeme := by
  rw [isNumberLexeme, RegularExpression.rmatch_iff_matches', jsonNumberLexeme, mem_product]
  constructor
  · rintro ⟨mantissa, isMantissa, exponent, isExponent, rfl⟩
    obtain ⟨whole, isWhole, fraction, isFraction, rfl⟩ := mem_product.mp isMantissa
    obtain ⟨minus, isMinus, integer, isInteger, rfl⟩ := mem_product.mp isWhole
    obtain ⟨exponent, spelledExponent, rfl⟩ := exponent_iff.mp isExponent
    obtain ⟨fraction, spelledFraction, rfl⟩ := fraction_iff.mp isFraction
    obtain ⟨integer, spelledInteger, rfl⟩ := integer_iff.mp isInteger
    have signed : ∃ chars, (chars = [] ∨ chars = ['-']) ∧ minus = lexemeOf chars := by
      rcases mem_optional.mp isMinus with rfl | isMinus
      · exact ⟨[], .inl rfl, rfl⟩
      · obtain ⟨unit, isUnit, rfl⟩ := mem_unitClass.mp isMinus
        rw [List.mem_singleton.mp isUnit]
        exact ⟨['-'], .inr rfl, rfl⟩
    obtain ⟨chars, negative, rfl⟩ := signed
    refine ⟨_, .mk chars integer fraction exponent negative spelledInteger spelledFraction
      spelledExponent, ?_⟩
    rw [lexemeOf_append, lexemeOf_append, lexemeOf_append]
  · rintro ⟨text, number, rfl⟩
    obtain ⟨minus, integer, fraction, exponent, isMinus, isInteger, isFraction, isExponent⟩ :=
      number
    have signed : lexemeOf minus ∈ (1 + unitClass (js "-")).matches' := by
      rw [mem_optional]
      rcases isMinus with rfl | rfl
      · exact .inl rfl
      · exact .inr (mem_unitClass.mpr ⟨_, List.mem_singleton.mpr rfl, rfl⟩)
    refine ⟨lexemeOf (minus ++ integer ++ fraction), mem_product.mpr
      ⟨lexemeOf (minus ++ integer), mem_product.mpr
        ⟨lexemeOf minus, signed, lexemeOf integer, integer_iff.mpr ⟨_, isInteger, rfl⟩, ?_⟩,
        lexemeOf fraction, fraction_iff.mpr ⟨_, isFraction, rfl⟩, ?_⟩,
      lexemeOf exponent, exponent_iff.mpr ⟨_, isExponent, rfl⟩, ?_⟩
    · rw [lexemeOf_append]
    · rw [← lexemeOf_append]
    · rw [← lexemeOf_append]

/-! ## Strings -/

/-- The character of a hexadecimal digit as `toString(16)` writes it. -/
def hexChar (nibble : Nat) : Char :=
  Char.ofNat (if nibble < 10 then 0x30 + nibble else 0x57 + nibble)

theorem hexDigit_hexChar {nibble : Nat} (small : nibble < 0x10) :
    hexDigit (hexChar nibble) = some nibble ∧
      String.utf8EncodeChar (hexChar nibble) =
        [if nibble < 10 then UInt8.ofNat (0x30 + nibble) else UInt8.ofNat (0x57 + nibble)] := by
  have all : ∀ n < 0x10, hexDigit (hexChar n) = some n ∧
      String.utf8EncodeChar (hexChar n) =
        [if n < 10 then UInt8.ofNat (0x30 + n) else UInt8.ofNat (0x57 + n)] := by
    set_option maxRecDepth 10000 in decide
  exact all nibble small

/-- What `writeCharacter` writes for a code point is part of a string and means
the code units of that code point. -/
def Written (point : Nat) (units : JsString) : Prop :=
  ∃ escape, writeCharacter point = encode escape ∧
    ∀ text value, Characters text value → Characters (escape ++ text) (units ++ value)

theorem written_short {point : Nat} {marker : Char} (short : shortEscape marker = some unit)
    (writes : writeCharacter point = encode ['\\', marker]) : Written point [unit] :=
  ⟨['\\', marker], writes, fun _ _ characters => .escape marker unit short characters⟩

theorem written_codeUnit (unit : UInt16)
    (writes : writeCharacter unit.toNat = [0x5C, 0x75] ++ hexCodeUnit unit.toNat) :
    Written unit.toNat [unit] := by
  have bound := unit.toNat_lt
  obtain ⟨isFirst, first⟩ := hexDigit_hexChar (Nat.mod_lt (unit.toNat / 0x1000) (by decide))
  obtain ⟨isSecond, second⟩ := hexDigit_hexChar (Nat.mod_lt (unit.toNat / 0x100) (by decide))
  obtain ⟨isThird, third⟩ := hexDigit_hexChar (Nat.mod_lt (unit.toNat / 0x10) (by decide))
  obtain ⟨isFourth, fourth⟩ := hexDigit_hexChar (Nat.mod_lt unit.toNat (by decide))
  refine ⟨['\\', 'u', hexChar (unit.toNat / 0x1000 % 0x10), hexChar (unit.toNat / 0x100 % 0x10),
    hexChar (unit.toNat / 0x10 % 0x10), hexChar (unit.toNat % 0x10)], ?_, ?_⟩
  · rw [writes]
    simp only [encode_cons, encode_nil, first, second, third, fourth]
    rfl
  · intro text value characters
    have same : UInt16.ofNat
        (((unit.toNat / 0x1000 % 0x10 * 0x10 + unit.toNat / 0x100 % 0x10) * 0x10 +
        unit.toNat / 0x10 % 0x10) * 0x10 + unit.toNat % 0x10) = unit := by
      apply UInt16.toNat.inj
      rw [UInt16.toNat_ofNat']
      omega
    have escaped := Characters.codeUnit _ _ _ _ _ _ _ _ isFirst isSecond isThird isFourth characters
    rw [same] at escaped
    exact escaped

theorem written_scalar (c : Char) (printable : 0x20 ≤ c.toNat) (quote : c ≠ '"')
    (backslash : c ≠ '\\') (writes : writeCharacter c.toNat = utf8Bytes c.toNat) :
    Written c.toNat (codePointUnits c.toNat) := by
  refine ⟨[c], ?_, fun text value characters => .unescaped c printable quote backslash characters⟩
  rw [writes, utf8Bytes_toNat, encode_cons, encode_nil, List.append_nil]

/-- A code unit that is not part of a pair. -/
theorem written_unit (unit : UInt16) : Written unit.toNat [unit] := by
  have bound := unit.toNat_lt
  have named {n : Nat} (same : unit.toNat = n) : unit = UInt16.ofNat n := by
    rw [← same, UInt16.ofNat_toNat]
  by_cases quote : unit.toNat = 0x22
  · rw [named quote]
    exact written_short (show shortEscape '"' = some 0x22 from rfl) rfl
  by_cases backslash : unit.toNat = 0x5C
  · rw [named backslash]
    exact written_short (show shortEscape '\\' = some 0x5C from rfl) rfl
  by_cases backspace : unit.toNat = 0x08
  · rw [named backspace]
    exact written_short (show shortEscape 'b' = some 0x08 from rfl) rfl
  by_cases tab : unit.toNat = 0x09
  · rw [named tab]
    exact written_short (show shortEscape 't' = some 0x09 from rfl) rfl
  by_cases lineFeed : unit.toNat = 0x0A
  · rw [named lineFeed]
    exact written_short (show shortEscape 'n' = some 0x0A from rfl) rfl
  by_cases formFeed : unit.toNat = 0x0C
  · rw [named formFeed]
    exact written_short (show shortEscape 'f' = some 0x0C from rfl) rfl
  by_cases carriageReturn : unit.toNat = 0x0D
  · rw [named carriageReturn]
    exact written_short (show shortEscape 'r' = some 0x0D from rfl) rfl
  by_cases escaped : unit.toNat < 0x20 ∨ (0xD800 ≤ unit.toNat ∧ unit.toNat ≤ 0xDFFF)
  · apply written_codeUnit
    rw [writeCharacter, if_neg quote, if_neg backslash, if_neg backspace, if_neg tab,
      if_neg lineFeed, if_neg formFeed, if_neg carriageReturn, if_pos escaped]
  · -- a scalar value that stands for itself
    have valid : unit.toNat.isValidChar := by
      rw [Nat.isValidChar]
      omega
    have value : (Char.ofNatAux unit.toNat valid).toNat = unit.toNat := rfl
    have single : codePointUnits unit.toNat = [unit] := by
      rw [codePointUnits, if_pos (by omega), UInt16.ofNat_toNat]
    rw [← single, ← value]
    refine written_scalar _ (by omega) ?_ ?_ ?_
    · intro same
      rw [same] at value
      exact quote value.symm
    · intro same
      rw [same] at value
      exact backslash value.symm
    · rw [value, writeCharacter, if_neg quote, if_neg backslash, if_neg backspace, if_neg tab,
        if_neg lineFeed, if_neg formFeed, if_neg carriageReturn, if_neg escaped]

/-- A surrogate pair is one character. -/
theorem written_pair (high : JsString.isHighSurrogate first = true)
    (low : JsString.isLowSurrogate second = true) :
    Written (0x10000 + (first.toNat - 0xD800) * 0x400 + (second.toNat - 0xDC00))
      [first, second] := by
  simp only [JsString.isHighSurrogate, JsString.isLowSurrogate, Bool.and_eq_true, decide_eq_true_eq,
    UInt16.le_iff_toNat_le] at high low
  simp only [UInt16.reduceToNat] at high low
  generalize isPoint : 0x10000 + (first.toNat - 0xD800) * 0x400 + (second.toNat - 0xDC00) = point
  have valid : point.isValidChar := by
    rw [Nat.isValidChar]
    omega
  have value : (Char.ofNatAux point valid).toNat = point := rfl
  have pair : codePointUnits point = [first, second] := by
    rw [codePointUnits, if_neg (by omega)]
    have isFirst : UInt16.ofNat (0xD800 + (point - 0x10000) / 0x400) = first := by
      apply UInt16.toNat.inj
      rw [UInt16.toNat_ofNat']
      omega
    have isSecond : UInt16.ofNat (0xDC00 + (point - 0x10000) % 0x400) = second := by
      apply UInt16.toNat.inj
      rw [UInt16.toNat_ofNat']
      omega
    rw [isFirst, isSecond]
  rw [← pair, ← value]
  refine written_scalar _ (by omega) ?_ ?_ ?_
  · intro same
    have : '"'.toNat = 0x22 := rfl
    rw [same] at value
    omega
  · intro same
    have : '\\'.toNat = 0x5C := rfl
    rw [same] at value
    omega
  · rw [value, writeCharacter, if_neg (by omega), if_neg (by omega), if_neg (by omega),
      if_neg (by omega), if_neg (by omega), if_neg (by omega), if_neg (by omega),
      if_neg (by omega)]

theorem characters_codePoints (value : JsString) :
    ∃ text, value.codePoints.flatMap writeCharacter = encode text ∧ Characters text value := by
  have prepend {point : Nat} {units rest : JsString} (written : Written point units)
      (others : ∃ text, rest.codePoints.flatMap writeCharacter = encode text ∧
        Characters text rest) :
      ∃ text, (point :: rest.codePoints).flatMap writeCharacter = encode text ∧
        Characters text (units ++ rest) := by
    obtain ⟨escape, writes, continues⟩ := written
    obtain ⟨text, same, characters⟩ := others
    refine ⟨escape ++ text, ?_, continues text rest characters⟩
    rw [List.flatMap_cons, writes, same, encode_append]
  induction value using JsString.codePoints.induct with
  | case1 => exact ⟨[], rfl, .nil⟩
  | case2 unit => exact prepend (written_unit unit) ⟨[], rfl, .nil⟩
  | case3 first second rest pair ih =>
    rw [Bool.and_eq_true] at pair
    have codePoints : JsString.codePoints (first :: second :: rest) =
        (0x10000 + (first.toNat - 0xD800) * 0x400 + (second.toNat - 0xDC00)) ::
          JsString.codePoints rest := by
      rw [JsString.codePoints, if_pos (by rw [pair.1, pair.2]; rfl)]
    rw [codePoints]
    exact prepend (written_pair pair.1 pair.2) ih
  | case4 first second rest single ih =>
    have codePoints : JsString.codePoints (first :: second :: rest) =
        first.toNat :: JsString.codePoints (second :: rest) := by
      rw [JsString.codePoints, if_neg single]
    rw [codePoints]
    exact prepend (written_unit first) ih

/-- A string is written as a string of the grammar. -/
theorem writeJsonString_spec (value : JsString) :
    ∃ text, writeJsonString value = encode ('"' :: text ++ ['"']) ∧ Characters text value := by
  obtain ⟨text, same, characters⟩ := characters_codePoints value
  refine ⟨text, ?_, characters⟩
  rw [writeJsonString, same, encode_append, encode_cons]
  rfl

/-! ## Values -/

theorem writeNumberLexeme_spec (number : Number text) :
    writeNumberLexeme (lexemeOf text) = .ok (encode text) := by
  have ascii := Parser.Number.ascii number
  rw [writeNumberLexeme, if_pos (isNumberLexeme_iff.mpr ⟨text, number, rfl⟩), encode_of_ascii ascii,
    lexemeOf, List.map_map]
  congr 1
  apply List.map_congr_left
  intro c member
  rw [Function.comp_apply, toNat_lexemeOf (ascii c member)]

mutual

/-- A well-formed value is written as a text of the grammar. -/
theorem writeValue_spec : ∀ value : WireJson, value.WellFormed →
    ∃ text, writeValue value = .ok (encode text) ∧ Spells (.value value) text
  | .null, _ => ⟨_, rfl, .null⟩
  | .bool true, _ => ⟨_, rfl, .true⟩
  | .bool false, _ => ⟨_, rfl, .false⟩
  | .string value, _ => by
    obtain ⟨text, same, characters⟩ := writeJsonString_spec value
    exact ⟨_, congrArg Except.ok same, .string characters⟩
  | .number lexeme, wellFormed => by
    obtain ⟨text, number, rfl⟩ := wellFormed
    exact ⟨text, writeNumberLexeme_spec number, .number number⟩
  | .array [], _ => ⟨['[', ']'], rfl, .emptyArray Parser.blank_nil⟩
  | .array (item :: items), wellFormed => by
    obtain ⟨text, same, spelled⟩ := writeItems_spec (item :: items) wellFormed (by simp)
    refine ⟨_, ?_, .array spelled⟩
    rw [writeValue, same, encode_append, encode_cons]
    rfl
  | .object [], _ => ⟨['\x7b', '\x7d'], rfl, .emptyObject Parser.blank_nil⟩
  | .object (member :: members), wellFormed => by
    obtain ⟨text, same, spelled⟩ := writeMembers_spec (member :: members) wellFormed (by simp)
    refine ⟨_, ?_, .object spelled⟩
    rw [writeValue, same, encode_append, encode_cons]
    rfl

theorem writeItems_spec : ∀ items : List WireJson, WireJson.WellFormedItems items → items ≠ [] →
    ∃ text, writeItems items = .ok (encode text) ∧ Spells (.items items) text
  | [], _, nonempty => absurd rfl nonempty
  | [item], ⟨wellFormed, _⟩, _ => by
    obtain ⟨text, same, spelled⟩ := writeValue_spec item wellFormed
    refine ⟨[] ++ text ++ [], ?_, .lastItem Parser.blank_nil spelled Parser.blank_nil⟩
    rw [writeItems, same, List.nil_append, List.append_nil]
  | item :: next :: items, ⟨wellFormed, others⟩, _ => by
    obtain ⟨text, same, spelled⟩ := writeValue_spec item wellFormed
    obtain ⟨rest, sameRest, spelledRest⟩ := writeItems_spec (next :: items) others (by simp)
    refine ⟨[] ++ text ++ [] ++ ',' :: rest, ?_,
      .item Parser.blank_nil spelled Parser.blank_nil spelledRest⟩
    rw [writeItems, same, sameRest, List.nil_append, List.append_nil, encode_append, encode_cons]
    simp only [bind, Except.bind, List.append_assoc]
    rfl

theorem writeMembers_spec : ∀ members : List (JsString × WireJson),
    WireJson.WellFormedMembers members → members ≠ [] →
    ∃ text, writeMembers members = .ok (encode text) ∧ Spells (.members members) text
  | [], _, nonempty => absurd rfl nonempty
  | [(key, value)], ⟨wellFormed, _⟩, _ => by
    obtain ⟨name, sameName, isName⟩ := writeJsonString_spec key
    obtain ⟨text, same, spelled⟩ := writeValue_spec value wellFormed
    refine ⟨_, ?_, .lastMember Parser.blank_nil isName Parser.blank_nil Parser.blank_nil spelled
      Parser.blank_nil⟩
    rw [writeMembers, same, sameName]
    simp only [bind, Except.bind, List.nil_append, List.append_nil, encode_append, encode_cons,
      List.append_assoc]
    rfl
  | (key, value) :: next :: members, ⟨wellFormed, others⟩, _ => by
    obtain ⟨name, sameName, isName⟩ := writeJsonString_spec key
    obtain ⟨text, same, spelled⟩ := writeValue_spec value wellFormed
    obtain ⟨rest, sameRest, spelledRest⟩ := writeMembers_spec (next :: members) others (by simp)
    refine ⟨_, ?_, .member Parser.blank_nil isName Parser.blank_nil Parser.blank_nil spelled
      Parser.blank_nil spelledRest⟩
    rw [writeMembers, same, sameRest, sameName]
    simp only [bind, Except.bind, List.nil_append, List.append_nil, encode_append, encode_cons,
      List.append_assoc]
    rfl

end

mutual

/-- What can be serialized is well formed. -/
theorem wellFormed_of_writeValue : ∀ {value : WireJson} {bytes : List UInt8},
    writeValue value = .ok bytes → value.WellFormed
  | .null, _, _ => trivial
  | .bool _, _, _ => trivial
  | .string _, _, _ => trivial
  | .number lexeme, _, written => by
    rw [writeValue, writeNumberLexeme] at written
    split at written
    case isTrue isNumber => exact isNumberLexeme_iff.mp isNumber
    case isFalse => cases written
  | .array items, _, written => by
    rw [writeValue] at written
    obtain ⟨inner, writtenItems, -⟩ := Library.bind_eq_ok.mp written
    exact wellFormed_of_writeItems writtenItems
  | .object members, _, written => by
    rw [writeValue] at written
    obtain ⟨inner, writtenMembers, -⟩ := Library.bind_eq_ok.mp written
    exact wellFormed_of_writeMembers writtenMembers

theorem wellFormed_of_writeItems : ∀ {items : List WireJson} {bytes : List UInt8},
    writeItems items = .ok bytes → WireJson.WellFormedItems items
  | [], _, _ => trivial
  | [_], _, written => ⟨wellFormed_of_writeValue written, trivial⟩
  | _ :: next :: items, _, written => by
    rw [writeItems] at written
    obtain ⟨first, writtenFirst, rest⟩ := Library.bind_eq_ok.mp written
    obtain ⟨others, writtenRest, -⟩ := Library.bind_eq_ok.mp rest
    exact ⟨wellFormed_of_writeValue writtenFirst, wellFormed_of_writeItems writtenRest⟩

theorem wellFormed_of_writeMembers : ∀ {members : List (JsString × WireJson)}
    {bytes : List UInt8}, writeMembers members = .ok bytes → WireJson.WellFormedMembers members
  | [], _, _ => trivial
  | [(_, _)], _, written => by
    rw [writeMembers] at written
    obtain ⟨inner, writtenValue, -⟩ := Library.bind_eq_ok.mp written
    exact ⟨wellFormed_of_writeValue writtenValue, trivial⟩
  | (_, _) :: next :: members, _, written => by
    rw [writeMembers] at written
    obtain ⟨first, writtenFirst, rest⟩ := Library.bind_eq_ok.mp written
    obtain ⟨others, writtenRest, -⟩ := Library.bind_eq_ok.mp rest
    exact ⟨wellFormed_of_writeValue writtenFirst, wellFormed_of_writeMembers writtenRest⟩

end

/-- What a value is serialized to is a text that spells it. -/
theorem serializeWireJson_eq_ok {bytes : List UInt8}
    (written : serializeWireJson value = .ok bytes) :
    ∃ text, bytes = encode text ∧ Text text value := by
  obtain ⟨text, same, spelled⟩ := writeValue_spec value (wellFormed_of_writeValue written)
  have written : writeValue value = .ok bytes := written
  rw [same] at written
  refine ⟨text, (Except.ok.inj written).symm, [], text, [], Parser.blank_nil, spelled,
    Parser.blank_nil, ?_⟩
  rw [List.nil_append, List.append_nil]

/-- Serializing a value and parsing the bytes gives the value back, whatever its
strings and member names are, within the limits of the parser. -/
theorem parseWireJson_serializeWireJson (value : WireJson) (wellFormed : value.WellFormed)
    (limits : WireJsonParseLimits) :
    ∃ bytes, serializeWireJson value = .ok bytes ∧
      (value.nesting ≤ limits.maxDepth → bytes.length ≤ limits.maxBytes →
        parseWireJson bytes limits = .ok value) := by
  obtain ⟨text, same, spelled⟩ := writeValue_spec value wellFormed
  refine ⟨encode text, same, fun nested small => ?_⟩
  rw [parseWireJson_eq_ok_iff]
  refine ⟨small, text, rfl, ⟨[], text, [], Parser.blank_nil, spelled, Parser.blank_nil, ?_⟩, nested⟩
  rw [List.nil_append, List.append_nil]

/-- A text that is short enough is parsed exactly if its value is not nested too deep. -/
theorem parseWireJson_encode {limits : WireJsonParseLimits} (spelled : Text text value)
    (small : (encode text).length ≤ limits.maxBytes) (parsed : WireJson) :
    parseWireJson (encode text) limits = .ok parsed ↔
      parsed = value ∧ value.nesting ≤ limits.maxDepth := by
  constructor
  · intro isParsed
    -- the same bytes, and a limit that admits the value: the result is the value
    obtain ⟨-, other, sameBytes, otherSpelled, nested⟩ :=
      (parseWireJson_eq_ok_iff _ _ _).mp isParsed
    have deep (depth : Nat) (value : WireJson) (nested : value.nesting ≤ depth)
        (text : List Char) (spelled : Text text value) :
        parseWireJson (encode text) ⟨(encode text).length, depth⟩ = .ok value :=
      (parseWireJson_eq_ok_iff _ _ _).mpr ⟨Nat.le_refl _, text, rfl, spelled, nested⟩
    have same : parsed = value := by
      have first := deep _ value (Nat.le_max_left value.nesting parsed.nesting) text spelled
      have second := deep _ parsed (Nat.le_max_right value.nesting parsed.nesting) other
          otherSpelled
      rw [← sameBytes, first] at second
      exact (Except.ok.inj second).symm
    exact ⟨same, same ▸ nested⟩
  · rintro ⟨rfl, nested⟩
    exact (parseWireJson_eq_ok_iff _ _ _).mpr ⟨small, text, rfl, spelled, nested⟩

/-- A member name given twice, half of a surrogate pair and a number that is not
in normal form. -/
theorem parseWireJson_serializeWireJson_example :
    ∃ bytes,
      serializeWireJson (.object [(js "a", .string [0xD800]),
        (js "a", .array [.number (js "10")])]) =
          .ok bytes ∧
        parseWireJson bytes ⟨64, 2⟩ =
          .ok (.object [(js "a", .string [0xD800]), (js "a", .array [.number (js "10")])]) := by
  have number : Number ['1', '0'] := by
    refine .mk [] ['1', '0'] [] [] (.inl rfl) (.digits '1' ['0'] rfl (by decide) ?_) .none .none
    intro c member
    rw [List.mem_singleton.mp member]
    rfl
  obtain ⟨bytes, written, read⟩ := parseWireJson_serializeWireJson
    (.object [(js "a", .string [0xD800]), (js "a", .array [.number (js "10")])])
    ⟨trivial, ⟨⟨⟨_, number, rfl⟩, trivial⟩, trivial⟩⟩ ⟨64, 2⟩
  refine ⟨bytes, written, read (by decide) ?_⟩
  have length : (serializeWireJson (.object
      [(js "a", .string [0xD800]), (js "a", .array [.number (js "10")])])).map List.length =
      .ok 23 := by
    set_option maxRecDepth 10000 in decide
  rw [written, Except.map, Except.ok.injEq] at length
  rw [length]
  decide

end GhcGateway
