/-
# The tokens of JSON

Whitespace, numbers and strings: what each part of the parser accepts is what
the grammar calls by that name, and whatever the grammar calls by that name is
read to its end. A number has to be followed by something that cannot extend it,
which is all that the parser's choice of the longest number asks for.
-/

import GhcGateway.Serialization.JsonScalars
import Mathlib.Data.List.TakeWhile

namespace GhcGateway.Parser

open Library JsonGrammar

variable {text blank : List Char} {rest input bytes : List UInt8} {byte : UInt8} {value : JsString}
  {nibble fuel : Nat} {c : Char}

/-! ## Whitespace -/

theorem blank_of_isWhitespace (blank : isWhitespace byte = true) :
    byte = 0x20 ∨ byte = 0x09 ∨ byte = 0x0A ∨ byte = 0x0D := by
  simpa [isWhitespace, or_assoc] using blank

theorem blank_nil : Blank [] := fun _ member => absurd member List.not_mem_nil

/-- What `skipWhitespace` passes over is blank, and it stops before anything
that is not. -/
theorem skipWhitespace_sound (input : List UInt8) :
    ∃ blank, Blank blank ∧ input = encode blank ++ skipWhitespace input := by
  induction input with
  | nil => exact ⟨[], blank_nil, rfl⟩
  | cons byte input ih =>
    by_cases isBlank : isWhitespace byte = true
    · obtain ⟨blank, allBlank, same⟩ := ih
      have skipped : skipWhitespace (byte :: input) = skipWhitespace input := by
        rw [skipWhitespace, List.dropWhile_cons, if_pos isBlank]
        rfl
      have step (c : Char) (isC : c = ' ' ∨ c = '\t' ∨ c = '\n' ∨ c = '\r')
          (bytes : String.utf8EncodeChar c = [byte]) :
          ∃ blank, Blank blank ∧ byte :: input = encode blank ++
            skipWhitespace (byte :: input) := by
        refine ⟨c :: blank, ?_, ?_⟩
        · intro other member
          rcases List.mem_cons.mp member with rfl | member
          · exact isC
          · exact allBlank other member
        · rw [encode_cons, bytes, skipped, List.singleton_append, List.cons_append, ← same]
      rcases blank_of_isWhitespace isBlank with rfl | rfl | rfl | rfl
      · exact step ' ' (.inl rfl) rfl
      · exact step '\t' (.inr (.inl rfl)) rfl
      · exact step '\n' (.inr (.inr (.inl rfl))) rfl
      · exact step '\r' (.inr (.inr (.inr rfl))) rfl
    · refine ⟨[], blank_nil, ?_⟩
      rw [skipWhitespace, List.dropWhile_cons, if_neg isBlank]
      rfl

theorem skipWhitespace_encode (isBlank : Blank blank) (rest : List UInt8) :
    skipWhitespace (encode blank ++ rest) = skipWhitespace rest := by
  induction blank with
  | nil => rfl
  | cons c blank ih =>
    have others : Blank blank := fun other member => isBlank other (List.mem_cons_of_mem _ member)
    rcases isBlank c List.mem_cons_self with rfl | rfl | rfl | rfl
    all_goals exact ih others

/-- The next byte, if any, is not whitespace. -/
def AtToken (input : List UInt8) : Prop := ∀ byte, input.head? = some byte →
    isWhitespace byte = false

theorem AtToken.skipWhitespace (token : AtToken input) : Parser.skipWhitespace input = input := by
  cases input with
  | nil => rfl
  | cons byte input =>
    rw [Parser.skipWhitespace, List.dropWhile_cons, if_neg (by simp [token byte rfl])]

/-- Blanks are passed over up to the next token. -/
theorem skipWhitespace_encode_cons (isBlank : Blank blank) (token : isWhitespace byte = false)
    (rest : List UInt8) : skipWhitespace (encode blank ++ byte :: rest) = byte :: rest := by
  rw [skipWhitespace_encode isBlank]
  refine AtToken.skipWhitespace fun other head => ?_
  rw [← Option.some.inj head]
  exact token

/-! ## Numbers -/

theorem isDigit_iff (byte : UInt8) : isDigit byte = true ↔
    0x30 ≤ byte.toNat ∧ byte.toNat ≤ 0x39 := by
  simp only [isDigit, Bool.and_eq_true, decide_eq_true_eq, UInt8.le_iff_toNat_le]
  rfl

theorem charIsDigit_iff (c : Char) : c.isDigit = true ↔ 0x30 ≤ c.toNat ∧ c.toNat ≤ 0x39 := by
  simp only [Char.isDigit, Bool.and_eq_true, decide_eq_true_eq, ge_iff_le, UInt32.le_iff_toNat_le]
  rfl

theorem charIsDigit_ofNat (digit : isDigit byte = true) :
    (Char.ofNat byte.toNat).isDigit = true := by
  rw [isDigit_iff] at digit
  rw [charIsDigit_iff, toNat_ofNat_of_lt (by omega)]
  exact digit

theorem isDigit_ofNat (digit : c.isDigit = true) : isDigit (UInt8.ofNat c.toNat) = true := by
  rw [charIsDigit_iff] at digit
  rw [isDigit_iff, toNat_ofNat_byte (by omega)]
  exact digit

theorem consumeDigits_append (input : List UInt8) :
    input = (consumeDigits input).1 ++ (consumeDigits input).2 := by
  rw [consumeDigits, List.span_eq_takeWhile_dropWhile]
  exact List.takeWhile_append_dropWhile.symm

theorem consumeDigits_digits (input : List UInt8) :
    ∀ byte ∈ (consumeDigits input).1, isDigit byte = true := by
  rw [consumeDigits, List.span_eq_takeWhile_dropWhile]
  exact fun byte member => List.mem_takeWhile_imp member

/-- Digits as the grammar has them. -/
theorem asciiChars_digits (digits : ∀ byte ∈ bytes, isDigit byte = true) :
    encode (asciiChars bytes) = bytes ∧ ∀ c ∈ asciiChars bytes, c.isDigit = true := by
  refine ⟨encode_asciiChars fun byte member => ?_, fun c member => ?_⟩
  · have := (isDigit_iff byte).mp (digits byte member)
    omega
  · obtain ⟨byte, inside, rfl⟩ := List.mem_map.mp member
    exact charIsDigit_ofNat (digits byte inside)

/-- The next byte, if any, is not a digit. -/
def AfterDigits (input : List UInt8) : Prop :=
    ∀ byte, input.head? = some byte → isDigit byte = false

theorem ascii_of_digits (digits : ∀ c ∈ text, c.isDigit = true) : ∀ c ∈ text, c.toNat < 0x80 := by
  intro c member
  have := (charIsDigit_iff c).mp (digits c member)
  omega

theorem consumeDigits_encode (digits : ∀ c ∈ text, c.isDigit = true) (after : AfterDigits rest) :
    consumeDigits (encode text ++ rest) = (encode text, rest) := by
  rw [consumeDigits, List.span_eq_takeWhile_dropWhile, encode_of_ascii (ascii_of_digits digits)]
  have all : ∀ byte ∈ text.map (fun c => UInt8.ofNat c.toNat), isDigit byte = true := by
    intro byte member
    obtain ⟨c, inside, rfl⟩ := List.mem_map.mp member
    exact isDigit_ofNat (digits c inside)
  rw [List.takeWhile_append_of_pos all, List.dropWhile_append_of_pos all]
  cases rest with
  | nil => simp
  | cons byte rest =>
    have stop : ¬ isDigit byte = true := by simp [after byte rfl]
    rw [List.takeWhile_cons_of_neg stop, List.dropWhile_cons_of_neg stop, List.append_nil]

theorem digits_of_consumeDigits (some : (consumeDigits input).1 ≠ []) :
    ∃ text, Digits text ∧ encode text = (consumeDigits input).1 := by
  obtain ⟨same, digits⟩ := asciiChars_digits (consumeDigits_digits input)
  refine ⟨asciiChars (consumeDigits input).1, ⟨fun empty => some ?_, digits⟩, same⟩
  rw [← same, empty, encode_nil]

theorem parseInteger_sound (accepted : parseInteger input = .ok (bytes, rest)) :
    ∃ text, Integer text ∧ encode text = bytes ∧ input = bytes ++ rest := by
  cases input with
  | nil => cases accepted
  | cons first input =>
    rw [parseInteger] at accepted
    split at accepted
    · next zero =>
      cases accepted
      rw [zero]
      exact ⟨['0'], .zero, rfl, rfl⟩
    split at accepted
    · next notZero lead =>
      cases accepted
      have digit : isDigit first = true := by
        rw [isDigit_iff]
        simp only [Bool.and_eq_true, decide_eq_true_eq, UInt8.le_iff_toNat_le] at lead
        have : (0x31 : UInt8).toNat = 0x31 := rfl
        have : (0x39 : UInt8).toNat = 0x39 := rfl
        omega
      obtain ⟨same, digits⟩ := asciiChars_digits (consumeDigits_digits input)
      have value := (isDigit_iff first).mp digit
      have small : (Char.ofNat first.toNat).toNat = first.toNat := toNat_ofNat_of_lt (by omega)
      refine ⟨Char.ofNat first.toNat :: asciiChars (consumeDigits input).1,
        .digits _ _ (charIsDigit_ofNat digit) ?_ digits, ?_, ?_⟩
      · intro isZero
        apply notZero
        apply UInt8.toNat.inj
        rw [← small, isZero]
        rfl
      · rw [encode_cons, encodeChar_ascii (by omega), small, UInt8.ofNat_toNat, same]
        rfl
      · rw [List.cons_append, ← consumeDigits_append]
    · cases accepted

theorem parseInteger_encode (integer : Integer text) (after : AfterDigits rest) :
    parseInteger (encode text ++ rest) = .ok (encode text, rest) := by
  cases integer with
  | zero => rfl
  | digits first others digit nonzero digits =>
    have value := (charIsDigit_iff first).mp digit
    have notZero : first.toNat ≠ 0x30 := fun same => nonzero (Char.toNat_inj.mp same)
    have byte : (UInt8.ofNat first.toNat).toNat = first.toNat := toNat_ofNat_byte (by omega)
    have apart : UInt8.ofNat first.toNat ≠ 0x30 := by
      intro same
      apply notZero
      rw [← byte, same]
      rfl
    have lead : (0x31 ≤ UInt8.ofNat first.toNat && UInt8.ofNat first.toNat ≤ 0x39) = true := by
      simp only [Bool.and_eq_true, decide_eq_true_eq, UInt8.le_iff_toNat_le, byte]
      have : (0x31 : UInt8).toNat = 0x31 := rfl
      have : (0x39 : UInt8).toNat = 0x39 := rfl
      omega
    rw [encode_cons, encodeChar_ascii (by omega), List.singleton_append, List.cons_append,
      parseInteger, if_neg apart, if_pos lead, consumeDigits_encode digits after]

theorem parseFraction_sound (accepted : parseFraction input = .ok (bytes, rest)) :
    ∃ text, Fraction text ∧ encode text = bytes ∧ input = bytes ++ rest := by
  unfold parseFraction at accepted
  split at accepted
  · split at accepted
    · cases accepted
    next some =>
    obtain ⟨text, digits, same⟩ := digits_of_consumeDigits some
    cases accepted
    refine ⟨'.' :: text, .some text digits, ?_, ?_⟩
    · rw [encode_cons, same]
      rfl
    · rw [List.cons_append, ← consumeDigits_append]
  · cases accepted
    exact ⟨[], .none, rfl, rfl⟩

theorem parseFraction_encode (fraction : Fraction text) (after : AfterDigits rest)
    (noPoint : rest.head? ≠ some 0x2E) :
    parseFraction (encode text ++ rest) = .ok (encode text, rest) := by
  cases fraction with
  | none =>
    rw [encode_nil, List.nil_append]
    unfold parseFraction
    split
    · exact absurd rfl noPoint
    · rfl
  | some digits spelled =>
    have some : encode digits ≠ [] := by
      rw [encode_of_ascii (ascii_of_digits spelled.2)]
      simpa using spelled.1
    show (if (consumeDigits (encode digits ++ rest)).1 =
        [] then Except.error WireJsonError.malformedJson
      else Except.ok (0x2E :: (consumeDigits (encode digits ++ rest)).1,
        (consumeDigits (encode digits ++ rest)).2)) = _
    rw [consumeDigits_encode spelled.2 after, if_neg some]
    rfl

theorem splitSign_sound (input : List UInt8) :
    ∃ sign, (sign = [] ∨ sign = ['+'] ∨ sign = ['-']) ∧ encode sign = (splitSign input).1 ∧
      input = (splitSign input).1 ++ (splitSign input).2 := by
  cases input with
  | nil => exact ⟨[], .inl rfl, rfl, rfl⟩
  | cons byte input =>
    rw [splitSign]
    split
    · next isSign =>
      simp only [Bool.or_eq_true, decide_eq_true_eq] at isSign
      rcases isSign with rfl | rfl
      · exact ⟨['+'], .inr (.inl rfl), rfl, rfl⟩
      · exact ⟨['-'], .inr (.inr rfl), rfl, rfl⟩
    · exact ⟨[], .inl rfl, rfl, rfl⟩

theorem parseExponent_sound (accepted : parseExponent input = .ok (bytes, rest)) :
    ∃ text, Exponent text ∧ encode text = bytes ∧ input = bytes ++ rest := by
  cases input with
  | nil =>
    cases accepted
    exact ⟨[], .none, rfl, rfl⟩
  | cons byte input =>
    rw [parseExponent] at accepted
    split at accepted
    · next isMarker =>
      simp only [Bool.or_eq_true, decide_eq_true_eq] at isMarker
      obtain ⟨sign, isSign, signBytes, splits⟩ := splitSign_sound input
      dsimp only at accepted
      split at accepted
      · cases accepted
      next some =>
      obtain ⟨text, digits, same⟩ := digits_of_consumeDigits some
      cases accepted
      have bytes (marker : Char) (encoded : String.utf8EncodeChar marker = [byte]) :
          encode (marker :: sign ++ text) =
              byte :: (splitSign input).1 ++ (consumeDigits (splitSign input).2).1 ∧
            byte :: input = byte :: (splitSign input).1 ++
              (consumeDigits (splitSign input).2).1 ++ (consumeDigits (splitSign input).2).2 := by
        constructor
        · rw [encode_append, encode_cons, encoded, signBytes, same]
          rfl
        · rw [List.append_assoc, ← consumeDigits_append, List.cons_append, ← splits]
      rcases isMarker with rfl | rfl
      · exact ⟨_, .some 'e' sign text (.inl rfl) isSign digits, bytes 'e' rfl⟩
      · exact ⟨_, .some 'E' sign text (.inr rfl) isSign digits, bytes 'E' rfl⟩
    · cases accepted
      exact ⟨[], .none, rfl, rfl⟩

/-- A digit is neither a sign nor anything else the grammar asks for by name. -/
theorem splitSign_encode {sign digits : List Char}
    (isSign : sign = [] ∨ sign = ['+'] ∨ sign = ['-']) (spelled : Digits digits)
    (rest : List UInt8) :
    splitSign (encode (sign ++ digits) ++ rest) = (encode sign, encode digits ++ rest) := by
  rcases isSign with rfl | rfl | rfl
  · obtain ⟨first, others, rfl⟩ := List.exists_cons_of_ne_nil spelled.1
    have value := (charIsDigit_iff first).mp (spelled.2 first List.mem_cons_self)
    have byte : (UInt8.ofNat first.toNat).toNat = first.toNat := toNat_ofNat_byte (by omega)
    have notSign : ¬ (UInt8.ofNat first.toNat = 0x2B || UInt8.ofNat first.toNat = 0x2D) = true := by
      simp only [Bool.or_eq_true, decide_eq_true_eq, not_or]
      constructor <;> intro same <;> rw [same] at byte
      · have : (0x2B : UInt8).toNat = 0x2B := rfl
        omega
      · have : (0x2D : UInt8).toNat = 0x2D := rfl
        omega
    rw [List.nil_append, encode_cons, encodeChar_ascii (by omega), List.append_assoc,
      List.singleton_append, splitSign, if_neg notSign]
    rfl
  · rfl
  · rfl

theorem parseExponent_encode (exponent : Exponent text) (after : AfterDigits rest)
    (noMarker : rest.head? ≠ some 0x65 ∧ rest.head? ≠ some 0x45) :
    parseExponent (encode text ++ rest) = .ok (encode text, rest) := by
  cases exponent with
  | none =>
    cases rest with
    | nil => rfl
    | cons byte rest =>
      have unmarked : ¬ (byte = 0x65 || byte = 0x45) = true := by
        simpa [not_or] using noMarker
      rw [encode_nil, List.nil_append, parseExponent, if_neg unmarked]
  | some marker sign digits isMarker isSign spelled =>
    have some : encode digits ≠ [] := by
      rw [encode_of_ascii (ascii_of_digits spelled.2)]
      simpa using spelled.1
    have reads (byte : UInt8) (encoded : String.utf8EncodeChar marker = [byte])
        (isMarker : (byte = 0x65 || byte = 0x45) = true) :
        parseExponent (encode (marker :: sign ++ digits) ++ rest) =
          .ok (encode (marker :: sign ++ digits), rest) := by
      rw [List.cons_append, encode_cons, encoded, List.append_assoc, List.singleton_append,
        parseExponent, if_pos isMarker, splitSign_encode isSign spelled]
      dsimp only
      rw [consumeDigits_encode spelled.2 after, if_neg some, encode_append]
      rfl
    rcases isMarker with rfl | rfl
    · exact reads 0x65 rfl rfl
    · exact reads 0x45 rfl rfl

theorem splitMinus_sound (input : List UInt8) :
    ∃ minus, (minus = [] ∨ minus = ['-']) ∧ encode minus = (splitMinus input).1 ∧
      input = (splitMinus input).1 ++ (splitMinus input).2 := by
  unfold splitMinus
  split
  · exact ⟨['-'], .inr rfl, rfl, rfl⟩
  · exact ⟨[], .inl rfl, rfl, rfl⟩

theorem Integer.ascii (integer : Integer text) : ∀ c ∈ text, c.toNat < 0x80 := by
  cases integer with
  | zero =>
    intro c member
    rw [List.mem_singleton.mp member]
    decide
  | digits first rest digit nonzero digits =>
    refine ascii_of_digits fun c member => ?_
    rcases List.mem_cons.mp member with rfl | member
    · exact digit
    · exact digits c member

theorem Fraction.ascii (fraction : Fraction text) : ∀ c ∈ text, c.toNat < 0x80 := by
  cases fraction with
  | none => exact fun c member => absurd member List.not_mem_nil
  | some digits spelled =>
    intro c member
    rcases List.mem_cons.mp member with rfl | member
    · decide
    · exact ascii_of_digits spelled.2 c member

theorem Exponent.ascii (exponent : Exponent text) : ∀ c ∈ text, c.toNat < 0x80 := by
  cases exponent with
  | none => exact fun c member => absurd member List.not_mem_nil
  | some marker sign digits isMarker isSign spelled =>
    intro c member
    rcases List.mem_append.mp member with member | member
    · rcases List.mem_cons.mp member with rfl | member
      · rcases isMarker with rfl | rfl <;> decide
      · rcases isSign with rfl | rfl | rfl
        · exact absurd member List.not_mem_nil
        · rw [List.mem_singleton.mp member]
          decide
        · rw [List.mem_singleton.mp member]
          decide
    · exact ascii_of_digits spelled.2 c member

theorem Number.ascii (number : Number text) : ∀ c ∈ text, c.toNat < 0x80 := by
  obtain ⟨minus, integer, fraction, exponent, isMinus, isInteger, isFraction, isExponent⟩ := number
  intro c member
  simp only [List.mem_append] at member
  rcases member with ((member | member) | member) | member
  · rcases isMinus with rfl | rfl
    · exact absurd member List.not_mem_nil
    · rw [List.mem_singleton.mp member]
      decide
  · exact Integer.ascii isInteger c member
  · exact Fraction.ascii isFraction c member
  · exact Exponent.ascii isExponent c member

/-- The lexeme of a number text is the slice of the input the text occupies. -/
theorem lexemeOf_eq (number : Number text) :
    (encode text).map (fun byte => UInt16.ofNat byte.toNat) = lexemeOf text := by
  have ascii := Number.ascii number
  rw [encode_of_ascii ascii, List.map_map, lexemeOf]
  apply List.map_congr_left
  intro c member
  rw [Function.comp_apply, toNat_ofNat_byte (Nat.lt_trans (ascii c member) (by decide))]

/-- What `parseNumber` accepts is a number, and its value has the number's own
text. -/
theorem parseNumber_sound {value : WireJson} (accepted : parseNumber input = .ok (value, rest)) :
    ∃ text, Number text ∧ value = .number (lexemeOf text) ∧ input = encode text ++ rest := by
  obtain ⟨minus, isMinus, minusBytes, splits⟩ := splitMinus_sound input
  rw [parseNumber] at accepted
  generalize splitMinus input = parts at accepted minusBytes splits
  obtain ⟨front, unsigned⟩ := parts
  dsimp only at minusBytes splits
  obtain ⟨⟨integerBytes, afterInteger⟩, first, accepted⟩ := bind_eq_ok.mp accepted
  obtain ⟨integer, isInteger, rfl, restInteger⟩ := parseInteger_sound first
  obtain ⟨⟨fractionBytes, afterFraction⟩, second, accepted⟩ := bind_eq_ok.mp accepted
  obtain ⟨fraction, isFraction, rfl, restFraction⟩ := parseFraction_sound second
  obtain ⟨⟨exponentBytes, afterExponent⟩, third, accepted⟩ := bind_eq_ok.mp accepted
  obtain ⟨exponent, isExponent, rfl, restExponent⟩ := parseExponent_sound third
  cases accepted
  have number : Number (minus ++ integer ++ fraction ++ exponent) :=
    .mk minus integer fraction exponent isMinus isInteger isFraction isExponent
  refine ⟨_, number, ?_, ?_⟩
  · rw [← lexemeOf_eq number, encode_append, encode_append, encode_append, minusBytes]
  · rw [splits, restInteger, restFraction, restExponent, encode_append, encode_append,
      encode_append, minusBytes, List.append_assoc, List.append_assoc, List.append_assoc]

/-- What may follow a number: nothing that would make it longer. -/
def AfterNumber (input : List UInt8) : Prop :=
  ∀ byte, input.head? = some byte →
    isDigit byte = false ∧ byte ≠ 0x2E ∧ byte ≠ 0x65 ∧ byte ≠ 0x45

theorem AfterNumber.afterDigits (after : AfterNumber input) :
    AfterDigits input := fun byte head => (after byte head).1

theorem head_encode_exponent (exponent : Exponent text) (after : AfterNumber rest)
    (head : (encode text ++ rest).head? = some byte) : isDigit byte = false ∧ byte ≠ 0x2E := by
  cases exponent with
  | none => exact ⟨(after byte head).1, (after byte head).2.1⟩
  | some marker sign digits isMarker isSign spelled =>
    rcases isMarker with rfl | rfl
    all_goals
      obtain rfl := Option.some.inj head
      decide

theorem head_encode_fraction (fraction : Fraction text) (after : AfterDigits rest) :
    AfterDigits (encode text ++ rest) := by
  cases fraction with
  | none => exact after
  | some digits spelled =>
    intro byte head
    obtain rfl := Option.some.inj head
    decide

theorem splitMinus_encode {minus integer : List Char} (isMinus : minus = [] ∨ minus = ['-'])
    (isInteger : Integer integer) (rest : List UInt8) :
    splitMinus (encode minus ++ (encode integer ++ rest)) =
      (encode minus, encode integer ++ rest) := by
  rcases isMinus with rfl | rfl
  · cases isInteger with
    | zero => rfl
    | digits first others digit nonzero digits =>
      have value := (charIsDigit_iff first).mp digit
      have byte : (UInt8.ofNat first.toNat).toNat = first.toNat := toNat_ofNat_byte (by omega)
      rw [encode_nil, List.nil_append, encode_cons, encodeChar_ascii (by omega), List.append_assoc,
        List.singleton_append]
      unfold splitMinus
      split
      · next same =>
        have isMinus : UInt8.ofNat first.toNat = 0x2D := (List.cons.inj same).1
        rw [isMinus] at byte
        have : (0x2D : UInt8).toNat = 0x2D := rfl
        omega
      · rfl
  · rfl

/-- Every number is read to its end. -/
theorem parseNumber_encode (number : Number text) (after : AfterNumber rest) :
    parseNumber (encode text ++ rest) = .ok (.number (lexemeOf text), rest) := by
  rw [← lexemeOf_eq number]
  obtain ⟨minus, integer, fraction, exponent, isMinus, isInteger, isFraction, isExponent⟩ := number
  have afterFraction : AfterDigits (encode exponent ++ rest) :=
    fun byte head => (head_encode_exponent isExponent after head).1
  have afterInteger := head_encode_fraction isFraction afterFraction
  have noPoint : (encode exponent ++ rest).head? ≠ some 0x2E :=
    fun head => (head_encode_exponent isExponent after head).2 rfl
  have noMarker : rest.head? ≠ some 0x65 ∧ rest.head? ≠ some 0x45 :=
    ⟨fun head => (after _ head).2.2.1 rfl, fun head => (after _ head).2.2.2 rfl⟩
  simp only [encode_append, List.append_assoc]
  rw [parseNumber, splitMinus_encode isMinus isInteger]
  dsimp only
  rw [parseInteger_encode isInteger afterInteger]
  simp only [bind, Except.bind]
  rw [parseFraction_encode isFraction afterFraction noPoint]
  dsimp only
  rw [parseExponent_encode isExponent after.afterDigits noMarker]
  simp only [List.append_assoc]

/-! ## Strings -/

theorem hexNibble_ofNat {n : Nat} (ascii : n < 0x80) :
    hexNibble (UInt8.ofNat n) = hexDigit (Char.ofNat n) := by
  have all : ∀ n < 0x80, hexNibble (UInt8.ofNat n) = hexDigit (Char.ofNat n) := by
    set_option maxRecDepth 10000 in decide
  exact all n ascii

theorem hexNibble_ascii (hex : hexNibble byte = some nibble) : byte.toNat < 0x80 := by
  have all : ∀ n < 0x100, 0x80 ≤ n → hexNibble (UInt8.ofNat n) = none := by
    set_option maxRecDepth 10000 in decide
  by_contra high
  have none := all byte.toNat byte.toNat_lt (by omega)
  rw [UInt8.ofNat_toNat, hex] at none
  cases none

theorem hexDigit_ascii (hex : hexDigit c = some nibble) : c.toNat < 0x80 := by
  have nine : '9'.toNat = 0x39 := rfl
  have upperF : 'F'.toNat = 0x46 := rfl
  have lowerF : 'f'.toNat = 0x66 := rfl
  have bound {last : Char} (le : c ≤ last) : c.toNat ≤ last.toNat := le
  unfold hexDigit at hex
  split at hex
  · next digit =>
    have := bound digit.2
    omega
  split at hex
  · next upper =>
    have := bound upper.2
    omega
  split at hex
  · next lower =>
    have := bound lower.2
    omega
  · cases hex

/-- One digit of `parseHexCodeUnit`. -/
theorem parseHexCodeUnit_succ {count value result : Nat}
    (accepted : parseHexCodeUnit (count + 1) value input = .ok (result, rest)) :
    ∃ c nibble after, hexDigit c = some nibble ∧ input = String.utf8EncodeChar c ++ after ∧
      parseHexCodeUnit count (value * 0x10 + nibble) after = .ok (result, rest) := by
  cases input with
  | nil => cases accepted
  | cons byte input =>
    rw [parseHexCodeUnit] at accepted
    split at accepted
    · next nibble hex =>
      have ascii := hexNibble_ascii hex
      have small : (Char.ofNat byte.toNat).toNat = byte.toNat := toNat_ofNat_of_lt ascii
      refine ⟨Char.ofNat byte.toNat, nibble, input, ?_, ?_, accepted⟩
      · rw [← hexNibble_ofNat ascii, UInt8.ofNat_toNat, hex]
      · rw [encodeChar_ascii (by omega), small, UInt8.ofNat_toNat]
        rfl
    · cases accepted

theorem parseHexCodeUnit_encodeChar (hex : hexDigit c = some nibble) (count value : Nat)
    (rest : List UInt8) :
    parseHexCodeUnit (count + 1) value (String.utf8EncodeChar c ++ rest) =
      parseHexCodeUnit count (value * 0x10 + nibble) rest := by
  have ascii := hexDigit_ascii hex
  have same : hexNibble (UInt8.ofNat c.toNat) = some nibble := by
    rw [hexNibble_ofNat ascii, Char.ofNat_toNat, hex]
  rw [encodeChar_ascii ascii, List.singleton_append, parseHexCodeUnit, same]

/-- What `parseEscape` accepts after a backslash continues a string. -/
theorem parseEscape_sound {units : JsString} (accepted : parseEscape input = .ok (units, rest)) :
    ∃ escape, input = encode escape ++ rest ∧
      ∀ text value, Characters text value →
        Characters ('\\' :: escape ++ text) (units ++ value) := by
  cases input with
  | nil => cases accepted
  | cons marker input =>
    have short (c : Char) (unit : UInt16) (isShort : shortEscape c = some unit)
        (encoded : String.utf8EncodeChar c = [marker])
        (returned : (.ok ([unit], input) : Except WireJsonError _) = .ok (units, rest)) :
        ∃ escape, marker :: input = encode escape ++ rest ∧
          ∀ text value, Characters text value →
            Characters ('\\' :: escape ++ text) (units ++ value) := by
      cases returned
      refine ⟨[c], ?_, fun text value characters => .escape c unit isShort characters⟩
      rw [encode_cons, encoded]
      rfl
    rw [parseEscape] at accepted
    split at accepted
    · next same => exact short '"' 0x22 rfl (same ▸ rfl) accepted
    split at accepted
    · next same => exact short '\\' 0x5C rfl (same ▸ rfl) accepted
    split at accepted
    · next same => exact short '/' 0x2F rfl (same ▸ rfl) accepted
    split at accepted
    · next same => exact short 'b' 0x08 rfl (same ▸ rfl) accepted
    split at accepted
    · next same => exact short 'f' 0x0C rfl (same ▸ rfl) accepted
    split at accepted
    · next same => exact short 'n' 0x0A rfl (same ▸ rfl) accepted
    split at accepted
    · next same => exact short 'r' 0x0D rfl (same ▸ rfl) accepted
    split at accepted
    · next same => exact short 't' 0x09 rfl (same ▸ rfl) accepted
    split at accepted
    · next same =>
      obtain ⟨⟨unit, after⟩, hex, returned⟩ := bind_eq_ok.mp accepted
      cases returned
      obtain ⟨c1, a, after1, isFirst, rfl, hex1⟩ := parseHexCodeUnit_succ hex
      obtain ⟨c2, b, after2, isSecond, rfl, hex2⟩ := parseHexCodeUnit_succ hex1
      obtain ⟨c3, c, after3, isThird, rfl, hex3⟩ := parseHexCodeUnit_succ hex2
      obtain ⟨c4, d, after4, isFourth, rfl, hex4⟩ := parseHexCodeUnit_succ hex3
      rw [Nat.zero_mul, Nat.zero_add] at hex4
      cases hex4
      refine ⟨['u', c1, c2, c3, c4], ?_, fun text value characters =>
        .codeUnit c1 c2 c3 c4 a b c d isFirst isSecond isThird isFourth characters⟩
      rw [same]
      simp only [encode_cons, encode_nil, List.append_nil, List.append_assoc]
      rfl
    · cases accepted

theorem parseEscape_encodeChar {marker : Char} {unit : UInt16}
    (short : shortEscape marker = some unit) (rest : List UInt8) :
    parseEscape (String.utf8EncodeChar marker ++ rest) = .ok ([unit], rest) := by
  unfold shortEscape at short
  split at short
  all_goals first
    | (cases short; rfl)
    | cases short

theorem parseEscape_codeUnit {first second third fourth : Char} {a b c d : Nat}
    (isFirst : hexDigit first = some a) (isSecond : hexDigit second = some b)
    (isThird : hexDigit third = some c) (isFourth : hexDigit fourth = some d)
    (rest : List UInt8) :
    parseEscape (encode ['u', first, second, third, fourth] ++ rest) =
      .ok ([UInt16.ofNat (((a * 0x10 + b) * 0x10 + c) * 0x10 + d)], rest) := by
  have reads : parseHexCodeUnit 4 0 (encode [first, second, third, fourth] ++ rest) =
      .ok (((a * 0x10 + b) * 0x10 + c) * 0x10 + d, rest) := by
    simp only [encode_cons, encode_nil, List.append_nil, List.append_assoc]
    rw [parseHexCodeUnit_encodeChar isFirst, parseHexCodeUnit_encodeChar isSecond,
      parseHexCodeUnit_encodeChar isThird, parseHexCodeUnit_encodeChar isFourth, Nat.zero_mul,
      Nat.zero_add]
    rfl
  show (parseHexCodeUnit 4 0 (encode [first, second, third, fourth] ++ rest) >>= _) = _
  rw [reads]
  rfl

/-- What `parseString` accepts up to the closing quote are the characters of a
string. -/
theorem parseString_sound {start : JsString}
    (accepted : parseString fuel start input = .ok (value, rest)) :
    ∃ text units, Characters text units ∧ value = start ++ units ∧
      input = encode text ++ 0x22 :: rest := by
  induction fuel generalizing start input with
  | zero => cases accepted
  | succ fuel ih =>
    cases input with
    | nil => cases accepted
    | cons byte input =>
      rw [parseString] at accepted
      split at accepted
      · next quote =>
        cases accepted
        exact ⟨[], [], .nil, (List.append_nil _).symm, by rw [quote]; rfl⟩
      split at accepted
      · next notQuote backslash =>
        obtain ⟨⟨escaped, after⟩, escapes, remaining⟩ := bind_eq_ok.mp accepted
        obtain ⟨escape, rfl, continues⟩ := parseEscape_sound escapes
        obtain ⟨text, units, characters, rfl, rfl⟩ := ih remaining
        refine ⟨'\\' :: escape ++ text, escaped ++ units, continues text units characters,
          List.append_assoc _ _ _, ?_⟩
        rw [backslash, encode_append, encode_cons, List.append_assoc, List.append_assoc]
        rfl
      split at accepted
      · cases accepted
      split at accepted
      · next notQuote notBackslash printable ascii =>
        have c20 : (0x20 : UInt8).toNat = 0x20 := rfl
        have c80 : (0x80 : UInt8).toNat = 0x80 := rfl
        rw [UInt8.lt_iff_toNat_lt] at printable ascii
        have small : (Char.ofNat byte.toNat).toNat = byte.toNat := toNat_ofNat_of_lt (by omega)
        obtain ⟨text, units, characters, rfl, rfl⟩ := ih accepted
        have same : codePointUnits (Char.ofNat byte.toNat).toNat = [UInt16.ofNat byte.toNat] := by
          rw [small, codePointUnits, if_pos (by omega)]
        have apart {c : Char} (n : UInt8) (isN : c.toNat = n.toNat) (notN : ¬ byte = n) :
            Char.ofNat byte.toNat ≠ c := by
          intro isC
          apply notN
          apply UInt8.toNat.inj
          rw [← small, isC, isN]
        refine ⟨Char.ofNat byte.toNat :: text, [UInt16.ofNat byte.toNat] ++ units, ?_,
          List.append_assoc _ _ _, ?_⟩
        · rw [← same]
          exact .unescaped _ (by omega) (apart 0x22 rfl notQuote) (apart 0x5C rfl notBackslash)
            characters
        · rw [encode_cons, encodeChar_ascii (by omega), small, UInt8.ofNat_toNat]
          rfl
      · next notQuote notBackslash printable notAscii =>
        have c80 : (0x80 : UInt8).toNat = 0x80 := rfl
        rw [UInt8.lt_iff_toNat_lt] at notAscii
        obtain ⟨⟨codePoint, after⟩, reads, remaining⟩ := bind_eq_ok.mp accepted
        obtain ⟨c, rfl, encoded⟩ := consumeUtf8CodePoint_sound reads
        obtain ⟨text, units, characters, rfl, rfl⟩ := ih remaining
        have high : 0x80 ≤ c.toNat := by
          by_contra low
          rw [encodeChar_ascii (by omega)] at encoded
          have isByte : byte = UInt8.ofNat c.toNat := (List.cons.inj encoded).1
          rw [isByte, toNat_ofNat_byte (by omega)] at notAscii
          omega
        refine ⟨c :: text, codePointUnits c.toNat ++ units, ?_, List.append_assoc _ _ _, ?_⟩
        · refine .unescaped c (by omega) ?_ ?_ characters
          · intro isQuote
            rw [isQuote] at high
            exact absurd high (by decide)
          · intro isBackslash
            rw [isBackslash] at high
            exact absurd high (by decide)
        · rw [encoded, encode_cons, List.append_assoc]

/-- The first byte of a character outside ASCII. -/
theorem encodeChar_high (high : 0x80 ≤ c.toNat) :
    ∃ first others, String.utf8EncodeChar c = first :: others ∧ 0x80 ≤ first.toNat := by
  have valid : c.toNat < 0xD800 ∨ 0xDFFF < c.toNat ∧ c.toNat < 0x110000 := c.valid
  rw [← utf8Bytes_toNat, utf8Bytes, if_neg (by omega)]
  by_cases two : c.toNat < 0x800
  · rw [if_pos two]
    refine ⟨_, _, rfl, ?_⟩
    rw [toNat_ofNat_byte (by omega)]
    omega
  by_cases three : c.toNat < 0x10000
  · rw [if_neg two, if_pos three]
    refine ⟨_, _, rfl, ?_⟩
    rw [toNat_ofNat_byte (by omega)]
    omega
  · rw [if_neg two, if_neg three]
    refine ⟨_, _, rfl, ?_⟩
    rw [toNat_ofNat_byte (by omega)]
    omega

/-- A string is read to its closing quote. -/
theorem parseString_encode (characters : Characters text value)
    (enough : (encode text).length < fuel) (start : JsString) (rest : List UInt8) :
    parseString fuel start (encode text ++ 0x22 :: rest) = .ok (start ++ value, rest) := by
  induction characters generalizing fuel start with
  | nil =>
    obtain ⟨fuel, rfl⟩ := Nat.exists_eq_add_one_of_ne_zero (Nat.ne_zero_of_lt enough)
    rw [List.append_nil]
    rfl
  | unescaped c printable quote backslash others ih =>
    rename_i text value
    rw [encode_cons, List.length_append] at enough
    have some : 0 < (String.utf8EncodeChar c).length :=
      List.length_pos_iff.mpr String.utf8EncodeChar_ne_nil
    obtain ⟨fuel, rfl⟩ := Nat.exists_eq_add_one_of_ne_zero (Nat.ne_zero_of_lt enough)
    rw [encode_cons, List.append_assoc, ← List.append_assoc start]
    by_cases ascii : c.toNat < 0x80
    · have byte : (UInt8.ofNat c.toNat).toNat = c.toNat := toNat_ofNat_byte (by omega)
      have apart (n : UInt8) {other : Char} (isN : other.toNat = n.toNat) (notOther : c ≠ other) :
          UInt8.ofNat c.toNat ≠ n := by
        intro same
        apply notOther
        rw [← Char.toNat_inj, isN, ← same, byte]
      have c20 : (0x20 : UInt8).toNat = 0x20 := rfl
      have c80 : (0x80 : UInt8).toNat = 0x80 := rfl
      have notControl : ¬ UInt8.ofNat c.toNat < 0x20 := by
        rw [UInt8.lt_iff_toNat_lt]
        omega
      have isAscii : UInt8.ofNat c.toNat < 0x80 := by
        rw [UInt8.lt_iff_toNat_lt]
        omega
      have same : codePointUnits c.toNat = [UInt16.ofNat c.toNat] := by
        rw [codePointUnits, if_pos (by omega)]
      rw [encodeChar_ascii ascii, List.singleton_append, parseString, if_neg (apart 0x22 rfl quote),
        if_neg (apart 0x5C rfl backslash), if_neg notControl, if_pos isAscii, byte, same]
      exact ih (by omega) _
    · -- the first byte is not ASCII, so the character is read as a whole
      obtain ⟨first, others, shape, high⟩ := encodeChar_high (Nat.le_of_not_lt ascii)
      have reads := consumeUtf8CodePoint_encodeChar c (encode text ++ 0x22 :: rest)
      rw [shape, List.cons_append] at reads ⊢
      have c22 : (0x22 : UInt8).toNat = 0x22 := rfl
      have c5C : (0x5C : UInt8).toNat = 0x5C := rfl
      have c20 : (0x20 : UInt8).toNat = 0x20 := rfl
      have c80 : (0x80 : UInt8).toNat = 0x80 := rfl
      have notQuote : first ≠ 0x22 := by
        intro same
        rw [same] at high
        omega
      have notBackslash : first ≠ 0x5C := by
        intro same
        rw [same] at high
        omega
      have notControl : ¬ first < 0x20 := by
        rw [UInt8.lt_iff_toNat_lt]
        omega
      have notAscii : ¬ first < 0x80 := by
        rw [UInt8.lt_iff_toNat_lt]
        omega
      rw [parseString, if_neg notQuote, if_neg notBackslash, if_neg notControl, if_neg notAscii,
        reads]
      exact ih (by omega) _
  | escape marker unit short others ih =>
    have slash : String.utf8EncodeChar '\\' = [0x5C] := rfl
    rw [encode_cons, encode_cons, slash, List.length_append, List.length_append,
      List.length_singleton] at enough
    obtain ⟨fuel, rfl⟩ := Nat.exists_eq_add_one_of_ne_zero (Nat.ne_zero_of_lt enough)
    rw [encode_cons, encode_cons, slash, List.append_assoc, List.append_assoc,
      List.singleton_append,
      parseString, if_neg (by decide), if_pos rfl, parseEscape_encodeChar short]
    show parseString fuel (start ++ [unit]) _ = _
    rw [ih (by omega), List.append_assoc]
    rfl
  | codeUnit first second third fourth a b c d isFirst isSecond isThird isFourth others ih =>
    rename_i text value
    have slash : String.utf8EncodeChar '\\' = [0x5C] := rfl
    have shape : encode ('\\' :: 'u' :: first :: second :: third :: fourth :: text) =
        0x5C :: (encode ['u', first, second, third, fourth] ++ encode text) := by
      rw [← encode_append, encode_cons, slash]
      rfl
    rw [shape, List.length_cons, List.length_append] at enough
    obtain ⟨fuel, rfl⟩ := Nat.exists_eq_add_one_of_ne_zero (Nat.ne_zero_of_lt enough)
    rw [shape, List.cons_append, List.append_assoc, parseString, if_neg (by decide), if_pos rfl,
      parseEscape_codeUnit isFirst isSecond isThird isFourth]
    show parseString fuel (start ++ [_]) _ = _
    rw [ih (by omega), List.append_assoc]
    rfl

/-- The fuel the parser gives a string is enough. -/
theorem parseString_named (characters : Characters text value) (rest : List UInt8) :
    parseString ((encode text ++ 0x22 :: rest).length + 1) [] (encode text ++ 0x22 :: rest) =
      .ok (value, rest) := by
  refine parseString_encode characters ?_ [] rest
  rw [List.length_append]
  omega

end GhcGateway.Parser
