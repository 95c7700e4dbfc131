/-
# The numbers of tool arguments

The expression of `normalizeJsonNumber` finds the parts of every lexeme of the grammar, and
what it makes of them is a normal form of the rational that the lexeme denotes: zero, or a
significand that ten does not divide and a power of ten. Two lexemes therefore have one normal
form exactly if they denote one rational.
-/

import GhcGateway.Conversion.ToolArgumentNumbers
import GhcGateway.Serialization.JsonSerializer
import GhcGateway.Serialization.Number

namespace GhcGateway

open Library JsonGrammar

/-- The rational that a number lexeme denotes. -/
def lexemeValue (lexeme : JsString) : ℚ :=
  let parts := decimalLexeme lexeme
  (if parts.negative then -1 else 1) * parts.significand * 10 ^ parts.exponent

namespace Conversion

variable {digits rest : JsString}

/-! ## The shape of a lexeme -/

/-- The parts of a number lexeme: the exponent with its marker, sign and digits. -/
structure NumberShape where
  negative : Bool
  integer : JsString
  fraction : JsString
  exponent : Option (UInt16 × JsString × JsString)

namespace NumberShape

def minus (shape : NumberShape) : JsString := if shape.negative then [0x2D] else []

def fractionText (shape : NumberShape) : JsString :=
  if shape.fraction = [] then [] else 0x2E :: shape.fraction

def exponentText (shape : NumberShape) : JsString :=
  match shape.exponent with
  | none => []
  | some (marker, sign, digits) => marker :: (sign ++ digits)

def lexeme (shape : NumberShape) : JsString :=
  shape.minus ++ (shape.integer ++ (shape.fractionText ++ shape.exponentText))

/-- The power of ten behind the marker. -/
def scale (shape : NumberShape) : Int :=
  match shape.exponent with
  | none => 0
  | some (_, sign, digits) => signedValue sign digits

structure Valid (shape : NumberShape) : Prop where
  someInteger : shape.integer ≠ []
  integer : AreDigits shape.integer
  fraction : AreDigits shape.fraction
  marker : ∀ {marker sign digits}, shape.exponent = some (marker, sign, digits) →
    marker = 0x65 ∨ marker = 0x45
  sign : ∀ {marker sign digits}, shape.exponent = some (marker, sign, digits) →
    sign = [] ∨ sign = [0x2B] ∨ sign = [0x2D]
  someDigits : ∀ {marker sign digits}, shape.exponent = some (marker, sign, digits) → digits ≠ []
  digits : ∀ {marker sign digits}, shape.exponent = some (marker, sign, digits) →
    AreDigits digits

end NumberShape

/-- Nothing that starts here continues a run of digits. -/
def StopsDigits (rest : JsString) : Prop :=
  ∀ unit, rest.head? = some unit → isDigitUnit unit = false

theorem takeWhile_digits (are : AreDigits digits) (stops : StopsDigits rest) :
    (digits ++ rest).takeWhile isDigitUnit = digits := by
  rw [List.takeWhile_append_of_pos are]
  cases rest with
  | nil => simp
  | cons unit rest => simp [stops unit rfl]

theorem dropWhile_digits (are : AreDigits digits) (stops : StopsDigits rest) :
    (digits ++ rest).dropWhile isDigitUnit = rest := by
  rw [List.dropWhile_append_of_pos are]
  cases rest with
  | nil => rfl
  | cons unit rest => simp [stops unit rfl]

theorem head_isDigit (are : AreDigits digits) (nonempty : digits ≠ []) :
    ∃ unit rest, digits = unit :: rest ∧ isDigitUnit unit = true := by
  cases digits with
  | nil => exact absurd rfl nonempty
  | cons unit rest => exact ⟨unit, rest, rfl, are unit List.mem_cons_self⟩

namespace NumberShape

variable {shape : NumberShape}

theorem Valid.exponent_stops (valid : shape.Valid) : StopsDigits shape.exponentText := by
  intro unit isHead
  unfold exponentText at isHead
  split at isHead
  case h_1 => cases isHead
  case h_2 marker sign digits isExponent =>
    cases isHead
    rcases valid.marker isExponent with rfl | rfl <;> rfl

theorem Valid.fraction_stops (valid : shape.Valid) :
    StopsDigits (shape.fractionText ++ shape.exponentText) := by
  unfold fractionText
  split
  case isTrue => exact valid.exponent_stops
  case isFalse =>
    intro unit isHead
    cases isHead
    rfl

theorem Valid.splitMinusUnit_eq (valid : shape.Valid) :
    splitMinusUnit shape.lexeme =
      (shape.minus, shape.integer ++ (shape.fractionText ++ shape.exponentText)) := by
  obtain ⟨unit, rest, isInteger, isDigit⟩ := head_isDigit valid.integer valid.someInteger
  have notMinus : unit ≠ 0x2D := fun same => by
    rw [same] at isDigit
    cases isDigit
  unfold lexeme minus
  split
  · rfl
  · rw [isInteger]
    unfold splitMinusUnit
    split
    · next same =>
      cases same
      exact absurd rfl notMinus
    · rfl

theorem Valid.splitFraction_eq (valid : shape.Valid) :
    splitFraction (shape.fractionText ++ shape.exponentText) =
      (shape.fraction, shape.exponentText) := by
  unfold fractionText
  split
  case isTrue none =>
    rw [none, List.nil_append]
    unfold exponentText
    split
    case h_1 => rfl
    case h_2 marker sign digits isExponent =>
      have notPoint : marker ≠ 0x2E := by
        rcases valid.marker isExponent with rfl | rfl <;> decide
      unfold splitFraction
      split
      · next same =>
        cases same
        exact absurd rfl notPoint
      · rfl
  case isFalse some =>
    rw [List.cons_append, splitFraction, takeWhile_digits valid.fraction valid.exponent_stops,
      dropWhile_digits valid.fraction valid.exponent_stops, if_neg some]

theorem splitSignUnit_append {sign : JsString} (isSign : sign = [] ∨ sign = [0x2B] ∨ sign = [0x2D])
    (are : AreDigits digits) : splitSignUnit (sign ++ digits) = (sign, digits) := by
  rcases isSign with rfl | rfl | rfl
  · cases digits with
    | nil => rfl
    | cons unit rest =>
      have isDigit := are unit List.mem_cons_self
      rw [List.nil_append, splitSignUnit, if_neg]
      rintro (rfl | rfl)
      · cases isDigit
      · cases isDigit
  · rfl
  · rfl

theorem Valid.splitExponent_eq (valid : shape.Valid) :
    splitExponent shape.exponentText =
      (shape.exponent.map fun parts => parts.2.1 ++ parts.2.2, []) := by
  unfold exponentText
  split
  case h_1 none => rw [none]; rfl
  case h_2 marker sign digits isExponent =>
    have are := valid.digits isExponent
    have all : digits.takeWhile isDigitUnit = digits := List.takeWhile_eq_self_iff.mpr are
    have none : digits.dropWhile isDigitUnit = [] := List.dropWhile_eq_nil_iff.mpr are
    rw [splitExponent, splitSignUnit_append (valid.sign isExponent) are, isExponent]
    dsimp only
    rw [if_pos, all, none]
    · rfl
    · exact ⟨valid.marker isExponent, by rw [all]; exact valid.someDigits isExponent⟩

/-- The expression finds the parts. -/
theorem Valid.matchDecimal_eq (valid : shape.Valid) :
    matchDecimal shape.lexeme = some ⟨shape.minus, shape.integer, shape.fraction,
      shape.exponent.map fun parts => parts.2.1 ++ parts.2.2⟩ := by
  rw [matchDecimal, valid.splitMinusUnit_eq]
  dsimp only
  rw [dropWhile_digits valid.integer valid.fraction_stops, valid.splitFraction_eq]
  dsimp only
  rw [valid.splitExponent_eq, takeWhile_digits valid.integer valid.fraction_stops]
  dsimp only
  rw [if_neg]
  simpa using valid.someInteger

theorem digitsValue_eq (digits : JsString) : digitsValue digits = magnitude digits := by
  have general (digits : JsString) (start : Nat) :
      digits.foldl (fun value digit => value * 10 + (digit.toNat - 0x30)) start =
        magnitude digits + 10 ^ digits.length * start := by
    induction digits generalizing start with
    | nil => simp [magnitude]
    | cons unit digits ih =>
      have split := magnitude_append [unit] digits
      have single : magnitude [unit] = digitValue unit := by
        simp [magnitude, reversedMagnitude_cons]
      rw [List.singleton_append, single] at split
      rw [List.foldl_cons, ih, split, List.length_cons, pow_succ, digitValue]
      ring
  rw [digitsValue, general]
  simp

theorem Valid.decimalLexeme_eq (valid : shape.Valid) :
    decimalLexeme shape.lexeme = ⟨shape.negative, magnitude (shape.integer ++ shape.fraction),
      shape.scale - shape.fraction.length⟩ := by
  obtain ⟨unit, rest, isInteger, isDigit⟩ := head_isDigit valid.integer valid.someInteger
  have notMinus : unit ≠ 0x2D := fun same => by
    rw [same] at isDigit
    cases isDigit
  have negative : (shape.lexeme.head? = some 0x2D) ↔ shape.negative = true := by
    unfold lexeme minus
    cases shape.negative <;> simp [isInteger, notMinus]
  have unsigned : (if shape.negative = true then shape.lexeme.drop 1 else shape.lexeme) =
      shape.integer ++ (shape.fractionText ++ shape.exponentText) := by
    unfold lexeme minus
    cases shape.negative <;> simp
  have integer := takeWhile_digits valid.integer valid.fraction_stops
  have isDigitUnit_eq : (fun unit : UInt16 => decide (0x30 ≤ unit) && decide (unit ≤ 0x39)) =
      isDigitUnit := rfl
  have fraction : (if (shape.fractionText ++ shape.exponentText).head? = some 0x2E then
      ((shape.fractionText ++ shape.exponentText).drop 1).takeWhile isDigitUnit else []) =
        shape.fraction ∧
      (if (shape.fractionText ++ shape.exponentText).head? = some 0x2E then
        ((shape.fractionText ++ shape.exponentText).drop 1).drop shape.fraction.length
      else shape.fractionText ++ shape.exponentText) = shape.exponentText := by
    unfold fractionText
    by_cases none : shape.fraction = []
    · have notPoint : shape.exponentText.head? ≠ some 0x2E := by
        unfold exponentText
        split
        · simp
        · next marker sign digits isExponent =>
          rcases valid.marker isExponent with rfl | rfl <;> simp
      simp [none, notPoint]
    · simp [none, takeWhile_digits valid.fraction valid.exponent_stops]
  simp only [decimalLexeme, isDigitUnit_eq, negative, unsigned, integer, List.drop_left, fraction.1,
    fraction.2, digitsValue_eq, DecimalLexeme.mk.injEq]
  refine ⟨by simp, trivial, congrArg (· - _) ?_⟩
  cases isExponent : shape.exponent with
  | none =>
    rw [exponentText, NumberShape.scale, isExponent]
    rfl
  | some parts =>
    obtain ⟨marker, sign, digits⟩ := parts
    rw [exponentText, NumberShape.scale, isExponent, List.drop_one, List.tail_cons]
    have are := valid.digits isExponent
    rcases valid.sign isExponent with rfl | rfl | rfl
    · obtain ⟨unit, rest, isDigits, isDigit⟩ := head_isDigit are (valid.someDigits isExponent)
      rw [isDigits, List.nil_append]
      split
      · next same => cases same; cases isDigit
      · next same => cases same; cases isDigit
      · rfl
    · simp [signedValue]
    · simp [signedValue]

end NumberShape

theorem areDigits_lexemeOf {text : List Char} (digits : ∀ c ∈ text, c.isDigit = true) :
    AreDigits (lexemeOf text) := by
  intro unit member
  obtain ⟨c, ofText, rfl⟩ := List.mem_map.mp member
  have bounds := (Parser.charIsDigit_iff c).mp (digits c ofText)
  rw [isDigitUnit_iff, toNat_lexemeOf (by omega)]
  exact bounds

theorem lexemeOf_ne_nil {text : List Char} (some : text ≠ []) : lexemeOf text ≠ [] :=
  fun none => some (List.map_eq_nil_iff.mp none)

/-- The grammar of numbers is that of valid shapes. -/
theorem exists_shape {text : List Char} (number : Number text) :
    ∃ shape : NumberShape, shape.Valid ∧ lexemeOf text = shape.lexeme := by
  obtain ⟨minus, integer, fraction, exponent, isMinus, isInteger, isFraction, isExponent⟩ := number
  have integerDigits : integer ≠ [] ∧ ∀ c ∈ integer, c.isDigit = true := by
    cases isInteger with
    | zero => exact ⟨List.cons_ne_nil _ _, by simp⟩
    | digits first rest digit nonzero digits =>
      exact ⟨List.cons_ne_nil _ _, List.forall_mem_cons.mpr ⟨digit, digits⟩⟩
  obtain ⟨fractionDigits, areFraction, fractionText⟩ : ∃ digits, AreDigits digits ∧
      lexemeOf fraction = if digits = [] then [] else 0x2E :: digits := by
    cases isFraction with
    | none => exact ⟨[], areDigits_nil, rfl⟩
    | some digits spelled =>
      refine ⟨lexemeOf digits, areDigits_lexemeOf spelled.2, ?_⟩
      rw [if_neg (lexemeOf_ne_nil spelled.1)]
      rfl
  have signed : lexemeOf minus = if decide (minus = ['-']) then [0x2D] else [] := by
    rcases isMinus with rfl | rfl <;> rfl
  cases isExponent with
  | none =>
    refine ⟨⟨decide (minus = ['-']), lexemeOf integer, fractionDigits, none⟩,
      ⟨lexemeOf_ne_nil integerDigits.1, areDigits_lexemeOf integerDigits.2, areFraction,
        nofun, nofun, nofun, nofun⟩, ?_⟩
    simp only [lexemeOf_append, signed, fractionText, List.append_assoc]
    rfl
  | some marker sign digits isMarker isSign spelled =>
    refine ⟨⟨decide (minus = ['-']), lexemeOf integer, fractionDigits,
      some (UInt16.ofNat marker.toNat, lexemeOf sign, lexemeOf digits)⟩,
      ⟨lexemeOf_ne_nil integerDigits.1, areDigits_lexemeOf integerDigits.2, areFraction,
        ?_, ?_, ?_, ?_⟩, ?_⟩
    · rintro _ _ _ ⟨⟩
      rcases isMarker with rfl | rfl
      · exact .inl rfl
      · exact .inr rfl
    · rintro _ _ _ ⟨⟩
      rcases isSign with rfl | rfl | rfl
      · exact .inl rfl
      · exact .inr (.inl rfl)
      · exact .inr (.inr rfl)
    · rintro _ _ _ ⟨⟩
      exact lexemeOf_ne_nil spelled.1
    · rintro _ _ _ ⟨⟩
      exact areDigits_lexemeOf spelled.2
    · rw [lexemeOf_append, lexemeOf_append, lexemeOf_append, List.cons_append,
        ← List.singleton_append,
        lexemeOf_append, lexemeOf_append, signed, fractionText]
      simp only [List.append_assoc]
      rfl

/-! ## Normal numbers -/

/-- What a normalised lexeme says: zero, or a significand without a zero at its end and the
power of ten that scales it. -/
inductive NormalNumber
  | zero
  | scientific (negative : Bool) (significand : Nat) (exponent : Int)
      (reduced : ¬ 10 ∣ significand)

namespace NormalNumber

/-- The text of `normalizeJsonNumber`. -/
def text : NormalNumber → JsString
  | zero => js "0"
  | scientific negative significand exponent _ =>
    (if negative then [0x2D] else []) ++ decimalText significand ++ js "e" ++ integerText exponent

def value : NormalNumber → ℚ
  | zero => 0
  | scientific negative significand exponent _ =>
    (if negative then -1 else 1) * significand * 10 ^ exponent

theorem js_e : js "e" = [0x65] := by decide

theorem matchDecimal_text : ∀ normal : NormalNumber, matchDecimal normal.text =
    match normal with
    | zero => some ⟨[], js "0", [], none⟩
    | scientific negative significand exponent _ =>
      some ⟨if negative then [0x2D] else [], decimalText significand, [], integerText exponent⟩
  | zero => rfl
  | scientific negative significand exponent _ => by
    obtain ⟨sign, isSign, spelled, -⟩ := integerText_eq exponent
    have valid : NumberShape.Valid ⟨negative, decimalText significand, [],
        some (0x65, sign, decimalText exponent.natAbs)⟩ := by
      refine ⟨decimalText_ne_nil _, areDigits_decimalText _, areDigits_nil, ?_, ?_, ?_, ?_⟩
      · rintro _ _ _ ⟨⟩
        exact .inl rfl
      · rintro _ _ _ ⟨⟩
        exact isSign
      · rintro _ _ _ ⟨⟩
        exact decimalText_ne_nil _
      · rintro _ _ _ ⟨⟩
        exact areDigits_decimalText _
    have found := valid.matchDecimal_eq
    simp only [NumberShape.lexeme, NumberShape.minus, NumberShape.fractionText,
      NumberShape.exponentText, if_true, List.nil_append, Option.map_some, ← spelled] at found
    simp only [text, js_e, List.append_assoc, List.singleton_append]
    exact found

/-- Two normal texts are equal only for one number. -/
theorem text_injective : Function.Injective text := by
  intro first second same
  have found := congrArg matchDecimal same
  rw [matchDecimal_text, matchDecimal_text] at found
  cases first with
  | zero =>
    cases second with
    | zero => rfl
    | scientific => simp at found
  | scientific negative significand exponent reduced =>
    cases second with
    | zero => simp at found
    | scientific negative' significand' exponent' reduced' =>
      simp only [Option.some.injEq, DecimalMatch.mk.injEq, true_and] at found
      obtain ⟨signs, significands, exponents⟩ := found
      have sameSignificand := decimalText_injective significands
      have sameExponent : exponent = exponent' := by
        have parts := congrArg signedDecimal exponents
        rw [signedDecimal_integerText, signedDecimal_integerText, SignedDecimal.mk.injEq] at parts
        have magnitudes := decimalText_injective parts.2
        have negatives : exponent < 0 ↔ exponent' < 0 := by simpa using parts.1
        omega
      have sameSign : negative = negative' := by
        cases negative <;> cases negative' <;> simp_all
      subst sameSignificand sameExponent sameSign
      rfl

theorem scientific_value_ne_zero {negative : Bool} {significand : Nat} {exponent : Int}
    (reduced : ¬ 10 ∣ significand) :
      (scientific negative significand exponent reduced).value ≠ 0 := by
  have nonzero : significand ≠ 0 := fun zero => reduced (zero ▸ dvd_zero 10)
  have power : (10 : ℚ) ^ exponent ≠ 0 := zpow_ne_zero _ (by norm_num)
  rw [value]
  apply mul_ne_zero (mul_ne_zero ?_ (Nat.cast_ne_zero.mpr nonzero)) power
  cases negative <;> norm_num

/-- Two normal numbers have one value only if they are the same. -/
theorem value_injective : Function.Injective value := by
  intro first second same
  cases first with
  | zero =>
    cases second with
    | zero => rfl
    | scientific _ _ _ reduced => exact absurd same.symm (scientific_value_ne_zero reduced)
  | scientific negative significand exponent reduced =>
    cases second with
    | zero => exact absurd same (scientific_value_ne_zero reduced)
    | scientific negative' significand' exponent' reduced' =>
      have positive (number : Nat) (power : Int) (some : ¬ 10 ∣ number) :
          0 < (number : ℚ) * 10 ^ power := by
        have nonzero : number ≠ 0 := fun zero => some (zero ▸ dvd_zero 10)
        have numberPositive : 0 < (number : ℚ) := Nat.cast_pos.mpr (Nat.pos_of_ne_zero nonzero)
        positivity
      have left := positive significand exponent reduced
      have right := positive significand' exponent' reduced'
      have sameSign : negative = negative' := by
        cases negative <;> cases negative' <;> simp [value] at same ⊢ <;> linarith
      subst sameSign
      have magnitudes : (significand : ℚ) * ((10 : ℕ) : ℚ) ^ exponent =
          significand' * ((10 : ℕ) : ℚ) ^ exponent' := by
        cases negative <;> simp [value] at same ⊢ <;> linarith
      obtain ⟨rfl, rfl⟩ := scientific_unique (by decide) reduced reduced' magnitudes
      rfl

end NormalNumber

/-- Normalising keeps the number and writes it as a normal one. -/
theorem NumberShape.Valid.normalize {shape : NumberShape} (valid : shape.Valid) :
    ∃ normal : NormalNumber, normalizeJsonNumber shape.lexeme = normal.text ∧
      lexemeValue shape.lexeme = normal.value := by
  have digits := valid.integer.append valid.fraction
  have stripped := stripLeadingZeros_eq digits
  rw [normalizeJsonNumber, valid.matchDecimal_eq, lexemeValue, valid.decimalLexeme_eq]
  dsimp only
  by_cases isZero : magnitude (shape.integer ++ shape.fraction) = 0
  · have empty : stripLeadingZeros (shape.integer ++ shape.fraction) = [] := by
      rw [stripped, List.reverse_eq_nil_iff, reversedDecimal_eq_nil]
      exact isZero
    rw [if_pos empty]
    exact ⟨.zero, rfl, by rw [isZero]; simp [NormalNumber.value]⟩
  · have nonempty : stripLeadingZeros (shape.integer ++ shape.fraction) ≠ [] := by
      rw [stripped, Ne, List.reverse_eq_nil_iff, reversedDecimal_eq_nil]
      exact isZero
    obtain ⟨significand, power, split, factors, reduced⟩ := splitTrailingZeros_eq isZero
    have exponent : adjustSignedDecimal
        ((shape.exponent.map fun parts => parts.2.1 ++ parts.2.2).getD (js "0"))
        (-shape.fraction.length + power) =
          integerText (shape.scale + (-shape.fraction.length + power)) := by
      rw [NumberShape.scale]
      split
      · next none =>
        have adjusted := adjustSignedDecimal_append (.inl (Eq.refl []))
          (areDigits_decimalText 0) (-shape.fraction.length + power)
        rw [decimalText_zero] at adjusted
        rw [none]
        exact adjusted
      · next marker sign digits isExponent =>
        rw [isExponent]
        exact adjustSignedDecimal_append (valid.sign isExponent) (valid.digits isExponent) _
    rw [if_neg nonempty, stripped, split]
    dsimp only
    refine ⟨.scientific shape.negative significand
      (shape.scale + (-shape.fraction.length + power)) reduced, ?_, ?_⟩
    · rw [exponent]
      rfl
    · have base : (10 : ℚ) ≠ 0 := by norm_num
      have shift : shape.scale + (-(shape.fraction.length : Int) + power) =
          (power : Int) + (shape.scale - shape.fraction.length) := by ring
      rw [factors, NormalNumber.value, shift, zpow_add₀ base, zpow_natCast]
      push_cast
      ring

/-- Two numbers have one normal form exactly if they are the same rational. -/
theorem normalizeJsonNumber_eq_iff {left right : List Char} (isLeft : Number left)
    (isRight : Number right) :
    normalizeJsonNumber (lexemeOf left) = normalizeJsonNumber (lexemeOf right) ↔
      lexemeValue (lexemeOf left) = lexemeValue (lexemeOf right) := by
  obtain ⟨leftShape, leftValid, leftText⟩ := exists_shape isLeft
  obtain ⟨rightShape, rightValid, rightText⟩ := exists_shape isRight
  obtain ⟨leftNormal, leftNormalized, leftValue⟩ := leftValid.normalize
  obtain ⟨rightNormal, rightNormalized, rightValue⟩ := rightValid.normalize
  rw [leftText, rightText, leftNormalized, rightNormalized, leftValue, rightValue,
    NormalNumber.text_injective.eq_iff, NormalNumber.value_injective.eq_iff]

end Conversion

end GhcGateway
