/-
# The decimal arithmetic of tool arguments

Each digit routine of the comparison computes what its name says on numbers of any length:
stripped digits are the decimal text of their value, and sums, differences and comparisons of
decimal texts are those of the numbers. `adjustSignedDecimal` therefore adds integers, and
`normalizeJsonNumber` writes a lexeme as a significand without trailing zeros and its
exponent.
-/

import GhcGateway.Conversion.ToolArguments
import GhcGateway.Library.Scientific

namespace GhcGateway.Conversion

open Library

variable {digits sign : JsString} {unit : UInt16} {value right left digit : Nat}

/-! ## Digits -/

theorem isDigitUnit_iff : isDigitUnit unit = true ↔ 0x30 ≤ unit.toNat ∧ unit.toNat ≤ 0x39 := by
  simp [isDigitUnit, UInt16.le_iff_toNat_le]

@[simp]
theorem digitValue_digitUnit (small : digit < 10) : digitValue (digitUnit digit) = digit := by
  rw [digitValue, digitUnit, UInt16.toNat_ofNat']
  omega

theorem isDigitUnit_digitUnit (small : digit < 10) : isDigitUnit (digitUnit digit) = true := by
  rw [isDigitUnit_iff, digitUnit, UInt16.toNat_ofNat']
  omega

theorem digitUnit_digitValue (isDigit : isDigitUnit unit = true) :
    digitUnit (digitValue unit) = unit := by
  have bounds := isDigitUnit_iff.mp isDigit
  apply UInt16.toNat_inj.mp
  rw [digitUnit, digitValue, UInt16.toNat_ofNat']
  omega

theorem digitValue_lt (isDigit : isDigitUnit unit = true) : digitValue unit < 10 := by
  have bounds := isDigitUnit_iff.mp isDigit
  rw [digitValue]
  omega

theorem digitValue_eq_zero (isDigit : isDigitUnit unit = true) :
    digitValue unit = 0 ↔ unit = 0x30 := by
  have bounds := isDigitUnit_iff.mp isDigit
  rw [digitValue, ← UInt16.toNat_inj, show (0x30 : UInt16).toNat = 0x30 from rfl]
  omega

theorem digitValue_injective {first second : UInt16} (isFirst : isDigitUnit first = true)
    (isSecond : isDigitUnit second = true) (same : digitValue first = digitValue second) :
    first = second := by
  rw [← digitUnit_digitValue isFirst, same, digitUnit_digitValue isSecond]

def AreDigits (digits : JsString) : Prop := ∀ unit ∈ digits, isDigitUnit unit = true

def reversedMagnitude (digits : JsString) : Nat := Nat.ofDigits 10 (digits.map digitValue)

def magnitude (digits : JsString) : Nat := reversedMagnitude digits.reverse

theorem areDigits_nil : AreDigits [] := fun _ member => nomatch member

theorem AreDigits.append {first second : JsString} (isFirst : AreDigits first)
    (isSecond : AreDigits second) : AreDigits (first ++ second) :=
  List.forall_mem_append.mpr ⟨isFirst, isSecond⟩

theorem AreDigits.reverse (are : AreDigits digits) :
    AreDigits digits.reverse := fun unit member => are unit (List.mem_reverse.mp member)

@[simp]
theorem reversedMagnitude_nil : reversedMagnitude [] = 0 := rfl

theorem reversedMagnitude_cons (unit : UInt16) (digits : JsString) :
    reversedMagnitude (unit :: digits) = digitValue unit + 10 * reversedMagnitude digits := rfl

theorem reversedMagnitude_append (first second : JsString) :
    reversedMagnitude (first ++ second) =
      reversedMagnitude first + 10 ^ first.length * reversedMagnitude second := by
  simp [reversedMagnitude, Nat.ofDigits_append]

theorem reversedMagnitude_lt (are : AreDigits digits) :
    reversedMagnitude digits < 10 ^ digits.length := by
  have below : ∀ value ∈ digits.map digitValue, value < 10 := by
    intro value member
    obtain ⟨unit, isUnit, rfl⟩ := List.mem_map.mp member
    exact digitValue_lt (are unit isUnit)
  have bound := Nat.ofDigits_lt_base_pow_length (by decide) below
  rw [List.length_map] at bound
  exact bound

theorem magnitude_append (first second : JsString) :
    magnitude (first ++ second) = magnitude second + 10 ^ second.length * magnitude first := by
  simp [magnitude, reversedMagnitude_append]

/-! ## Decimal texts -/

theorem areDigits_reversedDecimal (value : Nat) : AreDigits (reversedDecimal value) := by
  intro unit member
  obtain ⟨digit, isDigit, rfl⟩ := List.mem_map.mp member
  exact isDigitUnit_digitUnit (Nat.digits_lt_base (by decide) isDigit)

theorem map_reversedDecimal (value : Nat) :
    (reversedDecimal value).map digitValue = Nat.digits 10 value := by
  rw [reversedDecimal, List.map_map]
  conv_rhs => rw [← List.map_id (Nat.digits 10 value)]
  apply List.map_congr_left
  intro digit member
  exact digitValue_digitUnit (Nat.digits_lt_base (by decide) member)

@[simp]
theorem reversedMagnitude_reversedDecimal (value : Nat) :
    reversedMagnitude (reversedDecimal value) = value := by
  rw [reversedMagnitude, map_reversedDecimal, Nat.ofDigits_digits]

theorem length_reversedDecimal (value : Nat) :
    (reversedDecimal value).length = (Nat.digits 10 value).length := List.length_map _

theorem reversedDecimal_eq_nil : reversedDecimal value = [] ↔ value = 0 := by
  rw [reversedDecimal, List.map_eq_nil_iff, Nat.digits_eq_nil_iff_eq_zero]

/-- Digits that do not end in a zero are the decimal text of their value, reversed. -/
theorem eq_reversedDecimal (are : AreDigits digits) (last : digits.getLast? ≠ some 0x30) :
    digits = reversedDecimal (reversedMagnitude digits) := by
  have values : digits.map digitValue = Nat.digits 10 (reversedMagnitude digits) := by
    apply eq_digits_of_ofDigits (by decide) ?_ ?_ rfl
    · intro value member
      obtain ⟨unit, isUnit, rfl⟩ := List.mem_map.mp member
      exact digitValue_lt (are unit isUnit)
    · intro some isZero
      have nonempty : digits ≠ [] := fun empty => some (by rw [empty]; rfl)
      rw [List.getLast_map, digitValue_eq_zero (are _ (List.getLast_mem nonempty))] at isZero
      exact last (by rw [List.getLast?_eq_some_getLast nonempty, isZero])
  rw [reversedDecimal, ← values, List.map_map]
  conv_lhs => rw [← List.map_id digits]
  apply List.map_congr_left
  intro unit member
  exact (digitUnit_digitValue (are unit member)).symm

theorem reversedMagnitude_eq_zero (zeros : ∀ unit ∈ digits, unit = 0x30) :
    reversedMagnitude digits = 0 := by
  induction digits with
  | nil => rfl
  | cons unit digits ih =>
    rw [reversedMagnitude_cons, zeros unit List.mem_cons_self,
      ih fun other member => zeros other (List.mem_cons_of_mem _ member)]
    rfl

/-- Stripped digits are the decimal text of their value. -/
theorem stripLeadingZeros_eq (are : AreDigits digits) :
    stripLeadingZeros digits = (reversedDecimal (magnitude digits)).reverse := by
  have split : digits.takeWhile (· = 0x30) ++ stripLeadingZeros digits = digits :=
    List.takeWhile_append_dropWhile
  have zeros : ∀ unit ∈ digits.takeWhile (· = 0x30), unit = 0x30 := fun unit member => by
    simpa using List.mem_takeWhile_imp member
  have value : magnitude digits = magnitude (stripLeadingZeros digits) := by
    have none : magnitude (digits.takeWhile (· = 0x30)) = 0 :=
      reversedMagnitude_eq_zero fun unit member => zeros unit (List.mem_reverse.mp member)
    conv_lhs => rw [← split]
    rw [magnitude_append, none, Nat.mul_zero, Nat.add_zero]
  have rest : AreDigits (stripLeadingZeros digits) := fun unit member =>
    are unit ((List.dropWhile_suffix _).subset member)
  have head : (stripLeadingZeros digits).reverse.getLast? ≠ some 0x30 := by
    rw [List.getLast?_reverse]
    intro isZero
    have notZero := List.head?_dropWhile_not (· = (0x30 : UInt16)) digits
    rw [show (digits.dropWhile (· = 0x30)).head? = some 0x30 from isZero] at notZero
    simp at notZero
  rw [value, magnitude, ← eq_reversedDecimal rest.reverse head, List.reverse_reverse]

theorem orZero_stripLeadingZeros (are : AreDigits digits) :
    orZero (stripLeadingZeros digits) = decimalText (magnitude digits) := by
  rw [stripLeadingZeros_eq are, decimalText]

theorem decimalText_zero : decimalText 0 = js "0" := by decide

theorem decimalText_of_ne_zero (nonzero : value ≠ 0) :
    decimalText value = (reversedDecimal value).reverse := by
  rw [decimalText, orZero, if_neg]
  simpa [reversedDecimal_eq_nil] using nonzero

theorem js_zero : js "0" = [0x30] := by decide

theorem areDigits_decimalText (value : Nat) : AreDigits (decimalText value) := by
  by_cases zero : value = 0
  · rw [zero, decimalText_zero, js_zero]
    intro unit member
    rw [List.mem_singleton.mp member]
    rfl
  · rw [decimalText_of_ne_zero zero]
    exact (areDigits_reversedDecimal value).reverse

@[simp]
theorem magnitude_decimalText (value : Nat) : magnitude (decimalText value) = value := by
  by_cases zero : value = 0
  · rw [zero, decimalText_zero, js_zero]
    rfl
  · rw [decimalText_of_ne_zero zero, magnitude, List.reverse_reverse,
      reversedMagnitude_reversedDecimal]

theorem decimalText_injective : Function.Injective decimalText :=
  Function.LeftInverse.injective magnitude_decimalText

theorem decimalText_eq_zero : decimalText value = js "0" ↔ value = 0 := by
  rw [← decimalText_zero, decimalText_injective.eq_iff]

theorem decimalText_ne_nil (value : Nat) : decimalText value ≠ [] := by
  intro empty
  have zero : value = 0 := by rw [← magnitude_decimalText value, empty]; rfl
  rw [zero, decimalText_zero, js_zero] at empty
  cases empty

theorem length_decimalText_pos (value : Nat) : 0 < (decimalText value).length :=
  List.length_pos_iff.mpr (decimalText_ne_nil value)

/-! ## Comparing -/

theorem lt_of_length_decimalText_lt
    (shorter : (decimalText left).length < (decimalText right).length) : left < right := by
  by_cases rightZero : right = 0
  · have positive := length_decimalText_pos left
    rw [rightZero, decimalText_zero, js_zero, List.length_singleton] at shorter
    omega
  · by_cases leftZero : left = 0
    · omega
    · rw [decimalText_of_ne_zero leftZero, decimalText_of_ne_zero rightZero, List.length_reverse,
        List.length_reverse, length_reversedDecimal, length_reversedDecimal] at shorter
      exact lt_of_length_digits_lt shorter

theorem decimalText_lt_iff (sameLength : (decimalText left).length = (decimalText right).length) :
    decimalText left < decimalText right ↔ left < right := by
  have order : ∀ {first second : UInt16}, isDigitUnit first = true → isDigitUnit second = true →
      (first < second ↔ digitValue first < digitValue second) := by
    intro first second isFirst isSecond
    have firstBounds := isDigitUnit_iff.mp isFirst
    have secondBounds := isDigitUnit_iff.mp isSecond
    rw [UInt16.lt_iff_toNat_lt, digitValue, digitValue]
    omega
  have values (value : Nat) :
      Nat.ofDigits 10 ((decimalText value).map digitValue).reverse = value := by
    rw [← List.map_reverse]
    exact magnitude_decimalText value
  rw [lt_iff_ofDigits_reverse_lt (by decide) order digitValue_injective digitValue_lt sameLength
    (areDigits_decimalText left) (areDigits_decimalText right), values, values]

theorem compareMagnitude_decimalText (left right : Nat) :
    compareMagnitude (decimalText left) (decimalText right) = compare left right := by
  rw [compareMagnitude]
  split
  case isTrue sameLength =>
    have lessIff := decimalText_lt_iff sameLength.symm
    rcases lt_trichotomy left right with less | same | greater
    · have apart : decimalText left ≠ decimalText right := fun same =>
        absurd (decimalText_injective same) (by omega)
      rw [if_neg apart, if_neg fun more => absurd (lessIff.mp more) (by omega),
        compare_lt_iff_lt.mpr less]
    · rw [if_pos (congrArg _ same), compare_eq_iff_eq.mpr same]
    · have apart : decimalText left ≠ decimalText right := fun same =>
        absurd (decimalText_injective same) (by omega)
      rw [if_neg apart, if_pos (lessIff.mpr greater), compare_gt_iff_gt.mpr greater]
  case isFalse apart =>
    split
    case isTrue shorter =>
      exact (compare_gt_iff_gt.mpr (lt_of_length_decimalText_lt shorter)).symm
    case isFalse notShorter =>
      exact (compare_lt_iff_lt.mpr (lt_of_length_decimalText_lt (by omega))).symm

/-! ## Adding -/

/-- The digit of an offset, zero where there is none. -/
theorem reversedMagnitude_eq_head (digits : JsString) :
    reversedMagnitude digits =
      (digits.head?.map digitValue).getD 0 + 10 * reversedMagnitude digits.tail := by
  cases digits <;> rfl

theorem headDigit_lt (are : AreDigits digits) : (digits.head?.map digitValue).getD 0 < 10 := by
  cases digits with
  | nil => decide
  | cons unit digits => exact digitValue_lt (are unit List.mem_cons_self)

theorem AreDigits.tail (are : AreDigits digits) : AreDigits digits.tail :=
  fun unit member => are unit (List.mem_of_mem_tail member)

theorem AreDigits.cons {digits : JsString} {digit : Nat} (small : digit < 10)
    (are : AreDigits digits) : AreDigits (digitUnit digit :: digits) :=
  List.forall_mem_cons.mpr ⟨isDigitUnit_digitUnit small, are⟩

/-- The loop adds, and a digit for the last carry stands for a power of ten. -/
theorem addDigits_spec (offsets : Nat) {left right : JsString} (carry : Nat)
    (isLeft : AreDigits left) (isRight : AreDigits right) (leftFits : left.length ≤ offsets)
    (rightFits : right.length ≤ offsets) (small : carry ≤ 1) :
    AreDigits (addDigits offsets left right carry) ∧
      reversedMagnitude (addDigits offsets left right carry) =
        reversedMagnitude left + reversedMagnitude right + carry ∧
      ((addDigits offsets left right carry).length = offsets ∨
        (addDigits offsets left right carry).length = offsets + 1 ∧
          10 ^ offsets ≤ reversedMagnitude left + reversedMagnitude right + carry) := by
  induction offsets generalizing left right carry with
  | zero =>
    cases List.length_eq_zero_iff.mp (Nat.le_zero.mp leftFits)
    cases List.length_eq_zero_iff.mp (Nat.le_zero.mp rightFits)
    rw [addDigits]
    split
    case isTrue positive =>
      have one : carry = 1 := by omega
      subst one
      exact ⟨AreDigits.cons (by decide) areDigits_nil, by decide,
        .inr ⟨rfl, by decide⟩⟩
    case isFalse none =>
      have zero : carry = 0 := by omega
      subst zero
      exact ⟨areDigits_nil, rfl, .inl rfl⟩
  | succ offsets ih =>
    rw [addDigits]
    have leftHead := headDigit_lt isLeft
    have rightHead := headDigit_lt isRight
    have leftSplit := reversedMagnitude_eq_head left
    have rightSplit := reversedMagnitude_eq_head right
    generalize (left.head?.map digitValue).getD 0 = leftDigit at *
    generalize (right.head?.map digitValue).getD 0 = rightDigit at *
    obtain ⟨are, value, length⟩ := ih ((leftDigit + rightDigit + carry) / 10) isLeft.tail
      isRight.tail (by rw [List.length_tail]; omega) (by rw [List.length_tail]; omega) (by omega)
    refine ⟨.cons (by omega) are, ?_, ?_⟩
    · rw [reversedMagnitude_cons, value, digitValue_digitUnit (by omega)]
      omega
    · rw [List.length_cons]
      cases length with
      | inl same => exact .inl (by rw [same])
      | inr more =>
        refine .inr ⟨by rw [more.1], ?_⟩
        rw [pow_succ]
        omega

/-- A number that is not too small for its digits does not end in a zero, last digit last. -/
theorem getLast_ne_zero (are : AreDigits digits)
    (large : 10 ^ (digits.length - 1) ≤ reversedMagnitude digits) :
    digits.getLast? ≠ some 0x30 := by
  intro isZero
  obtain ⟨init, rfl⟩ : ∃ init, digits = init ++ [0x30] := List.getLast?_eq_some_iff.mp isZero
  have initDigits : AreDigits init := fun unit member => are unit (List.mem_append_left _ member)
  have bound := reversedMagnitude_lt initDigits
  rw [reversedMagnitude_append, List.length_append, List.length_singleton, Nat.add_sub_cancel,
    show reversedMagnitude [0x30] = 0 from rfl] at large
  omega

theorem pow_length_decimalText_le (value : Nat) :
    10 ^ ((decimalText value).length - 1) ≤ max 1 value := by
  by_cases zero : value = 0
  · rw [zero, decimalText_zero, js_zero]
    decide
  · have bound := Nat.base_pow_length_digits_le 10 value (by decide) zero
    have positive : 0 < (Nat.digits 10 value).length := by
      rw [List.length_pos_iff]
      exact Nat.digits_ne_nil_iff_ne_zero.mpr zero
    rw [decimalText_of_ne_zero zero, List.length_reverse, length_reversedDecimal]
    obtain ⟨rest, shape⟩ := Nat.exists_eq_succ_of_ne_zero positive.ne'
    rw [shape, Nat.succ_sub_one]
    rw [shape, pow_succ] at bound
    omega

theorem addMagnitude_decimalText (left right : Nat) :
    addMagnitude (decimalText left) (decimalText right) = decimalText (left + right) := by
  by_cases zero : left + right = 0
  · obtain ⟨rfl, rfl⟩ : left = 0 ∧ right = 0 := by omega
    decide
  · have leftBound := pow_length_decimalText_le left
    have rightBound := pow_length_decimalText_le right
    obtain ⟨are, value, length⟩ := addDigits_spec
      (max (decimalText left).length (decimalText right).length) 0
      (areDigits_decimalText left).reverse (areDigits_decimalText right).reverse (by simp) (by simp)
        (by decide)
    have leftValue : reversedMagnitude (decimalText left).reverse = left :=
      magnitude_decimalText left
    have rightValue : reversedMagnitude (decimalText right).reverse = right :=
      magnitude_decimalText right
    rw [leftValue, rightValue, Nat.add_zero] at value length
    have large : 10 ^ ((addDigits (max (decimalText left).length (decimalText right).length)
        (decimalText left).reverse (decimalText right).reverse 0).length - 1) ≤ left + right := by
      cases length with
      | inl same =>
        rw [same]
        rcases Nat.le_total (decimalText left).length (decimalText right).length with le | le
        · rw [Nat.max_eq_right le]
          omega
        · rw [Nat.max_eq_left le]
          omega
      | inr more =>
        rw [more.1, Nat.add_sub_cancel]
        exact more.2
    have text := eq_reversedDecimal are (getLast_ne_zero are (by rw [value]; exact large))
    rw [addMagnitude, text, value, decimalText_of_ne_zero zero]

/-! ## Subtracting -/

/-- The loop subtracts, up to a borrow that is left at the end. -/
theorem subtractDigits_spec {left right : JsString} (borrow : Nat) (isLeft : AreDigits left)
    (isRight : AreDigits right) (fits : right.length ≤ left.length) (small : borrow ≤ 1) :
    AreDigits (subtractDigits left right borrow) ∧
      (subtractDigits left right borrow).length = left.length ∧
      ∃ left' ≤ 1, reversedMagnitude (subtractDigits left right borrow) + reversedMagnitude right +
        borrow = reversedMagnitude left + 10 ^ left.length * left' := by
  induction left generalizing right borrow with
  | nil =>
    cases List.length_eq_zero_iff.mp (Nat.le_zero.mp fits)
    exact ⟨areDigits_nil, rfl, borrow, small, by simp [subtractDigits]⟩
  | cons unit left ih =>
    have unitSmall := digitValue_lt (isLeft unit List.mem_cons_self)
    have rightHead := headDigit_lt isRight
    have rightSplit := reversedMagnitude_eq_head right
    have rest : AreDigits left := fun other member => isLeft other (List.mem_cons_of_mem _ member)
    have restFits : right.tail.length ≤ left.length := by
      rw [List.length_tail]
      exact Nat.sub_le_of_le_add fits
    rw [subtractDigits]
    generalize (right.head?.map digitValue).getD 0 = rightDigit at *
    split
    case isTrue borrows =>
      obtain ⟨are, length, left', isSmall, value⟩ := ih 1 rest isRight.tail restFits
        (by decide)
      have digitSmall : ((digitValue unit : Int) - borrow + 10 - rightDigit).toNat < 10 := by omega
      refine ⟨.cons digitSmall are, by rw [List.length_cons, length]; rfl, left', isSmall, ?_⟩
      rw [reversedMagnitude_cons, digitValue_digitUnit digitSmall, reversedMagnitude_cons,
        List.length_cons, pow_succ, Nat.mul_right_comm]
      omega
    case isFalse enough =>
      obtain ⟨are, length, left', isSmall, value⟩ := ih 0 rest isRight.tail restFits
        (by decide)
      have digitSmall : ((digitValue unit : Int) - borrow - rightDigit).toNat < 10 := by omega
      refine ⟨.cons digitSmall are, by rw [List.length_cons, length]; rfl, left', isSmall, ?_⟩
      rw [reversedMagnitude_cons, digitValue_digitUnit digitSmall, reversedMagnitude_cons,
        List.length_cons, pow_succ, Nat.mul_right_comm]
      omega

theorem subtractMagnitude_decimalText (le : right ≤ left) :
    subtractMagnitude (decimalText left) (decimalText right) = decimalText (left - right) := by
  have fits : (decimalText right).reverse.length ≤ (decimalText left).reverse.length := by
    by_contra longer
    rw [List.length_reverse, List.length_reverse, Nat.not_le] at longer
    exact absurd (lt_of_length_decimalText_lt longer) (Nat.not_lt.mpr le)
  obtain ⟨are, length, left', isSmall, value⟩ := subtractDigits_spec 0
    (areDigits_decimalText left).reverse (areDigits_decimalText right).reverse fits (by decide)
  have leftValue : reversedMagnitude (decimalText left).reverse = left := magnitude_decimalText left
  have rightValue : reversedMagnitude (decimalText right).reverse = right :=
    magnitude_decimalText right
  have bound := reversedMagnitude_lt are
  rw [leftValue, rightValue] at value
  rw [length] at bound
  have noBorrow : left' = 0 := by
    rcases Nat.le_one_iff_eq_zero_or_eq_one.mp isSmall with zero | one
    · exact zero
    · rw [one, Nat.mul_one] at value
      omega
  rw [subtractMagnitude, orZero_stripLeadingZeros are.reverse, magnitude, List.reverse_reverse]
  congr 1
  rw [noBorrow] at value
  omega

/-! ## Signed numbers -/

/-- The value of digits behind an optional sign. -/
def signedValue (sign digits : JsString) : Int :=
  if sign = [0x2D] then -(magnitude digits : Int) else magnitude digits

theorem isDigitUnit_minus : isDigitUnit 0x2D = false := by decide

theorem isDigitUnit_plus : isDigitUnit 0x2B = false := by decide

theorem signedDecimal_append (isSign : sign = [] ∨ sign = [0x2B] ∨ sign = [0x2D])
    (are : AreDigits digits) :
    signedDecimal (sign ++ digits) = ⟨decide (signedValue sign digits < 0),
      decimalText (signedValue sign digits).natAbs⟩ := by
  have unsigned (unit : UInt16) (isHead : digits.head? = some unit) : isDigitUnit unit = true :=
    are unit (List.mem_of_head? isHead)
  have text := orZero_stripLeadingZeros are
  rcases isSign with rfl | rfl | rfl
  · have notMinus : digits.head? ≠ some 0x2D := fun isHead =>
      absurd (unsigned _ isHead) (by simp [isDigitUnit_minus])
    have notPlus : digits.head? ≠ some 0x2B := fun isHead =>
      absurd (unsigned _ isHead) (by simp [isDigitUnit_plus])
    have notNegative : ¬ (magnitude digits : Int) < 0 := by omega
    simp [signedDecimal, notMinus, notPlus, text, signedValue, notNegative]
  · have notNegative : ¬ (magnitude digits : Int) < 0 := by omega
    simp [signedDecimal, text, signedValue, notNegative]
  · by_cases zero : magnitude digits = 0
    · simp [signedDecimal, text, signedValue, zero, decimalText_zero]
    · have positive : 0 < magnitude digits := Nat.pos_of_ne_zero zero
      simp [signedDecimal, text, signedValue, zero, positive, decimalText_eq_zero]

theorem integerText_eq (value : Int) :
    ∃ sign, (sign = [] ∨ sign = [0x2B] ∨ sign = [0x2D]) ∧
      integerText value = sign ++ decimalText value.natAbs ∧
        signedValue sign (decimalText value.natAbs) = value := by
  rw [integerText]
  split
  case isTrue negative =>
    refine ⟨[0x2D], .inr (.inr rfl), rfl, ?_⟩
    rw [signedValue, if_pos rfl, magnitude_decimalText]
    omega
  case isFalse notNegative =>
    refine ⟨[], .inl rfl, rfl, ?_⟩
    rw [signedValue, if_neg (by simp), magnitude_decimalText]
    omega

theorem signedDecimal_integerText (value : Int) :
    signedDecimal (integerText value) = ⟨decide (value < 0), decimalText value.natAbs⟩ := by
  obtain ⟨sign, isSign, text, same⟩ := integerText_eq value
  rw [text, signedDecimal_append isSign (areDigits_decimalText _), same]

theorem signedMagnitude_decimalText (negative : Bool) (value : Nat) :
    signedMagnitude negative (decimalText value) =
      integerText (if negative then -(value : Int) else value) := by
  cases negative with
  | false =>
    have notNegative : ¬ (value : Int) < 0 := by omega
    simp [signedMagnitude, integerText, notNegative]
  | true =>
    have negative : (-(value : Int) < 0) ↔ value ≠ 0 := by omega
    by_cases zero : value = 0
    · simp [signedMagnitude, integerText, zero, decimalText_zero]
    · simp [signedMagnitude, integerText, zero, decimalText_eq_zero]

/-- Adjusting the text of an integer adds to it. -/
theorem adjustSignedDecimal_append (isSign : sign = [] ∨ sign = [0x2B] ∨ sign = [0x2D])
    (are : AreDigits digits) (adjustment : Int) :
    adjustSignedDecimal (sign ++ digits) adjustment =
      integerText (signedValue sign digits + adjustment) := by
  rw [adjustSignedDecimal, signedDecimal_append isSign are, signedDecimal_integerText]
  generalize signedValue sign digits = value
  dsimp only
  split
  case isTrue sameSign =>
    rw [addMagnitude_decimalText, signedMagnitude_decimalText]
    congr 1
    have signs : value < 0 ↔ adjustment < 0 := by simpa using sameSign
    by_cases negative : value < 0
    · have adjustmentNegative := signs.mp negative
      rw [if_pos (by simpa using negative)]
      omega
    · have adjustmentPositive := mt signs.mpr negative
      rw [if_neg (by simpa using negative)]
      omega
  case isFalse apart =>
    have signs : ¬ (value < 0 ↔ adjustment < 0) := by simpa using apart
    rw [compareMagnitude_decimalText]
    rcases lt_trichotomy value.natAbs adjustment.natAbs with less | same | greater
    · rw [compare_lt_iff_lt.mpr less]
      dsimp only
      rw [subtractMagnitude_decimalText less.le, signedMagnitude_decimalText]
      congr 1
      by_cases negative : adjustment < 0
      · rw [if_pos (by simpa using negative)]
        omega
      · rw [if_neg (by simpa using negative)]
        omega
    · rw [compare_eq_iff_eq.mpr same]
      have cancels : value + adjustment = 0 := by omega
      rw [cancels]
      exact decimalText_zero.symm
    · rw [compare_gt_iff_gt.mpr greater]
      dsimp only
      rw [subtractMagnitude_decimalText greater.le, signedMagnitude_decimalText]
      congr 1
      by_cases negative : value < 0
      · rw [if_pos (by simpa using negative)]
        omega
      · rw [if_neg (by simpa using negative)]
        omega

/-! ## The significand -/

/-- The zeros at the end of a number are a power of ten in it. -/
theorem splitTrailingZeros_eq (nonzero : value ≠ 0) :
    ∃ significand power, splitTrailingZeros (reversedDecimal value).reverse =
        (decimalText significand, power) ∧
      value = significand * 10 ^ power ∧ ¬ 10 ∣ significand := by
  have split : (reversedDecimal value).takeWhile (· = 0x30) ++
      (reversedDecimal value).dropWhile (· = 0x30) = reversedDecimal value :=
    List.takeWhile_append_dropWhile
  have zeros : reversedMagnitude ((reversedDecimal value).takeWhile (· = 0x30)) = 0 :=
    reversedMagnitude_eq_zero fun unit member => by simpa using List.mem_takeWhile_imp member
  have head := List.head?_dropWhile_not (· = (0x30 : UInt16)) (reversedDecimal value)
  have are := areDigits_reversedDecimal value
  have last : (reversedDecimal value).getLast? ≠ some 0x30 := by
    have bound := Nat.base_pow_length_digits_le 10 value (by decide) nonzero
    apply getLast_ne_zero are
    rw [reversedMagnitude_reversedDecimal, length_reversedDecimal]
    cases count : (Nat.digits 10 value).length with
    | zero => exact Nat.one_le_iff_ne_zero.mpr nonzero
    | succ rest =>
      rw [count, pow_succ] at bound
      rw [Nat.add_sub_cancel]
      omega
  have whole : splitTrailingZeros (reversedDecimal value).reverse =
      (((reversedDecimal value).dropWhile (· = 0x30)).reverse,
        ((reversedDecimal value).takeWhile (· = 0x30)).length) := by
    rw [splitTrailingZeros, List.reverse_reverse, List.take_reverse, List.length_reverse]
    congr 2
    have length := congrArg List.length split
    rw [List.length_append] at length
    rw [Nat.sub_sub_self (by omega)]
    exact (congrArg (List.drop _) split.symm).trans List.drop_left
  have value' := reversedMagnitude_reversedDecimal value
  rw [← split, reversedMagnitude_append, zeros, Nat.zero_add] at value'
  rw [← split] at are last
  generalize (reversedDecimal value).takeWhile (· = 0x30) = trailing at *
  generalize (reversedDecimal value).dropWhile (· = 0x30) = rest at *
  have restDigits : AreDigits rest := fun unit member => are unit (List.mem_append_right _ member)
  cases rest with
  | nil =>
    rw [reversedMagnitude_nil, Nat.mul_zero] at value'
    exact absurd value'.symm nonzero
  | cons unit rest =>
    have restLast : (unit :: rest).getLast? ≠ some 0x30 := by
      rwa [List.getLast?_append_of_ne_nil _ (List.cons_ne_nil unit rest)] at last
    have text := eq_reversedDecimal restDigits restLast
    have unitNonzero : digitValue unit ≠ 0 := by
      intro zero
      have isZero := (digitValue_eq_zero (restDigits unit List.mem_cons_self)).mp zero
      simp [isZero] at head
    have unitSmall := digitValue_lt (restDigits unit List.mem_cons_self)
    have notDivided : ¬ 10 ∣ reversedMagnitude (unit :: rest) := by
      rw [reversedMagnitude_cons]
      omega
    refine ⟨reversedMagnitude (unit :: rest), trailing.length, ?_, ?_, notDivided⟩
    · have positive : reversedMagnitude (unit :: rest) ≠ 0 := fun zero =>
        notDivided (zero ▸ dvd_zero 10)
      rw [whole, decimalText_of_ne_zero positive, ← text]
    · rw [← value', Nat.mul_comm]

end GhcGateway.Conversion
