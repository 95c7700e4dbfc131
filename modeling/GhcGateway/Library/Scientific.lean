/-
# Positional numerals

Digit lists in a base, as `Nat.ofDigits` reads them from the last digit on. A list without a
superfluous zero is the list of digits of its value; of two lists of one length the one that
comes first in lexicographic order has the smaller value. A rational that is a natural number
times a power of the base is written so in one way only if the base does not divide the
number.
-/

import Mathlib.Algebra.Order.Field.Power
import Mathlib.Data.Nat.Digits.Lemmas
import Mathlib.Data.Rat.Cast.Order
import Mathlib.Tactic.FieldSimp

namespace Library

/-! ## Digit lists -/

/-- A digit list that does not end in a zero is the list of digits of its value. -/
theorem eq_digits_of_ofDigits {base value : ℕ} (large : 1 < base) {digits : List ℕ}
    (small : ∀ digit ∈ digits, digit < base) (last : ∀ some : digits ≠ [], digits.getLast some ≠ 0)
    (same : Nat.ofDigits base digits = value) : digits = Nat.digits base value := by
  rw [← same, Nat.digits_ofDigits base large digits small last]

/-- A longer list of digits stands for a larger number. -/
theorem lt_of_length_digits_lt {base left right : ℕ}
    (shorter : (Nat.digits base left).length < (Nat.digits base right).length) : left < right := by
  by_contra notLess
  exact absurd (Nat.le_length_digits_le base right left (Nat.le_of_not_lt notLess))
    (Nat.not_le_of_lt shorter)

section

universe u

variable {α : Type u} [LT α] {digit : α → ℕ} {IsDigit : α → Prop} {base : ℕ}

/-- Symbols of one length, their first the most significant: the lexicographic order is the
order of the values. -/
theorem lt_iff_ofDigits_reverse_lt (large : 1 < base)
    (order : ∀ {first second}, IsDigit first → IsDigit second →
      (first < second ↔ digit first < digit second))
    (injective : ∀ {first second}, IsDigit first → IsDigit second → digit first = digit second →
      first = second)
    (small : ∀ {symbol}, IsDigit symbol → digit symbol < base) {left right : List α}
    (sameLength : left.length = right.length) (isLeft : ∀ symbol ∈ left, IsDigit symbol)
    (isRight : ∀ symbol ∈ right, IsDigit symbol) :
    left < right ↔ Nat.ofDigits base (left.map digit).reverse <
      Nat.ofDigits base (right.map digit).reverse := by
  have bounded {symbols : List α} (are : ∀ symbol ∈ symbols, IsDigit symbol) :
      Nat.ofDigits base (symbols.map digit).reverse < base ^ symbols.length := by
    have below : ∀ value ∈ (symbols.map digit).reverse, value < base := by
      intro value member
      obtain ⟨symbol, isSymbol, rfl⟩ := List.mem_map.mp (List.mem_reverse.mp member)
      exact small (are symbol isSymbol)
    simpa using Nat.ofDigits_lt_base_pow_length large below
  induction left generalizing right with
  | nil =>
    cases List.length_eq_zero_iff.mp sameLength.symm
    simp
  | cons first left ih =>
    cases right with
    | nil => cases sameLength
    | cons second right =>
      have sameRest : left.length = right.length := Nat.succ.inj sameLength
      have isFirst := isLeft first List.mem_cons_self
      have isSecond := isRight second List.mem_cons_self
      have restLeft : ∀ symbol ∈ left, IsDigit symbol := fun symbol member =>
        isLeft symbol (List.mem_cons_of_mem _ member)
      have restRight : ∀ symbol ∈ right, IsDigit symbol := fun symbol member =>
        isRight symbol (List.mem_cons_of_mem _ member)
      have below := bounded restLeft
      have above := bounded restRight
      rw [List.cons_lt_cons_iff, List.map_cons, List.map_cons, Nat.ofDigits_reverse_cons,
        Nat.ofDigits_reverse_cons, List.length_map, List.length_map, ← sameRest]
      rw [← sameRest] at above
      by_cases same : digit first = digit second
      · have equal := injective isFirst isSecond same
        have irreflexive : ¬ first < second := fun less =>
          absurd ((order isFirst isSecond).mp less) (by omega)
        have rest := ih sameRest restLeft restRight
        simp only [equal, equal ▸ irreflexive, false_or, true_and, Nat.add_lt_add_iff_right]
        exact rest
      · have apart : first ≠ second := fun equal => same (congrArg digit equal)
        rw [order isFirst isSecond]
        simp only [apart, false_and, or_false]
        constructor
        · intro less
          have product : base ^ left.length * digit first + base ^ left.length ≤
              base ^ left.length * digit second := by
            rw [← Nat.mul_succ]
            exact Nat.mul_le_mul_left _ less
          omega
        · intro less
          by_contra notLess
          have more : digit second < digit first := by omega
          have product : base ^ left.length * digit second + base ^ left.length ≤
              base ^ left.length * digit first := by
            rw [← Nat.mul_succ]
            exact Nat.mul_le_mul_left _ more
          omega

end

/-! ## Numbers with an exponent -/

/-- A number that the base does not divide, times a power of the base, is so in one way. -/
theorem scientific_unique {base first second : ℕ} {low high : ℤ} (large : 1 < base)
    (isFirst : ¬ base ∣ first) (isSecond : ¬ base ∣ second)
    (same : (first : ℚ) * (base : ℚ) ^ low = second * (base : ℚ) ^ high) :
    first = second ∧ low = high := by
  have nonzero : (base : ℚ) ≠ 0 := by
    have : base ≠ 0 := by omega
    exact_mod_cast this
  -- the exponents are the same, else the base divides the number with the smaller one
  have split {a b : ℕ} {e f : ℤ} (le : e ≤ f)
      (equal : (a : ℚ) * (base : ℚ) ^ e = b * (base : ℚ) ^ f) : a = b * base ^ (f - e).toNat := by
    have shift : (base : ℚ) ^ f = (base : ℚ) ^ (f - e).toNat * (base : ℚ) ^ e := by
      rw [← zpow_natCast, ← zpow_add₀ nonzero, Int.toNat_of_nonneg (by omega)]
      congr 1
      omega
    rw [shift, ← mul_assoc] at equal
    exact_mod_cast mul_right_cancel₀ (zpow_ne_zero e nonzero) equal
  have aligned {a b : ℕ} {e f : ℤ} (le : e ≤ f) (notDivided : ¬ base ∣ a)
      (equal : (a : ℚ) * (base : ℚ) ^ e = b * (base : ℚ) ^ f) : a = b ∧ e = f := by
    have shape := split le equal
    cases gap : (f - e).toNat with
    | zero =>
      rw [gap, pow_zero, mul_one] at shape
      exact ⟨shape, by omega⟩
    | succ gap' =>
      rw [gap, pow_succ, ← mul_assoc] at shape
      exact absurd (Dvd.intro_left _ shape.symm) notDivided
  rcases Int.le_total low high with le | le
  · exact aligned le isFirst same
  · have both := aligned le isSecond same.symm
    exact ⟨both.1.symm, both.2.symm⟩

end Library
