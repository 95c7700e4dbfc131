/-
# Number lexemes as JavaScript integers

The decoders read an index or a counter as `Number(lexeme)` and then ask
whether the double is an integer. The rounding to a double is part of that
answer: `1.00000000000000000001` is the integer one. This module rounds a
decimal lexeme to the nearest double, ties to even, and returns it when it is
an integer.
-/

import GhcGateway.Serialization.WireJson

namespace GhcGateway

def digitsValue (digits : JsString) : Nat :=
  digits.foldl (fun value digit => value * 10 + (digit.toNat - 0x30)) 0

/-- The parts of a number lexeme: its sign, its significant digits as one
number, and the power of ten that scales them. -/
structure DecimalLexeme where
  negative : Bool
  significand : Nat
  exponent : Int

/-- Split a lexeme of the JSON number grammar. -/
def decimalLexeme (lexeme : JsString) : DecimalLexeme :=
  let isDigit (unit : UInt16) : Bool := 0x30 ≤ unit && unit ≤ 0x39
  let negative := lexeme.head? = some 0x2D
  let unsigned := if negative then lexeme.drop 1 else lexeme
  let integer := unsigned.takeWhile isDigit
  let afterInteger := unsigned.drop integer.length
  let fraction :=
    if afterInteger.head? = some 0x2E then (afterInteger.drop 1).takeWhile isDigit else []
  let afterFraction :=
    if afterInteger.head? = some 0x2E then (afterInteger.drop 1).drop fraction.length
    else afterInteger
  let scale : Int :=
    match afterFraction.drop 1 with
    | 0x2D :: digits => -(digitsValue digits : Int)
    | 0x2B :: digits => digitsValue digits
    | digits => digitsValue digits
  ⟨negative, digitsValue (integer ++ fraction), scale - fraction.length⟩

/-- Division rounded to the nearest integer, a tie to the even one. -/
def divideHalfEven (numerator denominator : Nat) : Nat :=
  let quotient := numerator / denominator
  let twice := 2 * (numerator % denominator)
  if twice < denominator then quotient
  else if denominator < twice then quotient + 1
  else if quotient % 2 = 0 then quotient else quotient + 1

def powerOfTwo (exponent : Int) : Nat × Nat :=
  if 0 ≤ exponent then (2 ^ exponent.toNat, 1) else (1, 2 ^ (-exponent).toNat)

/-- The exponent of the leading bit of a positive fraction. -/
def binaryExponent (numerator denominator : Nat) : Int :=
  let guess : Int := (Nat.log2 numerator : Int) - Nat.log2 denominator
  let (up, down) := powerOfTwo guess
  if denominator * up ≤ numerator * down then guess else guess - 1

/-- The double nearest to a fraction, when it is a finite integer: doubles with
leading bit `2 ^ e` are the multiples of `2 ^ (e - 52)`, subnormal ones the
multiples of `2 ^ (-1074)`. -/
def nearestDoubleInteger (numerator denominator : Nat) : Option Nat :=
  if numerator = 0 then some 0
  else
    let spacing := max (binaryExponent numerator denominator - 52) (-1074)
    let (up, down) := powerOfTwo spacing
    let units := divideHalfEven (numerator * down) (denominator * up)
    if units * up % down = 0 then
      let value := units * up / down
      if value < 2 ^ 1024 then some value else none
    else none

/-- The double nearest to a natural number below `2 ^ 1024`. Counters are doubles: their
sums and differences are rounded. -/
def roundDouble (value : Nat) : Nat :=
  let spacing := 2 ^ (value.log2 - 52)
  divideHalfEven value spacing * spacing

theorem divideHalfEven_one (numerator : Nat) : divideHalfEven numerator 1 = numerator := by
  rw [divideHalfEven, Nat.mod_one, Nat.div_one]
  rfl

theorem roundDouble_of_lt {value : Nat} (small : value < 2 ^ 53) : roundDouble value = value := by
  have isLow : value.log2 - 52 = 0 := by
    by_cases zero : value = 0
    · rw [zero, Nat.log2_zero]
    · have := (Nat.log2_lt zero).mpr small
      omega
  rw [roundDouble, isLow, Nat.pow_zero, divideHalfEven_one, Nat.mul_one]

/-- `Number(lexeme)` where it satisfies `Number.isInteger`. -/
def jsInteger (lexeme : JsString) : Option Int :=
  let parts := decimalLexeme lexeme
  let numerator := parts.significand * 10 ^ parts.exponent.toNat
  let denominator := 10 ^ (-parts.exponent).toNat
  (nearestDoubleInteger numerator denominator).map fun value =>
    if parts.negative then -(value : Int) else value

/-- `Number(lexeme)` where it satisfies `Number.isSafeInteger`. -/
def jsSafeInteger (lexeme : JsString) : Option Int :=
  (jsInteger lexeme).filter fun value => value.natAbs < 2 ^ 53

example : jsSafeInteger (js "1.00000000000000000001") = some 1 := by decide +kernel

end GhcGateway
