/-
# Base 64 for URLs

`Buffer` writes bytes in the alphabet of URLs without padding and reads them back. Four
digits stand for three bytes; the last one or two bytes take two or three digits.
-/

import GhcGateway.Serialization.Text

namespace GhcGateway

def base64UrlDigit (value : Nat) : UInt16 :=
  UInt16.ofNat (if value < 26 then 0x41 + value
    else if value < 52 then 0x61 + (value - 26)
    else if value < 62 then 0x30 + (value - 52)
    else if value = 62 then 0x2D else 0x5F)

/-- The value of a digit, where the unit is one. -/
def base64UrlValue (unit : UInt16) : Option Nat :=
  let point := unit.toNat
  if 0x41 ≤ point ∧ point ≤ 0x5A then some (point - 0x41)
  else if 0x61 ≤ point ∧ point ≤ 0x7A then some (point - 0x61 + 26)
  else if 0x30 ≤ point ∧ point ≤ 0x39 then some (point - 0x30 + 52)
  else if point = 0x2D then some 62
  else if point = 0x5F then some 63
  else none

/-- `/^[A-Za-z0-9_-]+$/u.test(text)`. -/
def isBase64Url (text : JsString) : Bool :=
  text ≠ [] ∧ text.all fun unit => (base64UrlValue unit).isSome

def base64Url : List UInt8 → JsString
  | [] => []
  | [first] => [base64UrlDigit (first.toNat / 4), base64UrlDigit (first.toNat % 4 * 16)]
  | [first, second] => [base64UrlDigit (first.toNat / 4),
      base64UrlDigit (first.toNat % 4 * 16 + second.toNat / 16),
      base64UrlDigit (second.toNat % 16 * 4)]
  | first :: second :: third :: rest => base64UrlDigit (first.toNat / 4) ::
      base64UrlDigit (first.toNat % 4 * 16 + second.toNat / 16) ::
      base64UrlDigit (second.toNat % 16 * 4 + third.toNat / 64) ::
      base64UrlDigit (third.toNat % 64) :: base64Url rest

/-- The bytes of the values of some digits. A single digit that is left says nothing. -/
def bytesOfDigits : List Nat → List UInt8
  | a :: b :: c :: d :: rest => UInt8.ofNat (a * 4 + b / 16) :: UInt8.ofNat (b % 16 * 16 + c / 4) ::
      UInt8.ofNat (c % 4 * 64 + d) :: bytesOfDigits rest
  | [a, b, c] => [UInt8.ofNat (a * 4 + b / 16), UInt8.ofNat (b % 16 * 16 + c / 4)]
  | [a, b] => [UInt8.ofNat (a * 4 + b / 16)]
  | _ => []

/-- `Buffer.from(text, "base64url")`, of a text whose units are digits. -/
def fromBase64Url (text : JsString) : List UInt8 := bytesOfDigits (text.filterMap base64UrlValue)

/-! ## Reading what was written -/

theorem base64UrlValue_digit {value : Nat} (small : value < 64) :
    base64UrlValue (base64UrlDigit value) = some value := by
  have all : ∀ value : Fin 64, base64UrlValue (base64UrlDigit value) = some value.val := by decide
  exact all ⟨value, small⟩

/-- The values of the digits that are written, four for every three bytes. -/
def digitsOfBytes : List UInt8 → List Nat
  | [] => []
  | [first] => [first.toNat / 4, first.toNat % 4 * 16]
  | [first, second] => [first.toNat / 4, first.toNat % 4 * 16 + second.toNat / 16,
      second.toNat % 16 * 4]
  | first :: second :: third :: rest => first.toNat / 4 ::
      (first.toNat % 4 * 16 + second.toNat / 16) :: (second.toNat % 16 * 4 + third.toNat / 64) ::
      third.toNat % 64 :: digitsOfBytes rest

theorem base64Url_eq (bytes : List UInt8) :
    base64Url bytes = (digitsOfBytes bytes).map base64UrlDigit := by
  fun_induction base64Url bytes with
  | case1 => rfl
  | case2 => rfl
  | case3 => rfl
  | case4 first second third rest ih =>
    rw [ih]
    rfl

theorem digitsOfBytes_lt (bytes : List UInt8) : ∀ value ∈ digitsOfBytes bytes, value < 64 := by
  fun_induction digitsOfBytes bytes with
  | case1 => simp
  | case2 first =>
    have := first.toNat_lt
    simp only [List.mem_cons, List.not_mem_nil, or_false, forall_eq_or_imp, forall_eq]
    omega
  | case3 first second =>
    have := first.toNat_lt
    have := second.toNat_lt
    simp only [List.mem_cons, List.not_mem_nil, or_false, forall_eq_or_imp, forall_eq]
    omega
  | case4 first second third rest ih =>
    have := first.toNat_lt
    have := second.toNat_lt
    have := third.toNat_lt
    simp only [List.mem_cons, forall_eq_or_imp]
    exact ⟨by omega, by omega, by omega, by omega, ih⟩

theorem bytesOfDigits_digitsOfBytes (bytes : List UInt8) :
    bytesOfDigits (digitsOfBytes bytes) = bytes := by
  have same (byte : UInt8) {value : Nat} (eq : value = byte.toNat) : UInt8.ofNat value = byte := by
    rw [eq, UInt8.ofNat_toNat]
  fun_induction digitsOfBytes bytes with
  | case1 => rfl
  | case2 first =>
    rw [bytesOfDigits, same first (by omega)]
  | case3 first second =>
    have := second.toNat_lt
    rw [bytesOfDigits, same first (by omega), same second (by omega)]
  | case4 first second third rest ih =>
    have := second.toNat_lt
    have := third.toNat_lt
    rw [bytesOfDigits, ih, same first (by omega), same second (by omega),
      same third (by omega)]

theorem fromBase64Url_base64Url (bytes : List UInt8) : fromBase64Url (base64Url bytes) = bytes := by
  have values : (base64Url bytes).filterMap base64UrlValue = digitsOfBytes bytes := by
    rw [base64Url_eq, List.filterMap_map]
    refine (List.filterMap_congr fun value member => ?_).trans List.filterMap_some
    exact base64UrlValue_digit (digitsOfBytes_lt bytes value member)
  rw [fromBase64Url, values, bytesOfDigits_digitsOfBytes]

theorem length_base64Url (bytes : List UInt8) :
    (base64Url bytes).length = (4 * bytes.length + 2) / 3 := by
  fun_induction base64Url bytes with
  | case1 => rfl
  | case2 first => simp
  | case3 first second => simp
  | case4 first second third rest ih =>
    simp only [List.length_cons, ih]
    omega

theorem isBase64Url_base64Url {bytes : List UInt8} (nonempty : bytes ≠ []) :
    isBase64Url (base64Url bytes) = true := by
  rw [isBase64Url, decide_eq_true_eq]
  constructor
  · intro empty
    have length := length_base64Url bytes
    rw [empty, List.length_nil] at length
    have := List.length_pos_iff.mpr nonempty
    omega
  · rw [List.all_eq_true, base64Url_eq]
    intro unit member
    obtain ⟨value, isDigit, rfl⟩ := List.mem_map.mp member
    rw [base64UrlValue_digit (digitsOfBytes_lt bytes value isDigit)]
    rfl

end GhcGateway
