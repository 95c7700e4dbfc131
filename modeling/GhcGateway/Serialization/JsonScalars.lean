/-
# Reading UTF-8

The encoding of a text and the reader of one character agree: what
`consumeUtf8CodePoint` accepts is the encoding of a Unicode scalar value, and
every such encoding is read back. The boundaries of the source (overlong forms,
surrogates, the last code point) are exactly those of the encoding.
-/

import GhcGateway.Library.Fallible
import GhcGateway.Serialization.JsonGrammar

namespace GhcGateway

variable {n : Nat}

namespace JsonGrammar

/-! ## Encoding -/

@[simp]
theorem encode_nil : encode [] = [] := rfl

@[simp]
theorem encode_cons (c : Char) (text : List Char) :
    encode (c :: text) = String.utf8EncodeChar c ++ encode text := rfl

@[simp]
theorem encode_append (text more : List Char) :
    encode (text ++ more) = encode text ++ encode more :=
  List.flatMap_append

theorem encodeChar_ascii {c : Char} (ascii : c.toNat < 0x80) :
    String.utf8EncodeChar c = [UInt8.ofNat c.toNat] := by
  rw [String.utf8EncodeChar]
  exact if_pos (Nat.le_of_lt_succ ascii)

/-- A character the grammar names by a literal is the byte of that number. -/
theorem toNat_ofNat_of_lt (ascii : n < 0x80) : (Char.ofNat n).toNat = n := by
  have valid : n.isValidChar := .inl (by omega)
  rw [Char.ofNat, dif_pos valid]
  rfl

def asciiChars (bytes : List UInt8) : List Char := bytes.map fun byte => Char.ofNat byte.toNat

theorem encode_asciiChars {bytes : List UInt8} (ascii : ∀ byte ∈ bytes, byte.toNat < 0x80) :
    encode (asciiChars bytes) = bytes := by
  induction bytes with
  | nil => rfl
  | cons byte bytes ih =>
    have small := ascii byte List.mem_cons_self
    have first := toNat_ofNat_of_lt small
    rw [asciiChars, List.map_cons, encode_cons, encodeChar_ascii (first.symm ▸ small), first,
      UInt8.ofNat_toNat]
    exact congrArg (byte :: ·) (ih fun other member => ascii other (List.mem_cons_of_mem _ member))

theorem encode_of_ascii {text : List Char} (ascii : ∀ c ∈ text, c.toNat < 0x80) :
    encode text = text.map fun c => UInt8.ofNat c.toNat := by
  induction text with
  | nil => rfl
  | cons c text ih =>
    rw [encode_cons, encodeChar_ascii (ascii c List.mem_cons_self),
      ih fun other member => ascii other (List.mem_cons_of_mem _ member)]
    rfl

/-- The model's own encoder agrees with the encoding of a scalar value. -/
theorem utf8Bytes_toNat (c : Char) : utf8Bytes c.toNat = String.utf8EncodeChar c := by
  have bound : c.toNat < 0x110000 := by
    have := c.valid
    rcases this with small | large
    · exact Nat.lt_trans small (by decide)
    · exact large.2
  have same : c.val.toNat = c.toNat := rfl
  unfold utf8Bytes String.utf8EncodeChar
  rw [same]
  dsimp only
  by_cases one : c.toNat < 0x80
  · rw [if_pos one, if_pos (by omega)]
  by_cases two : c.toNat < 0x800
  · rw [if_neg one, if_pos two, if_neg (by omega), if_pos (by omega)]
    congr 2 <;> [skip; congr 1] <;> omega
  by_cases three : c.toNat < 0x10000
  · rw [if_neg one, if_neg two, if_pos three, if_neg (by omega), if_neg (by omega),
      if_pos (by omega)]
    have lead : 0xE0 + c.toNat / 0x1000 = c.toNat / 4096 % 0x10 + 0xe0 := by omega
    rw [lead, Nat.add_comm 0x80, Nat.add_comm 0x80]
  · rw [if_neg one, if_neg two, if_neg three, if_neg (by omega), if_neg (by omega),
      if_neg (by omega)]
    have lead : 0xF0 + c.toNat / 0x40000 = c.toNat / 262144 % 0x08 + 0xf0 := by omega
    rw [lead, Nat.add_comm 0x80, Nat.add_comm 0x80, Nat.add_comm 0x80]

end JsonGrammar

namespace Parser

open Library JsonGrammar

variable {input : List UInt8}

theorem isContinuation_iff (byte : UInt8) :
    byte &&& 0xC0 = 0x80 ↔ 0x80 ≤ byte.toNat ∧ byte.toNat < 0xC0 := by
  have all : ∀ n < 256, (UInt8.ofNat n &&& 0xC0 = 0x80 ↔ 0x80 ≤ n ∧ n < 0xC0) := by
    set_option maxRecDepth 10000 in decide
  have := all byte.toNat byte.toNat_lt
  rwa [UInt8.ofNat_toNat] at this

theorem needContinuation_cons {byte : UInt8} (lower : 0x80 ≤ byte.toNat)
    (upper : byte.toNat < 0xC0) (rest : List UInt8) :
    needContinuation (byte :: rest) = .ok (byte.toNat % 0x40, rest) := by
  rw [needContinuation, if_pos ((isContinuation_iff byte).mpr ⟨lower, upper⟩)]

/-- A computation that reads a continuation byte first has read one. -/
theorem needContinuation_bind_ok {α : Type} {next : Nat × List UInt8 → Except WireJsonError α}
    {result : α} (accepted : needContinuation input >>= next = .ok result) :
    ∃ byte rest, input = byte :: rest ∧ 0x80 ≤ byte.toNat ∧ byte.toNat < 0xC0 ∧
      next (byte.toNat % 0x40, rest) = .ok result := by
  cases input with
  | nil => cases accepted
  | cons byte rest =>
    by_cases continuation : byte &&& 0xC0 = 0x80
    · obtain ⟨lower, upper⟩ := (isContinuation_iff byte).mp continuation
      rw [needContinuation_cons lower upper] at accepted
      exact ⟨byte, rest, rfl, lower, upper, accepted⟩
    · rw [needContinuation, if_neg continuation] at accepted
      cases accepted

theorem ofNat_eq_byte (byte : UInt8) (same : n = byte.toNat) : UInt8.ofNat n = byte := by
  rw [same, UInt8.ofNat_toNat]

/-- What `consumeUtf8CodePoint` accepts is the encoding of a scalar value. -/
theorem consumeUtf8CodePoint_sound {rest : List UInt8} {codePoint : Nat}
    (accepted : consumeUtf8CodePoint input = .ok (codePoint, rest)) :
    ∃ c : Char, c.toNat = codePoint ∧ input = String.utf8EncodeChar c ++ rest := by
  -- it is enough to find a scalar value whose bytes these are
  suffices found : codePoint.isValidChar ∧ input = utf8Bytes codePoint ++ rest by
    refine ⟨Char.ofNatAux codePoint found.1, rfl, ?_⟩
    rw [← utf8Bytes_toNat]
    exact found.2
  cases input with
  | nil => cases accepted
  | cons b0 input =>
    have c80 : (0x80 : UInt8).toNat = 0x80 := rfl
    have cC2 : (0xC2 : UInt8).toNat = 0xC2 := rfl
    have cE0 : (0xE0 : UInt8).toNat = 0xE0 := rfl
    have cF0 : (0xF0 : UInt8).toNat = 0xF0 := rfl
    have cF4 : (0xF4 : UInt8).toNat = 0xF4 := rfl
    have below := b0.toNat_lt
    rw [consumeUtf8CodePoint] at accepted
    simp only [Bool.or_eq_true, decide_eq_true_eq, UInt8.lt_iff_toNat_lt, c80, cC2, cE0, cF0,
      cF4] at accepted
    split at accepted
    · next ascii =>
      cases accepted
      refine ⟨.inl (by omega), ?_⟩
      rw [utf8Bytes, if_pos ascii, UInt8.ofNat_toNat]
      rfl
    split at accepted
    · cases accepted
    split at accepted
    · next two =>
      obtain ⟨b1, after, rfl, lower1, upper1, accepted⟩ := needContinuation_bind_ok accepted
      dsimp only at accepted
      split at accepted
      · cases accepted
      cases accepted
      refine ⟨.inl (by omega), ?_⟩
      rw [utf8Bytes, if_neg (by omega), if_pos (by omega), ofNat_eq_byte b0 (by omega),
        ofNat_eq_byte b1 (by omega)]
      rfl
    split at accepted
    · next three =>
      obtain ⟨b1, after, rfl, lower1, upper1, accepted⟩ := needContinuation_bind_ok accepted
      obtain ⟨b2, after, rfl, lower2, upper2, accepted⟩ := needContinuation_bind_ok accepted
      dsimp only at accepted
      split at accepted
      · cases accepted
      next scalar =>
      simp only [Bool.and_eq_true, decide_eq_true_eq, not_or, not_and] at scalar
      cases accepted
      refine ⟨?_, ?_⟩
      · rw [Nat.isValidChar]
        omega
      rw [utf8Bytes, if_neg (by omega), if_neg (by omega), if_pos (by omega),
        ofNat_eq_byte b0 (by omega), ofNat_eq_byte b1 (by omega),
        ofNat_eq_byte b2 (by omega)]
      rfl
    · obtain ⟨b1, after, rfl, lower1, upper1, accepted⟩ := needContinuation_bind_ok accepted
      obtain ⟨b2, after, rfl, lower2, upper2, accepted⟩ := needContinuation_bind_ok accepted
      obtain ⟨b3, after, rfl, lower3, upper3, accepted⟩ := needContinuation_bind_ok accepted
      dsimp only at accepted
      split at accepted
      · cases accepted
      cases accepted
      refine ⟨.inr (by omega), ?_⟩
      rw [utf8Bytes, if_neg (by omega), if_neg (by omega), if_neg (by omega),
        ofNat_eq_byte b0 (by omega), ofNat_eq_byte b1 (by omega),
        ofNat_eq_byte b2 (by omega), ofNat_eq_byte b3 (by omega)]
      rfl

theorem toNat_ofNat_byte (small : n < 0x100) : (UInt8.ofNat n).toNat = n := by
  rw [UInt8.toNat_ofNat']
  exact Nat.mod_eq_of_lt small

theorem needContinuation_ofNat (lower : 0x80 ≤ n) (upper : n < 0xC0) (rest : List UInt8) :
    needContinuation (UInt8.ofNat n :: rest) = .ok (n % 0x40, rest) := by
  have same : (UInt8.ofNat n).toNat = n := toNat_ofNat_byte (by omega)
  rw [needContinuation_cons (same.symm ▸ lower) (same.symm ▸ upper), same]

/-- The encoding of a scalar value is read back. -/
theorem consumeUtf8CodePoint_encodeChar (c : Char) (rest : List UInt8) :
    consumeUtf8CodePoint (String.utf8EncodeChar c ++ rest) = .ok (c.toNat, rest) := by
  have c80 : (0x80 : UInt8).toNat = 0x80 := rfl
  have cC2 : (0xC2 : UInt8).toNat = 0xC2 := rfl
  have cE0 : (0xE0 : UInt8).toNat = 0xE0 := rfl
  have cF0 : (0xF0 : UInt8).toNat = 0xF0 := rfl
  have cF4 : (0xF4 : UInt8).toNat = 0xF4 := rfl
  have valid : c.toNat < 0xD800 ∨ 0xDFFF < c.toNat ∧ c.toNat < 0x110000 := c.valid
  rw [← utf8Bytes_toNat, utf8Bytes]
  by_cases one : c.toNat < 0x80
  · rw [if_pos one, List.singleton_append, consumeUtf8CodePoint]
    simp only [UInt8.lt_iff_toNat_lt, c80]
    rw [toNat_ofNat_byte (by omega), if_pos one]
  by_cases two : c.toNat < 0x800
  · rw [if_neg one, if_pos two]
    simp only [List.cons_append, List.nil_append, consumeUtf8CodePoint, Bool.or_eq_true,
      decide_eq_true_eq, UInt8.lt_iff_toNat_lt, c80, cC2, cE0, cF0, cF4]
    rw [toNat_ofNat_byte (by omega), needContinuation_ofNat (by omega) (by omega)]
    simp only [bind, Except.bind]
    rw [if_neg (by omega), if_neg (by omega), if_pos (by omega), if_neg (by omega)]
    congr 2
    omega
  by_cases three : c.toNat < 0x10000
  · rw [if_neg one, if_neg two, if_pos three]
    simp only [List.cons_append, List.nil_append, consumeUtf8CodePoint, Bool.or_eq_true,
      Bool.and_eq_true, decide_eq_true_eq, UInt8.lt_iff_toNat_lt, c80, cC2, cE0, cF0, cF4]
    rw [toNat_ofNat_byte (by omega), needContinuation_ofNat (by omega) (by omega)]
    simp only [bind, Except.bind]
    rw [needContinuation_ofNat (by omega) (by omega)]
    dsimp only
    rw [if_neg (by omega), if_neg (by omega), if_neg (by omega), if_pos (by omega),
      if_neg (by omega)]
    congr 2
    omega
  · rw [if_neg one, if_neg two, if_neg three]
    simp only [List.cons_append, List.nil_append, consumeUtf8CodePoint, Bool.or_eq_true,
      Bool.and_eq_true, decide_eq_true_eq, UInt8.lt_iff_toNat_lt, c80, cC2, cE0, cF0, cF4]
    rw [toNat_ofNat_byte (by omega), needContinuation_ofNat (by omega) (by omega)]
    simp only [bind, Except.bind]
    rw [needContinuation_ofNat (by omega) (by omega)]
    dsimp only
    rw [needContinuation_ofNat (by omega) (by omega)]
    dsimp only
    rw [if_neg (by omega), if_neg (by omega), if_neg (by omega), if_neg (by omega),
      if_neg (by omega)]
    congr 2
    omega

end Parser

end GhcGateway
