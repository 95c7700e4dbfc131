/-
# Decoding what was encoded

The bytes of a text of Unicode scalar values decode to its code units, and these encode to
the same bytes again: what the serializer writes can be kept as a string. No JSON text has a
NUL, at which a string may be cut short.
-/

import GhcGateway.Serialization.JsonScalars

namespace GhcGateway

open JsonGrammar

variable {n : Nat}

def textUnits (text : List Char) : JsString := text.flatMap fun c => codePointUnits c.toNat

namespace Utf8Decoder

theorem step_initial (byte : UInt8) : initial.step byte = startByte byte := rfl

/-- A continuation byte within the usual boundaries. -/
theorem step_continue {codePoint bytesSeen bytesNeeded : Nat} {low high : UInt8}
    (needed : bytesNeeded ≠ 0) (small : n < 0x40) (lower : low.toNat ≤ 0x80 + n)
    (upper : 0x80 + n ≤ high.toNat) :
    step ⟨codePoint, bytesSeen, bytesNeeded, low, high⟩ (UInt8.ofNat (0x80 + n)) =
      if bytesSeen + 1 = bytesNeeded then some (initial, codePointUnits (codePoint * 0x40 + n))
      else some (⟨codePoint * 0x40 + n, bytesSeen + 1, bytesNeeded, 0x80, 0xBF⟩, []) := by
  have value : (UInt8.ofNat (0x80 + n)).toNat = 0x80 + n := by
    rw [UInt8.toNat_ofNat']
    omega
  have within : (low ≤ UInt8.ofNat (0x80 + n) && UInt8.ofNat (0x80 + n) ≤ high) = true := by
    rw [Bool.and_eq_true, decide_eq_true_eq, decide_eq_true_eq, UInt8.le_iff_toNat_le,
      UInt8.le_iff_toNat_le, value]
    exact ⟨lower, upper⟩
  have rest : (UInt8.ofNat (0x80 + n)).toNat % 0x40 = n := by
    rw [value]
    omega
  rw [step, if_neg needed, if_pos within]
  dsimp only
  rw [rest]

/-- The first byte of a character of several. -/
theorem startByte_lead (lower : 0xC2 ≤ n) (upper : n ≤ 0xF4) :
    startByte (UInt8.ofNat n) =
      if n ≤ 0xDF then some (⟨n % 0x20, 0, 1, 0x80, 0xBF⟩, [])
      else if n ≤ 0xEF then
        some (⟨n % 0x10, 0, 2, if n = 0xE0 then 0xA0 else 0x80, if n = 0xED then 0x9F else 0xBF⟩,
          [])
      else
        some (⟨n % 0x08, 0, 3, if n = 0xF0 then 0x90 else 0x80, if n = 0xF4 then 0x8F else 0xBF⟩,
          []) := by
  have value : (UInt8.ofNat n).toNat = n := by
    rw [UInt8.toNat_ofNat']
    omega
  have isByte (byte : UInt8) : UInt8.ofNat n = byte ↔ n = byte.toNat := by
    rw [← UInt8.toNat_inj, value]
  have above : ¬ UInt8.ofNat n ≤ 0x7F := by
    rw [UInt8.le_iff_toNat_le, value]
    exact Nat.not_le.mpr (Nat.lt_of_lt_of_le (by decide) lower)
  have within (low high : UInt8) : (low ≤ UInt8.ofNat n && UInt8.ofNat n ≤ high) = true ↔
      low.toNat ≤ n ∧ n ≤ high.toNat := by
    rw [Bool.and_eq_true, decide_eq_true_eq, decide_eq_true_eq, UInt8.le_iff_toNat_le,
      UInt8.le_iff_toNat_le, value]
  unfold startByte
  rw [if_neg above]
  simp only [within, isByte, value]
  by_cases two : n ≤ 0xDF
  · rw [if_pos two, if_pos ⟨lower, two⟩]
  rw [if_neg two, if_neg fun both => two both.2]
  by_cases three : n ≤ 0xEF
  · rw [if_pos three, if_pos ⟨Nat.lt_of_not_le two, three⟩]
    rfl
  · rw [if_neg three, if_neg fun both => three both.2, if_pos ⟨Nat.lt_of_not_le three, upper⟩]
    rfl

theorem startByte_ascii (small : n < 0x80) :
    startByte (UInt8.ofNat n) = some (initial, [UInt16.ofNat n]) := by
  have value : (UInt8.ofNat n).toNat = n := by
    rw [UInt8.toNat_ofNat']
    omega
  have ascii : UInt8.ofNat n ≤ 0x7F := by
    rw [UInt8.le_iff_toNat_le, value]
    exact Nat.le_of_lt_succ small
  rw [startByte, if_pos ascii, value]

/-- The bytes of a character are decoded to its code units. -/
theorem decode_encodeChar (c : Char) :
    initial.decode (String.utf8EncodeChar c) = some (initial, codePointUnits c.toNat) := by
  have c80 : (0x80 : UInt8).toNat = 0x80 := rfl
  have c8F : (0x8F : UInt8).toNat = 0x8F := rfl
  have c90 : (0x90 : UInt8).toNat = 0x90 := rfl
  have c9F : (0x9F : UInt8).toNat = 0x9F := rfl
  have cA0 : (0xA0 : UInt8).toNat = 0xA0 := rfl
  have cBF : (0xBF : UInt8).toNat = 0xBF := rfl
  have valid : c.toNat < 0xD800 ∨ 0xDFFF < c.toNat ∧ c.toNat < 0x110000 := c.valid
  rw [← utf8Bytes_toNat, utf8Bytes]
  by_cases one : c.toNat < 0x80
  · rw [if_pos one, decode, step_initial, startByte_ascii one]
    simp only [Option.bind_eq_bind, Option.bind_some, decode, Option.pure_def, List.append_nil]
    rw [codePointUnits, if_pos (by omega)]
  by_cases two : c.toNat < 0x800
  · rw [if_neg one, if_pos two, decode, step_initial, startByte_lead (by omega) (by omega),
      if_pos (by omega)]
    simp only [Option.bind_eq_bind, Option.bind_some, decode, Option.pure_def, List.append_nil]
    rw [step_continue (by decide) (by omega) (by omega) (by omega), if_pos rfl]
    simp only [Option.bind_some, List.nil_append]
    congr 3
    omega
  by_cases three : c.toNat < 0x10000
  · have lower : (if 0xE0 + c.toNat / 0x1000 = 0xE0 then (0xA0 : UInt8) else 0x80).toNat ≤
        0x80 + c.toNat / 0x40 % 0x40 := by
      split <;> omega
    have upper : 0x80 + c.toNat / 0x40 % 0x40 ≤
        (if 0xE0 + c.toNat / 0x1000 = 0xED then (0x9F : UInt8) else 0xBF).toNat := by
      split <;> omega
    rw [if_neg one, if_neg two, if_pos three, decode, step_initial,
      startByte_lead (by omega) (by omega), if_neg (by omega), if_pos (by omega)]
    simp only [Option.bind_eq_bind, Option.bind_some, decode, Option.pure_def, List.append_nil]
    rw [step_continue (by decide) (by omega) lower upper, if_neg (by decide)]
    simp only [Option.bind_some]
    rw [step_continue (by decide) (by omega) (by omega) (by omega), if_pos rfl]
    simp only [Option.bind_some, List.nil_append]
    congr 3
    omega
  · have lower : (if 0xF0 + c.toNat / 0x40000 = 0xF0 then (0x90 : UInt8) else 0x80).toNat ≤
        0x80 + c.toNat / 0x1000 % 0x40 := by
      split <;> omega
    have upper : 0x80 + c.toNat / 0x1000 % 0x40 ≤
        (if 0xF0 + c.toNat / 0x40000 = 0xF4 then (0x8F : UInt8) else 0xBF).toNat := by
      split <;> omega
    rw [if_neg one, if_neg two, if_neg three, decode, step_initial,
      startByte_lead (by omega) (by omega), if_neg (by omega), if_neg (by omega)]
    simp only [Option.bind_eq_bind, Option.bind_some, decode, Option.pure_def, List.append_nil]
    rw [step_continue (by decide) (by omega) lower upper, if_neg (by decide)]
    simp only [Option.bind_some]
    rw [step_continue (by decide) (by omega) (by omega) (by omega), if_neg (by decide)]
    simp only [Option.bind_some]
    rw [step_continue (by decide) (by omega) (by omega) (by omega), if_pos rfl]
    simp only [Option.bind_some, List.nil_append]
    congr 3
    omega

/-- The bytes of a text are decoded to its code units. -/
theorem decode_encode (text : List Char) :
    initial.decode (encode text) = some (initial, textUnits text) := by
  induction text with
  | nil => rfl
  | cons c text ih =>
    rw [encode_cons, decode_append, decode_encodeChar]
    simp only [Option.bind_eq_bind, Option.bind_some, ih]
    rfl

end Utf8Decoder

/-- A character of a text is one code point of its code units. -/
theorem codePoints_cons (c : Char) (rest : JsString) :
    JsString.codePoints (codePointUnits c.toNat ++ rest) = c.toNat :: rest.codePoints := by
  have valid : c.toNat < 0xD800 ∨ 0xDFFF < c.toNat ∧ c.toNat < 0x110000 := c.valid
  rw [codePointUnits]
  by_cases small : c.toNat < 0x10000
  · have value : (UInt16.ofNat c.toNat).toNat = c.toNat := by
      rw [UInt16.toNat_ofNat']
      omega
    have whole : JsString.isHighSurrogate (UInt16.ofNat c.toNat) = false := by
      have cD800 : (0xD800 : UInt16).toNat = 0xD800 := rfl
      have cDBFF : (0xDBFF : UInt16).toNat = 0xDBFF := rfl
      rw [JsString.isHighSurrogate, Bool.and_eq_false_iff, decide_eq_false_iff_not,
        decide_eq_false_iff_not, UInt16.le_iff_toNat_le, UInt16.le_iff_toNat_le, value]
      omega
    rw [if_pos small, List.singleton_append]
    cases rest with
    | nil =>
      show [(UInt16.ofNat c.toNat).toNat] = [c.toNat]
      rw [value]
    | cons next rest =>
      rw [JsString.codePoints, if_neg, value]
      rw [whole]
      exact Bool.false_ne_true
  · rw [if_neg small, List.cons_append, List.singleton_append, JsString.codePoints, if_pos]
    · have pair : 0x10000 + ((UInt16.ofNat (0xD800 + (c.toNat - 0x10000) / 0x400)).toNat - 0xD800) *
          0x400 + ((UInt16.ofNat (0xDC00 + (c.toNat - 0x10000) % 0x400)).toNat - 0xDC00) =
          c.toNat := by
        rw [UInt16.toNat_ofNat', UInt16.toNat_ofNat']
        omega
      rw [pair]
    · have cD800 : (0xD800 : UInt16).toNat = 0xD800 := rfl
      have cDBFF : (0xDBFF : UInt16).toNat = 0xDBFF := rfl
      have cDC00 : (0xDC00 : UInt16).toNat = 0xDC00 := rfl
      have cDFFF : (0xDFFF : UInt16).toNat = 0xDFFF := rfl
      simp only [JsString.isHighSurrogate, JsString.isLowSurrogate, Bool.and_eq_true,
        decide_eq_true_eq, UInt16.le_iff_toNat_le, UInt16.toNat_ofNat']
      omega

theorem codePoints_textUnits (text : List Char) :
    (textUnits text).codePoints = text.map Char.toNat := by
  induction text with
  | nil => rfl
  | cons c text ih =>
    rw [textUnits, List.flatMap_cons, codePoints_cons, List.map_cons, ← ih]
    rfl

theorem decodeText_encode (text : List Char) : decodeText (encode text) = textUnits text := by
  rw [decodeText, Utf8Decoder.decode_encode]

theorem encodeUtf8_textUnits (text : List Char) : encodeUtf8 (textUnits text) = encode text := by
  rw [encodeUtf8, codePoints_textUnits, List.flatMap_map]
  congr 1
  funext c
  have valid : c.toNat < 0xD800 ∨ 0xDFFF < c.toNat ∧ c.toNat < 0x110000 := c.valid
  rw [scalarOrReplacement, if_neg (by omega), utf8Bytes_toNat]

namespace JsonGrammar

variable {text : List Char} {c : Char}

/-! ## No text has a NUL -/

def NulFree (text : List Char) : Prop := ∀ c ∈ text, c.toNat ≠ 0

theorem nulFree_nil : NulFree [] := fun _ member => nomatch member

theorem NulFree.append {more : List Char} (left : NulFree text) (right : NulFree more) :
    NulFree (text ++ more) :=
  List.forall_mem_append.mpr ⟨left, right⟩

theorem NulFree.cons {c : Char} {text : List Char} (head : c.toNat ≠ 0) (tail : NulFree text) :
    NulFree (c :: text) :=
  List.forall_mem_cons.mpr ⟨head, tail⟩

theorem Blank.nulFree (isBlank : Blank text) : NulFree text := by
  intro c member
  rcases isBlank c member with rfl | rfl | rfl | rfl <;> decide

theorem toNat_of_isDigit (digit : c.isDigit = true) : c.toNat ≠ 0 := by
  intro isNul
  have isNul : c = '\x00' := Char.toNat_inj.mp isNul
  rw [isNul] at digit
  cases digit

theorem Digits.nulFree (digits : Digits text) : NulFree text :=
  fun c member => toNat_of_isDigit (digits.2 c member)

theorem Integer.nulFree (integer : Integer text) : NulFree text := by
  cases integer with
  | zero => exact nulFree_nil.cons (by decide)
  | digits first rest digit nonzero digits =>
    exact .cons (toNat_of_isDigit digit) fun c member => toNat_of_isDigit (digits c member)

theorem Fraction.nulFree (fraction : Fraction text) : NulFree text := by
  cases fraction with
  | none => exact nulFree_nil
  | some digits spelled => exact spelled.nulFree.cons (by decide)

theorem Exponent.nulFree (exponent : Exponent text) : NulFree text := by
  cases exponent with
  | none => exact nulFree_nil
  | some marker sign digits isMarker isSign spelled =>
    have markerFree : marker.toNat ≠ 0 := by rcases isMarker with rfl | rfl <;> decide
    have signFree : NulFree sign := by
      rcases isSign with rfl | rfl | rfl
      · exact nulFree_nil
      · exact nulFree_nil.cons (by decide)
      · exact nulFree_nil.cons (by decide)
    exact (signFree.append spelled.nulFree).cons markerFree

theorem Number.nulFree (number : Number text) : NulFree text := by
  obtain ⟨minus, integer, fraction, exponent, isMinus, isInteger, isFraction, isExponent⟩ := number
  have minusFree : NulFree minus := by
    rcases isMinus with rfl | rfl
    · exact nulFree_nil
    · exact nulFree_nil.cons (by decide)
  exact ((minusFree.append isInteger.nulFree).append isFraction.nulFree).append isExponent.nulFree

theorem toNat_of_hexDigit (digit : hexDigit c = some n) : c.toNat ≠ 0 := by
  intro isNul
  have isNul : c = '\x00' := Char.toNat_inj.mp isNul
  rw [isNul] at digit
  cases digit

theorem Characters.nulFree {value : JsString} (characters : Characters text value) :
    NulFree text := by
  induction characters with
  | nil => exact nulFree_nil
  | unescaped c printable _ _ _ ih => exact ih.cons (by omega)
  | escape marker unit short _ ih =>
    have markerFree : marker.toNat ≠ 0 := by
      intro isNul
      have isNul : marker = '\x00' := Char.toNat_inj.mp isNul
      rw [isNul] at short
      cases short
    exact (ih.cons markerFree).cons (by decide)
  | codeUnit first second third fourth _ _ _ _ isFirst isSecond isThird isFourth _ ih =>
    have digits := (((ih.cons (toNat_of_hexDigit isFourth)).cons (toNat_of_hexDigit isThird)).cons
      (toNat_of_hexDigit isSecond)).cons (toNat_of_hexDigit isFirst)
    exact (digits.cons (by decide)).cons (by decide)

/-- A text between two characters. -/
theorem NulFree.between {first last : Char} (between : NulFree text) (isFirst : first.toNat ≠ 0)
    (isLast : last.toNat ≠ 0) : NulFree (first :: text ++ [last]) :=
  (between.cons isFirst).append (nulFree_nil.cons isLast)

theorem Spells.nulFree {phrase : Phrase} (spelled : Spells phrase text) : NulFree text := by
  induction spelled with
  | null => simp [NulFree]
  | true => simp [NulFree]
  | false => simp [NulFree]
  | number number => exact number.nulFree
  | string characters => exact characters.nulFree.between (by decide) (by decide)
  | emptyArray isBlank => exact (Blank.nulFree isBlank).between (by decide) (by decide)
  | array _ ih => exact ih.between (by decide) (by decide)
  | emptyObject isBlank => exact (Blank.nulFree isBlank).between (by decide) (by decide)
  | object _ ih => exact ih.between (by decide) (by decide)
  | lastItem isBefore _ isAfter ih =>
    exact ((Blank.nulFree isBefore).append ih).append (Blank.nulFree isAfter)
  | item isBefore _ isAfter _ ih others =>
    have first := ((Blank.nulFree isBefore).append ih).append (Blank.nulFree isAfter)
    exact first.append (others.cons (by decide))
  | lastMember isBefore isName isMiddle isInner _ isAfter ih =>
    have name : NulFree ('"' :: _ ++ ['"']) := isName.nulFree.between (by decide) (by decide)
    have front := ((Blank.nulFree isBefore).append name).append (Blank.nulFree isMiddle)
    have value := ((Blank.nulFree isInner).append ih).append (Blank.nulFree isAfter)
    exact front.append (value.cons (by decide))
  | member isBefore isName isMiddle isInner _ isAfter _ ih others =>
    have name : NulFree ('"' :: _ ++ ['"']) := isName.nulFree.between (by decide) (by decide)
    have front := ((Blank.nulFree isBefore).append name).append (Blank.nulFree isMiddle)
    have value := ((Blank.nulFree isInner).append ih).append (Blank.nulFree isAfter)
    exact front.append ((value.append (others.cons (by decide))).cons (by decide))

/-- What spells a value has no NUL: control characters are escaped. -/
theorem Text.nulFree {value : WireJson} (spelled : Text text value) : NulFree text := by
  obtain ⟨before, body, after, isBefore, isBody, isAfter, rfl⟩ := spelled
  exact ((Blank.nulFree isBefore).append isBody.nulFree).append (Blank.nulFree isAfter)

end JsonGrammar

end GhcGateway
