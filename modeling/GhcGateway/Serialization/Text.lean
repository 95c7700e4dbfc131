/-
# JavaScript strings and the UTF-8 codec

The gateway runs on JavaScript, where a string is a sequence of UTF-16 code
units and may contain unpaired surrogates. Every string of the model is such a
sequence, so that lengths, prefixes and slices mean what they mean in the
source.

`TextEncoder` is modelled through the number of bytes it produces and through
the bytes themselves; `TextDecoder` is the byte-at-a-time decoder of the
encoding standard in its fatal mode, which is what lets a caller split a
character between two chunks.
-/

import Mathlib.Algebra.GroupWithZero.Nat
import Mathlib.Data.List.Basic
import Mathlib.Data.List.DropRight

namespace GhcGateway

variable {unit : UInt16}

/-- A JavaScript string: its UTF-16 code units. -/
abbrev JsString := List UInt16

variable {text : JsString}

instance : LawfulBEq JsString := inferInstanceAs (LawfulBEq (List UInt16))

/-- The code units of one Unicode scalar value given by its number. -/
def codePointUnits (point : Nat) : JsString :=
  if point < 0x10000 then [UInt16.ofNat point]
  else
    [UInt16.ofNat (0xD800 + (point - 0x10000) / 0x400),
      UInt16.ofNat (0xDC00 + (point - 0x10000) % 0x400)]

def js (text : String) : JsString :=
  text.toList.flatMap fun character => codePointUnits character.toNat

namespace JsString

/-- `U+D800` to `U+DBFF`, the first half of a surrogate pair. -/
def isHighSurrogate (unit : UInt16) : Bool := 0xD800 ≤ unit && unit ≤ 0xDBFF

/-- `U+DC00` to `U+DFFF`, the second half of a surrogate pair. -/
def isLowSurrogate (unit : UInt16) : Bool := 0xDC00 ≤ unit && unit ≤ 0xDFFF

theorem le_of_isHighSurrogate (high : isHighSurrogate unit = true) : 0xD800 ≤ unit := by
  simp only [isHighSurrogate, Bool.and_eq_true, decide_eq_true_eq] at high
  exact high.1

theorem le_of_isLowSurrogate (low : isLowSurrogate unit = true) : 0xDC00 ≤ unit := by
  simp only [isLowSurrogate, Bool.and_eq_true, decide_eq_true_eq] at low
  exact low.1

theorem isHighSurrogate_of_isLowSurrogate (low : isLowSurrogate unit = true) :
    isHighSurrogate unit = false := by
  have large := UInt16.le_iff_toNat_le.mp (le_of_isLowSurrogate low)
  have bound : (0xDC00 : UInt16).toNat = 0xDC00 := rfl
  rw [isHighSurrogate, Bool.and_eq_false_iff]
  right
  rw [decide_eq_false_iff_not, UInt16.le_iff_toNat_le]
  show ¬ unit.toNat ≤ 0xDBFF
  omega

/-- The code points a `for … of` loop visits: a surrogate pair counts once and
an unpaired surrogate stands for itself. -/
def codePoints : JsString → List Nat
  | [] => []
  | [unit] => [unit.toNat]
  | first :: second :: rest =>
    if isHighSurrogate first && isLowSurrogate second then
      (0x10000 + (first.toNat - 0xD800) * 0x400 + (second.toNat - 0xDC00)) ::
        codePoints rest
    else first.toNat :: codePoints (second :: rest)

/-- The white space and the line terminators that `trim` removes. -/
def isWhiteSpace (unit : UInt16) : Bool :=
  (0x09 ≤ unit && unit ≤ 0x0D) || unit = 0x20 || unit = 0xA0 || unit = 0x1680 ||
    (0x2000 ≤ unit && unit ≤ 0x200A) || unit = 0x2028 || unit = 0x2029 || unit = 0x202F ||
    unit = 0x205F || unit = 0x3000 || unit = 0xFEFF

def trim (text : JsString) : JsString :=
  ((text.dropWhile isWhiteSpace).reverse.dropWhile isWhiteSpace).reverse

/-- Trimming once is enough. -/
theorem trim_trim (text : JsString) : text.trim.trim = text.trim := by
  have front : text.trim.dropWhile isWhiteSpace = text.trim := by
    have pre : text.trim <+: text.dropWhile isWhiteSpace := List.rdropWhile_prefix _ _
    cases trimmed : text.trim with
    | nil => rfl
    | cons unit rest =>
      rw [trimmed] at pre
      obtain ⟨others, whole⟩ := pre
      have first : (text.dropWhile isWhiteSpace).head? = some unit := by
        rw [← whole]
        rfl
      have solid := List.head?_dropWhile_not isWhiteSpace text
      rw [first] at solid
      rw [List.dropWhile_cons_of_neg (by simpa using solid)]
  have back : text.trim.reverse.dropWhile isWhiteSpace = text.trim.reverse := by
    have reversed : text.trim.reverse = (text.dropWhile isWhiteSpace).reverse.dropWhile
        isWhiteSpace :=
      List.reverse_reverse _
    rw [reversed, List.dropWhile_idempotent]
  rw [trim, front, back, List.reverse_reverse]

/-- The cut between `text` and `more` falls inside a surrogate pair. -/
def CutsPair (text more : JsString) : Prop :=
  (∃ unit, text.getLast? = some unit ∧ isHighSurrogate unit) ∧
    ∃ unit, more.head? = some unit ∧ isLowSurrogate unit

end JsString

def utf8Bytes (point : Nat) : List UInt8 :=
  if point < 0x80 then [UInt8.ofNat point]
  else if point < 0x800 then
    [UInt8.ofNat (0xC0 + point / 0x40), UInt8.ofNat (0x80 + point % 0x40)]
  else if point < 0x10000 then
    [UInt8.ofNat (0xE0 + point / 0x1000), UInt8.ofNat (0x80 + point / 0x40 % 0x40),
      UInt8.ofNat (0x80 + point % 0x40)]
  else
    [UInt8.ofNat (0xF0 + point / 0x40000), UInt8.ofNat (0x80 + point / 0x1000 % 0x40),
      UInt8.ofNat (0x80 + point / 0x40 % 0x40), UInt8.ofNat (0x80 + point % 0x40)]

/-- `TextEncoder` writes an unpaired surrogate as the replacement character. -/
def scalarOrReplacement (point : Nat) : Nat :=
  if 0xD800 ≤ point ∧ point ≤ 0xDFFF then 0xFFFD else point

/-- `new TextEncoder().encode(text)`. -/
def encodeUtf8 (text : JsString) : List UInt8 :=
  text.codePoints.flatMap fun point => utf8Bytes (scalarOrReplacement point)

/-- The number of bytes `encode` writes for a code unit that is not half of a
surrogate pair. -/
def unitByteLength (unit : UInt16) : Nat :=
  if unit < 0x80 then 1 else if unit < 0x800 then 2 else 3

/-- `new TextEncoder().encode(text).byteLength`. -/
def utf8ByteLength : JsString → Nat
  | [] => 0
  | [unit] => unitByteLength unit
  | first :: second :: rest =>
    if JsString.isHighSurrogate first && JsString.isLowSurrogate second then
      4 + utf8ByteLength rest
    else unitByteLength first + utf8ByteLength (second :: rest)

theorem unitByteLength_le (unit : UInt16) : unitByteLength unit ≤ 3 := by
  unfold unitByteLength
  split
  · omega
  · split <;> omega

/-- A prefix is never longer than the whole, even where it cuts a pair. -/
theorem utf8ByteLength_le_append (text more : JsString) :
    utf8ByteLength text ≤ utf8ByteLength (text ++ more) := by
  induction text using utf8ByteLength.induct with
  | case1 => exact Nat.zero_le _
  | case2 unit =>
    cases more with
    | nil => simp
    | cons next tail =>
      simp only [List.singleton_append, utf8ByteLength]
      split
      · have := unitByteLength_le unit
        omega
      · omega
  | case3 first second rest pair ih =>
    simp only [List.cons_append, utf8ByteLength, if_pos pair]
    omega
  | case4 first second rest single ih =>
    simp only [List.cons_append, utf8ByteLength, if_neg single] at ih ⊢
    omega

/-- Lengths add up where no surrogate pair is cut. -/
theorem utf8ByteLength_append {more : JsString} (whole : ¬ JsString.CutsPair text more) :
    utf8ByteLength (text ++ more) = utf8ByteLength text + utf8ByteLength more := by
  induction text using utf8ByteLength.induct with
  | case1 => simp [utf8ByteLength]
  | case2 unit =>
    cases more with
    | nil => simp [utf8ByteLength]
    | cons next tail =>
      have single : ¬ (JsString.isHighSurrogate unit && JsString.isLowSurrogate next) = true := by
        intro pair
        rw [Bool.and_eq_true] at pair
        exact whole ⟨⟨unit, rfl, pair.1⟩, ⟨next, rfl, pair.2⟩⟩
      simp only [List.singleton_append, utf8ByteLength, if_neg single]
  | case3 first second rest pair ih =>
    rw [List.cons_append, List.cons_append, utf8ByteLength, if_pos pair, utf8ByteLength,
      if_pos pair, ih, Nat.add_assoc]
    rintro ⟨⟨unit, last, high⟩, head⟩
    refine whole ⟨⟨unit, ?_, high⟩, head⟩
    cases rest with
    | nil => simp at last
    | cons next rest => simpa using last
  | case4 first second rest single ih =>
    rw [List.cons_append, List.cons_append, utf8ByteLength, if_neg single, utf8ByteLength,
      if_neg single, ← List.cons_append, ih, Nat.add_assoc]
    rintro ⟨⟨unit, last, high⟩, head⟩
    exact whole ⟨⟨unit, by simpa using last, high⟩, head⟩

/-- Half of a surrogate pair counts as much as the replacement character. -/
theorem unitByteLength_surrogate (large : 0xD800 ≤ unit) : unitByteLength unit = 3 := by
  rw [UInt16.le_iff_toNat_le] at large
  have bound : (0xD800 : UInt16).toNat = 0xD800 := rfl
  have one : ¬ unit < 0x80 := by
    rw [UInt16.lt_iff_toNat_lt]
    show ¬ unit.toNat < 0x80
    omega
  have two : ¬ unit < 0x800 := by
    rw [UInt16.lt_iff_toNat_lt]
    show ¬ unit.toNat < 0x800
    omega
  rw [unitByteLength, if_neg one, if_neg two]

/-- Lengths add up at most: where a pair is cut, its halves are longer than the pair. -/
theorem utf8ByteLength_append_le (text more : JsString) :
    utf8ByteLength (text ++ more) ≤ utf8ByteLength text + utf8ByteLength more := by
  induction text using utf8ByteLength.induct with
  | case1 => simp [utf8ByteLength]
  | case2 unit =>
    cases more with
    | nil => simp [utf8ByteLength]
    | cons next tail =>
      simp only [List.singleton_append, utf8ByteLength]
      split
      case isTrue pair =>
        rw [Bool.and_eq_true] at pair
        have lowFirst : utf8ByteLength (next :: tail) = 3 + utf8ByteLength tail := by
          have three : unitByteLength next = 3 := unitByteLength_surrogate
            (UInt16.le_trans (by decide) (JsString.le_of_isLowSurrogate pair.2))
          cases tail with
          | nil => exact three
          | cons =>
            rw [utf8ByteLength, JsString.isHighSurrogate_of_isLowSurrogate pair.2,
              Bool.false_and, if_neg Bool.false_ne_true, three]
        rw [lowFirst, unitByteLength_surrogate (JsString.le_of_isHighSurrogate pair.1)]
        omega
      case isFalse => exact Nat.le_refl _
  | case3 first second rest pair ih =>
    simp only [List.cons_append, utf8ByteLength, if_pos pair]
    omega
  | case4 first second rest single ih =>
    simp only [List.cons_append, utf8ByteLength, if_neg single] at ih ⊢
    omega

/-! ## The streaming decoder -/

/-- `new TextDecoder("utf-8", { fatal: true, ignoreBOM: true })` between two
bytes: the character it is in the middle of, if any. -/
structure Utf8Decoder where
  codePoint : Nat
  bytesSeen : Nat
  bytesNeeded : Nat
  lowerBoundary : UInt8
  upperBoundary : UInt8
  deriving DecidableEq

namespace Utf8Decoder

variable {decoder next last : Utf8Decoder} {bytes : List UInt8} {byte : UInt8} {units : JsString}
  {point : Nat}

/-- Between two characters. -/
def initial : Utf8Decoder := ⟨0, 0, 0, 0x80, 0xBF⟩

/-- The decoder's answer to the first byte of a character, `none` on a byte no
character starts with. -/
def startByte (byte : UInt8) : Option (Utf8Decoder × JsString) :=
  if byte ≤ 0x7F then some (initial, [UInt16.ofNat byte.toNat])
  else if 0xC2 ≤ byte && byte ≤ 0xDF then
    some (⟨byte.toNat % 0x20, 0, 1, 0x80, 0xBF⟩, [])
  else if 0xE0 ≤ byte && byte ≤ 0xEF then
    some (⟨byte.toNat % 0x10, 0, 2, if byte = 0xE0 then 0xA0 else 0x80,
      if byte = 0xED then 0x9F else 0xBF⟩, [])
  else if 0xF0 ≤ byte && byte ≤ 0xF4 then
    some (⟨byte.toNat % 0x08, 0, 3, if byte = 0xF0 then 0x90 else 0x80,
      if byte = 0xF4 then 0x8F else 0xBF⟩, [])
  else none

/-- One byte: the decoder after it and the code units it completes, `none` where
the fatal mode throws. -/
def step (decoder : Utf8Decoder) (byte : UInt8) : Option (Utf8Decoder × JsString) :=
  if decoder.bytesNeeded = 0 then startByte byte
  else if decoder.lowerBoundary ≤ byte && byte ≤ decoder.upperBoundary then
    let codePoint := decoder.codePoint * 0x40 + byte.toNat % 0x40
    if decoder.bytesSeen + 1 = decoder.bytesNeeded then
      some (initial, codePointUnits codePoint)
    else
      some ({ decoder with
        codePoint := codePoint
        bytesSeen := decoder.bytesSeen + 1
        lowerBoundary := 0x80
        upperBoundary := 0xBF }, [])
  else none

/-- `decoder.decode(bytes, { stream: true })`. -/
def decode : Utf8Decoder → List UInt8 → Option (Utf8Decoder × JsString)
  | decoder, [] => some (decoder, [])
  | decoder, byte :: bytes => do
    let (next, units) ← decoder.step byte
    let (last, text) ← next.decode bytes
    return (last, units ++ text)

/-- `decoder.decode()`: the end of the input, where a character left open is an
error. -/
def finish (decoder : Utf8Decoder) : Option JsString :=
  if decoder.bytesNeeded = 0 then some [] else none

/-- Decoding is a fold: where the input is cut does not matter to the decoder. -/
theorem decode_append (decoder : Utf8Decoder) (bytes more : List UInt8) :
    decoder.decode (bytes ++ more) = (do
      let (next, text) ← decoder.decode bytes
      let (last, rest) ← next.decode more
      return (last, text ++ rest)) := by
  induction bytes generalizing decoder with
  | nil =>
    cases h : decoder.decode more with
    | none => simp [decode, h]
    | some result => simp [decode, h]
  | cons byte bytes ih =>
    simp only [List.cons_append, decode]
    cases hstep : decoder.step byte with
    | none => rfl
    | some next =>
      obtain ⟨next, units⟩ := next
      simp only [Option.bind_eq_bind, Option.bind_some, ih]
      cases hrest : next.decode bytes with
      | none => rfl
      | some middle =>
        obtain ⟨middle, text⟩ := middle
        cases hmore : middle.decode more with
        | none => simp [hmore]
        | some last => simp [hmore]

/-- What the decoder's fields can be. The bounds on the code point are those of
the characters that start with the bytes seen, so no character of several bytes
can turn out to be an ASCII one. -/
inductive WellFormed : Utf8Decoder → Prop
  | idle (decoder : Utf8Decoder) (idle : decoder.bytesNeeded = 0) : WellFormed decoder
  | two (codePoint : Nat) (lower : 2 ≤ codePoint) (upper : codePoint ≤ 0x1F) :
      WellFormed ⟨codePoint, 0, 1, 0x80, 0xBF⟩
  | threeFirst (codePoint : Nat) (low high : UInt8) (ascii : 0x80 ≤ low)
      (overlong : codePoint = 0 → 0xA0 ≤ low) (bound : high ≤ 0xBF) (upper : codePoint ≤ 0x0F) :
      WellFormed ⟨codePoint, 0, 2, low, high⟩
  | threeSecond (codePoint : Nat) (lower : 0x20 ≤ codePoint) (upper : codePoint ≤ 0x3FF) :
      WellFormed ⟨codePoint, 1, 2, 0x80, 0xBF⟩
  | fourFirst (codePoint : Nat) (low high : UInt8) (ascii : 0x80 ≤ low)
      (overlong : codePoint = 0 → 0x90 ≤ low) (bound : high ≤ 0xBF)
      (last : codePoint = 4 → high ≤ 0x8F) (upper : codePoint ≤ 4) :
      WellFormed ⟨codePoint, 0, 3, low, high⟩
  | fourSecond (codePoint : Nat) (lower : 0x10 ≤ codePoint) (upper : codePoint ≤ 0x10F) :
      WellFormed ⟨codePoint, 1, 3, 0x80, 0xBF⟩
  | fourThird (codePoint : Nat) (lower : 0x400 ≤ codePoint) (upper : codePoint ≤ 0x43FF) :
      WellFormed ⟨codePoint, 2, 3, 0x80, 0xBF⟩

theorem wellFormed_initial : WellFormed initial := .idle _ rfl

/-- The units of a character written in several bytes are not ASCII. -/
theorem le_of_mem_codePointUnits (lower : 0x80 ≤ point) (upper : point ≤ 0x10FFFF)
    (member : unit ∈ codePointUnits point) : 0x80 ≤ unit.toNat := by
  unfold codePointUnits at member
  split at member
  · simp only [List.mem_singleton] at member
    subst member
    rw [UInt16.toNat_ofNat']
    omega
  · simp only [List.mem_cons, List.not_mem_nil, or_false] at member
    rcases member with rfl | rfl
    · rw [UInt16.toNat_ofNat']
      omega
    · rw [UInt16.toNat_ofNat']
      omega

theorem codePointUnits_ne_nil (point : Nat) : codePointUnits point ≠ [] := by
  unfold codePointUnits
  split <;> simp

/-- The first byte of a character: an ASCII character is complete with it, any
other is left open. -/
theorem startByte_spec (accepted : startByte byte = some (next, units)) :
    next.WellFormed ∧
      ((units = [] ∧ next.bytesNeeded ≠ 0) ∨
        (next.bytesNeeded = 0 ∧ byte ≤ 0x7F ∧ units = [UInt16.ofNat byte.toNat])) := by
  unfold startByte at accepted
  split at accepted
  · next ascii =>
    simp only [Option.some.injEq, Prod.mk.injEq] at accepted
    obtain ⟨rfl, rfl⟩ := accepted
    exact ⟨wellFormed_initial, .inr ⟨rfl, ascii, rfl⟩⟩
  split at accepted
  · next notAscii lead =>
    simp only [Bool.and_eq_true, decide_eq_true_eq, UInt8.le_iff_toNat_le] at lead
    simp only [Option.some.injEq, Prod.mk.injEq] at accepted
    obtain ⟨rfl, rfl⟩ := accepted
    refine ⟨.two _ ?_ ?_, .inl ⟨rfl, by simp⟩⟩
    · have : (0xC2 : UInt8).toNat = 0xC2 := rfl
      have : (0xDF : UInt8).toNat = 0xDF := rfl
      omega
    · omega
  split at accepted
  · next notAscii notTwo lead =>
    simp only [Bool.and_eq_true, decide_eq_true_eq, UInt8.le_iff_toNat_le] at lead
    simp only [Option.some.injEq, Prod.mk.injEq] at accepted
    obtain ⟨rfl, rfl⟩ := accepted
    refine ⟨.threeFirst _ _ _ ?_ ?_ ?_ ?_, .inl ⟨rfl, by simp⟩⟩
    · split <;> decide
    · intro zero
      have : byte = 0xE0 := by
        apply UInt8.toNat.inj
        have : (0xE0 : UInt8).toNat = 0xE0 := rfl
        have : (0xEF : UInt8).toNat = 0xEF := rfl
        omega
      rw [if_pos this]
      exact UInt8.le_refl _
    · split <;> decide
    · omega
  split at accepted
  · next notAscii notTwo notThree lead =>
    simp only [Bool.and_eq_true, decide_eq_true_eq, UInt8.le_iff_toNat_le] at lead
    have : (0xF0 : UInt8).toNat = 0xF0 := rfl
    have : (0xF4 : UInt8).toNat = 0xF4 := rfl
    simp only [Option.some.injEq, Prod.mk.injEq] at accepted
    obtain ⟨rfl, rfl⟩ := accepted
    refine ⟨.fourFirst _ _ _ ?_ ?_ ?_ ?_ ?_, .inl ⟨rfl, by simp⟩⟩
    · split <;> decide
    · intro zero
      have : byte = 0xF0 := UInt8.toNat.inj (by omega)
      rw [if_pos this]
      exact UInt8.le_refl _
    · split <;> decide
    · intro four
      have : byte = 0xF4 := UInt8.toNat.inj (by omega)
      rw [if_pos this]
      exact UInt8.le_refl _
    · omega
  · simp at accepted

/-- A continuation byte within its boundaries either completes a character that
is not ASCII or leaves it open, with the bounds of `WellFormed` kept. -/
theorem continue_spec (formed : decoder.WellFormed) (inside : decoder.bytesNeeded ≠ 0)
    (accepted : decoder.step byte = some (next, units)) :
    next.WellFormed ∧ 0x80 ≤ byte ∧
      ((units = [] ∧ next.bytesNeeded ≠ 0) ∨
        (next.bytesNeeded = 0 ∧ units ≠ [] ∧ ∀ unit ∈ units, 0x80 ≤ unit.toNat)) := by
  simp only [step, if_neg inside] at accepted
  split at accepted
  case isFalse => simp at accepted
  next within =>
  simp only [Bool.and_eq_true, decide_eq_true_eq] at within
  have lowByte : 0x80 ≤ decoder.lowerBoundary → 0x80 ≤ byte :=
      fun low => UInt8.le_trans low within.1
  simp only [UInt8.le_iff_toNat_le] at within
  have c80 : (0x80 : UInt8).toNat = 0x80 := rfl
  have c8F : (0x8F : UInt8).toNat = 0x8F := rfl
  have c90 : (0x90 : UInt8).toNat = 0x90 := rfl
  have cA0 : (0xA0 : UInt8).toNat = 0xA0 := rfl
  have cBF : (0xBF : UInt8).toNat = 0xBF := rfl
  cases formed with
  | idle _ idle => exact absurd idle inside
  | two codePoint lower upper =>
    simp only [Nat.zero_add, if_true, Option.some.injEq, Prod.mk.injEq] at accepted
    obtain ⟨rfl, rfl⟩ := accepted
    refine ⟨wellFormed_initial, lowByte (UInt8.le_refl _), .inr ⟨rfl, codePointUnits_ne_nil _, ?_⟩⟩
    exact fun unit member => le_of_mem_codePointUnits (by omega) (by omega) member
  | threeFirst codePoint low high ascii overlong bound upper =>
    simp only [Nat.zero_add, Nat.reduceEqDiff, if_false, Option.some.injEq,
      Prod.mk.injEq] at accepted
    obtain ⟨rfl, rfl⟩ := accepted
    simp only [UInt8.le_iff_toNat_le] at ascii overlong bound
    dsimp only at within
    refine ⟨.threeSecond _ ?_ (by omega), lowByte (UInt8.le_iff_toNat_le.mpr ascii),
      .inl ⟨rfl, by simp⟩⟩
    rcases Nat.eq_zero_or_pos codePoint with zero | pos
    · have := overlong zero
      omega
    · omega
  | threeSecond codePoint lower upper =>
    simp only [Nat.reduceAdd, if_true, Option.some.injEq, Prod.mk.injEq] at accepted
    obtain ⟨rfl, rfl⟩ := accepted
    refine ⟨wellFormed_initial, lowByte (UInt8.le_refl _), .inr ⟨rfl, codePointUnits_ne_nil _, ?_⟩⟩
    exact fun unit member => le_of_mem_codePointUnits (by omega) (by omega) member
  | fourFirst codePoint low high ascii overlong bound last upper =>
    simp only [Nat.zero_add, Nat.reduceEqDiff, if_false, Option.some.injEq,
      Prod.mk.injEq] at accepted
    obtain ⟨rfl, rfl⟩ := accepted
    simp only [UInt8.le_iff_toNat_le] at ascii overlong bound last
    dsimp only at within
    refine ⟨.fourSecond _ ?_ ?_, lowByte (UInt8.le_iff_toNat_le.mpr ascii), .inl ⟨rfl, by simp⟩⟩
    · rcases Nat.eq_zero_or_pos codePoint with zero | pos
      · have := overlong zero
        omega
      · omega
    · rcases Nat.lt_or_eq_of_le upper with less | four
      · omega
      · have := last four
        omega
  | fourSecond codePoint lower upper =>
    simp only [Nat.reduceAdd, Nat.reduceEqDiff, if_false, Option.some.injEq,
      Prod.mk.injEq] at accepted
    obtain ⟨rfl, rfl⟩ := accepted
    exact ⟨.fourThird _ (by omega) (by omega), lowByte (UInt8.le_refl _), .inl ⟨rfl, by simp⟩⟩
  | fourThird codePoint lower upper =>
    simp only [Nat.reduceAdd, if_true, Option.some.injEq, Prod.mk.injEq] at accepted
    obtain ⟨rfl, rfl⟩ := accepted
    refine ⟨wellFormed_initial, lowByte (UInt8.le_refl _), .inr ⟨rfl, codePointUnits_ne_nil _, ?_⟩⟩
    exact fun unit member => le_of_mem_codePointUnits (by omega) (by omega) member

theorem step_of_idle (idle : decoder.bytesNeeded = 0) (byte : UInt8) :
    decoder.step byte = startByte byte := by
  rw [step, if_pos idle]

/-- Well-formedness holds of every decoder a stream can reach. -/
theorem decode_wellFormed (formed : decoder.WellFormed)
    (decoded : decoder.decode bytes = some (next, text)) : next.WellFormed := by
  induction bytes generalizing decoder text with
  | nil =>
    simp only [decode, Option.some.injEq, Prod.mk.injEq] at decoded
    exact decoded.1 ▸ formed
  | cons byte bytes ih =>
    simp only [decode, Option.bind_eq_bind, Option.bind_eq_some_iff, Option.pure_def,
      Option.some.injEq, Prod.mk.injEq, Prod.exists] at decoded
    obtain ⟨middle, units, stepped, last, rest, decoded, rfl, rfl⟩ := decoded
    refine ih ?_ decoded
    by_cases idle : decoder.bytesNeeded = 0
    · rw [step_of_idle idle] at stepped
      exact (startByte_spec stepped).1
    · exact (continue_spec formed idle stepped).1

/-- A text that starts with an ASCII unit was decoded from between two
characters, and its first byte is that unit. -/
theorem head_of_decode (formed : decoder.WellFormed)
    (decoded : decoder.decode bytes = some (next, text)) (head : text.head? = some unit)
    (ascii : unit.toNat < 0x80) :
    decoder.bytesNeeded = 0 ∧ (bytes.head?.map fun byte => UInt16.ofNat byte.toNat) =
      some unit := by
  induction bytes generalizing decoder text with
  | nil =>
    simp only [decode, Option.some.injEq, Prod.mk.injEq] at decoded
    simp [← decoded.2] at head
  | cons byte bytes ih =>
    simp only [decode, Option.bind_eq_bind, Option.bind_eq_some_iff, Option.pure_def,
      Option.some.injEq, Prod.mk.injEq, Prod.exists] at decoded
    obtain ⟨middle, units, stepped, last, rest, decoded, rfl, rfl⟩ := decoded
    by_cases idle : decoder.bytesNeeded = 0
    · rw [step_of_idle idle] at stepped
      obtain ⟨middleFormed, ⟨rfl, open_⟩ | ⟨-, -, rfl⟩⟩ := startByte_spec stepped
      · exact absurd (ih middleFormed decoded head).1 open_
      · exact ⟨idle, by simpa using head⟩
    · obtain ⟨middleFormed, -, ⟨rfl, open_⟩ | ⟨-, nonempty, high⟩⟩ :=
        continue_spec formed idle stepped
      · exact absurd (ih middleFormed decoded head).1 open_
      · obtain ⟨first, units, rfl⟩ := List.exists_cons_of_ne_nil nonempty
        simp only [List.cons_append, List.head?_cons, Option.some.injEq] at head
        have := high first List.mem_cons_self
        rw [head] at this
        omega

/-- A text that ends in an ASCII unit, with no character left open, was decoded
from bytes that end in that unit. -/
theorem last_of_decode (formed : decoder.WellFormed)
    (decoded : decoder.decode bytes = some (next, text)) (idle : next.bytesNeeded = 0)
    (last : text.getLast? = some unit) (ascii : unit.toNat < 0x80) :
    (bytes.getLast?.map fun byte => UInt16.ofNat byte.toNat) = some unit := by
  rcases List.eq_nil_or_concat bytes with rfl | ⟨initial, byte, rfl⟩
  · simp only [decode, Option.some.injEq, Prod.mk.injEq] at decoded
    simp [← decoded.2] at last
  · rw [List.concat_eq_append, decode_append] at decoded
    simp only [decode, Option.bind_eq_bind, Option.bind_eq_some_iff, Option.pure_def,
      Option.some.injEq, Prod.mk.injEq, Prod.exists] at decoded
    obtain ⟨middle, before, decodedBefore, final, after,
      ⟨_, units, stepped, _, _, ⟨rfl, rfl⟩, rfl, rfl⟩,
      rfl, rfl⟩ := decoded
    have middleFormed := decode_wellFormed formed decodedBefore
    rw [List.append_nil] at last
    have lastUnits : units ≠ [] → units.getLast? = some unit := by
      intro nonempty
      rw [List.getLast?_append_of_ne_nil _ nonempty] at last
      exact last
    by_cases open_ : middle.bytesNeeded = 0
    · rw [step_of_idle open_] at stepped
      obtain ⟨-, ⟨rfl, left⟩ | ⟨-, -, rfl⟩⟩ := startByte_spec stepped
      · exact absurd idle left
      · simpa using lastUnits (by simp)
    · obtain ⟨-, -, ⟨rfl, left⟩ | ⟨-, nonempty, high⟩⟩ := continue_spec middleFormed open_ stepped
      · exact absurd idle left
      · have := high unit (List.mem_of_getLast? (lastUnits nonempty))
        omega

/-- An ASCII byte at the end closes the text: it stands for itself and leaves no
character open. -/
theorem idle_of_last_ascii (formed : decoder.WellFormed)
    (decoded : decoder.decode bytes = some (next, text)) (last : bytes.getLast? = some byte)
    (ascii : byte ≤ 0x7F) :
    next.bytesNeeded = 0 ∧ text.getLast? = some (UInt16.ofNat byte.toNat) := by
  obtain ⟨before, rfl⟩ := List.getLast?_eq_some_iff.mp last
  rw [decode_append] at decoded
  simp only [decode, Option.bind_eq_bind, Option.bind_eq_some_iff, Option.pure_def,
    Option.some.injEq, Prod.mk.injEq, Prod.exists] at decoded
  obtain ⟨middle, front, decodedBefore, final, after,
    ⟨_, units, stepped, _, _, ⟨rfl, rfl⟩, rfl, rfl⟩,
    rfl, rfl⟩ := decoded
  have middleFormed := decode_wellFormed formed decodedBefore
  by_cases idle : middle.bytesNeeded = 0
  · rw [step_of_idle idle, startByte, if_pos ascii, Option.some.injEq, Prod.mk.injEq] at stepped
    obtain ⟨rfl, rfl⟩ := stepped
    exact ⟨rfl, by simp⟩
  · have high := (continue_spec middleFormed idle stepped).2.1
    rw [UInt8.le_iff_toNat_le] at ascii high
    have : (0x7F : UInt8).toNat = 0x7F := rfl
    have : (0x80 : UInt8).toNat = 0x80 := rfl
    omega

/-- Decoding an ASCII byte between two characters. -/
theorem decode_ascii (idle : decoder.bytesNeeded = 0) (ascii : byte ≤ 0x7F) :
    decoder.decode [byte] = some (initial, [UInt16.ofNat byte.toNat]) := by
  rw [decode, step_of_idle idle, startByte, if_pos ascii]
  rfl

/-- `decode_append` read forwards. -/
theorem decode_append_some {middle : Utf8Decoder} {more : List UInt8} {rest : JsString}
    (first : decoder.decode bytes = some (middle, text))
    (second : middle.decode more = some (last, rest)) :
    decoder.decode (bytes ++ more) = some (last, text ++ rest) := by
  rw [decode_append, first]
  simp [second]

/-! ### Whole characters -/

/-- The decoder is not in the middle of a surrogate, which the encoding rules
out by its second byte. -/
structure Scalar (decoder : Utf8Decoder) : Prop where
  first : decoder.bytesNeeded = 2 → decoder.bytesSeen = 0 → decoder.codePoint = 0xD →
    decoder.upperBoundary ≤ 0x9F
  second : decoder.bytesNeeded = 2 → decoder.bytesSeen = 1 → decoder.codePoint / 0x20 ≠ 0x1B

theorem scalar_initial : Scalar initial := by
  constructor <;> intro needed <;> simp [initial] at needed

/-- The units of a character that is not a surrogate do not end in the first
half of a pair. -/
theorem last_codePointUnits (bound : point ≤ 0x10FFFF) (scalar : point / 0x800 ≠ 0x1B)
    (last : (codePointUnits point).getLast? = some unit) :
    JsString.isHighSurrogate unit = false := by
  have low : (0xD800 : UInt16).toNat = 0xD800 := rfl
  have high : (0xDBFF : UInt16).toNat = 0xDBFF := rfl
  unfold codePointUnits at last
  unfold JsString.isHighSurrogate
  split at last
  · simp only [List.getLast?_singleton, Option.some.injEq] at last
    rw [← last, Bool.and_eq_false_iff, decide_eq_false_iff_not, decide_eq_false_iff_not,
      UInt16.le_iff_toNat_le, UInt16.le_iff_toNat_le, UInt16.toNat_ofNat']
    omega
  · simp only [List.getLast?_cons_cons, List.getLast?_singleton, Option.some.injEq] at last
    rw [← last, Bool.and_eq_false_iff, decide_eq_false_iff_not, decide_eq_false_iff_not,
      UInt16.le_iff_toNat_le, UInt16.le_iff_toNat_le, UInt16.toNat_ofNat']
    omega

theorem startByte_scalar (accepted : startByte byte = some (next, units)) :
    next.Scalar ∧ ∀ unit, units.getLast? = some unit → JsString.isHighSurrogate unit = false := by
  unfold startByte at accepted
  split at accepted
  · next ascii =>
    simp only [Option.some.injEq, Prod.mk.injEq] at accepted
    obtain ⟨rfl, rfl⟩ := accepted
    refine ⟨scalar_initial, fun unit last => ?_⟩
    have bound := byte.toNat_lt
    have alone : codePointUnits byte.toNat = [UInt16.ofNat byte.toNat] := if_pos (by omega)
    exact last_codePointUnits (by omega) (by omega) (alone ▸ last)
  split at accepted
  · simp only [Option.some.injEq, Prod.mk.injEq] at accepted
    obtain ⟨rfl, rfl⟩ := accepted
    exact ⟨⟨by simp, by simp⟩, by simp⟩
  split at accepted
  · next notAscii notTwo lead =>
    simp only [Bool.and_eq_true, decide_eq_true_eq, UInt8.le_iff_toNat_le] at lead
    simp only [Option.some.injEq, Prod.mk.injEq] at accepted
    obtain ⟨rfl, rfl⟩ := accepted
    refine ⟨⟨fun _ _ surrogate => ?_, by simp⟩, by simp⟩
    have : byte = 0xED := by
      apply UInt8.toNat.inj
      have : (0xE0 : UInt8).toNat = 0xE0 := rfl
      have : (0xED : UInt8).toNat = 0xED := rfl
      have : (0xEF : UInt8).toNat = 0xEF := rfl
      dsimp only at surrogate
      omega
    rw [if_pos this]
    exact UInt8.le_refl _
  split at accepted
  · simp only [Option.some.injEq, Prod.mk.injEq] at accepted
    obtain ⟨rfl, rfl⟩ := accepted
    exact ⟨⟨by simp, by simp⟩, by simp⟩
  · simp at accepted

theorem continue_scalar (formed : decoder.WellFormed) (scalar : decoder.Scalar)
    (inside : decoder.bytesNeeded ≠ 0) (accepted : decoder.step byte = some (next, units)) :
    next.Scalar ∧ ∀ unit, units.getLast? = some unit → JsString.isHighSurrogate unit = false := by
  simp only [step, if_neg inside] at accepted
  split at accepted
  case isFalse => simp at accepted
  next within =>
  simp only [Bool.and_eq_true, decide_eq_true_eq, UInt8.le_iff_toNat_le] at within
  cases formed with
  | idle _ idle => exact absurd idle inside
  | two codePoint lower upper =>
    simp only [Nat.zero_add, if_true, Option.some.injEq, Prod.mk.injEq] at accepted
    obtain ⟨rfl, rfl⟩ := accepted
    exact ⟨scalar_initial, fun unit => last_codePointUnits (by omega) (by omega)⟩
  | threeFirst codePoint low high ascii overlong bound upper =>
    simp only [Nat.zero_add, Nat.reduceEqDiff, if_false, Option.some.injEq,
      Prod.mk.injEq] at accepted
    obtain ⟨rfl, rfl⟩ := accepted
    refine ⟨⟨by simp, fun _ _ => ?_⟩, by simp⟩
    dsimp only at within ⊢
    by_cases surrogate : codePoint = 0xD
    · have below := scalar.first rfl rfl surrogate
      have : (0x9F : UInt8).toNat = 0x9F := rfl
      rw [UInt8.le_iff_toNat_le] at below ascii
      have : (0x80 : UInt8).toNat = 0x80 := rfl
      dsimp only at below
      omega
    · omega
  | threeSecond codePoint lower upper =>
    have apart := scalar.second rfl rfl
    simp only [Nat.reduceAdd, if_true, Option.some.injEq, Prod.mk.injEq] at accepted
    obtain ⟨rfl, rfl⟩ := accepted
    dsimp only at apart
    exact ⟨scalar_initial, fun unit => last_codePointUnits (by omega) (by omega)⟩
  | fourFirst codePoint low high ascii overlong bound last upper =>
    simp only [Nat.zero_add, Nat.reduceEqDiff, if_false, Option.some.injEq,
      Prod.mk.injEq] at accepted
    obtain ⟨rfl, rfl⟩ := accepted
    exact ⟨⟨by simp, by simp⟩, by simp⟩
  | fourSecond codePoint lower upper =>
    simp only [Nat.reduceAdd, Nat.reduceEqDiff, if_false, Option.some.injEq,
      Prod.mk.injEq] at accepted
    obtain ⟨rfl, rfl⟩ := accepted
    exact ⟨⟨by simp, by simp⟩, by simp⟩
  | fourThird codePoint lower upper =>
    simp only [Nat.reduceAdd, if_true, Option.some.injEq, Prod.mk.injEq] at accepted
    obtain ⟨rfl, rfl⟩ := accepted
    exact ⟨scalar_initial, fun unit => last_codePointUnits (by omega) (by omega)⟩

theorem decode_step (stepped : decoder.step byte = some (next, units)) :
    decoder.decode [byte] = some (next, units) := by
  rw [decode, stepped]
  simp [decode]

theorem step_scalar (formed : decoder.WellFormed) (scalar : decoder.Scalar)
    (accepted : decoder.step byte = some (next, units)) :
    next.Scalar ∧ ∀ unit, units.getLast? = some unit → JsString.isHighSurrogate unit = false := by
  by_cases idle : decoder.bytesNeeded = 0
  · rw [step_of_idle idle] at accepted
    exact startByte_scalar accepted
  · exact continue_scalar formed scalar idle accepted

/-- Decoded text never ends in half a character. -/
theorem last_decode (formed : decoder.WellFormed) (scalar : decoder.Scalar)
    (decoded : decoder.decode bytes = some (next, text)) :
    next.Scalar ∧ ∀ unit, text.getLast? = some unit → JsString.isHighSurrogate unit = false := by
  induction bytes generalizing decoder text with
  | nil =>
    simp only [decode, Option.some.injEq, Prod.mk.injEq] at decoded
    obtain ⟨rfl, rfl⟩ := decoded
    exact ⟨scalar, by simp⟩
  | cons byte bytes ih =>
    simp only [decode, Option.bind_eq_bind, Option.bind_eq_some_iff, Option.pure_def,
      Option.some.injEq, Prod.mk.injEq, Prod.exists] at decoded
    obtain ⟨middle, units, stepped, last, rest, decoded, rfl, rfl⟩ := decoded
    have here := step_scalar formed scalar stepped
    have there := ih (decode_wellFormed formed (decode_step stepped)) here.1 decoded
    refine ⟨there.1, fun unit final => ?_⟩
    by_cases empty : rest = []
    · rw [empty, List.append_nil] at final
      exact here.2 unit final
    · rw [List.getLast?_append_of_ne_nil _ empty] at final
      exact there.2 unit final

/-! ### The part that decodes -/

/-- The text in front of the first byte the fatal mode throws on, and the decoder
at the end if there is no such byte. -/
def decodePrefix : Utf8Decoder → List UInt8 → Option Utf8Decoder × JsString
  | decoder, [] => (some decoder, [])
  | decoder, byte :: bytes =>
    match decoder.step byte with
    | none => (none, [])
    | some (next, units) => ((next.decodePrefix bytes).1, units ++ (next.decodePrefix bytes).2)

theorem decodePrefix_of_decode (decoded : decoder.decode bytes = some (last, text)) :
    decoder.decodePrefix bytes = (some last, text) := by
  induction bytes generalizing decoder text with
  | nil =>
    simp only [decode, Option.some.injEq, Prod.mk.injEq] at decoded
    rw [decodePrefix, decoded.1, decoded.2]
  | cons byte bytes ih =>
    simp only [decode, Option.bind_eq_bind, Option.bind_eq_some_iff, Option.pure_def,
      Option.some.injEq, Prod.mk.injEq, Prod.exists] at decoded
    obtain ⟨middle, units, stepped, final, rest, decoded, rfl, rfl⟩ := decoded
    rw [decodePrefix, stepped]
    simp only [ih decoded]

theorem decodePrefix_of_decode_none (broken : decoder.decode bytes = none) :
    (decoder.decodePrefix bytes).1 = none := by
  induction bytes generalizing decoder with
  | nil => simp [decode] at broken
  | cons byte bytes ih =>
    rw [decodePrefix]
    cases stepped : decoder.step byte with
    | none => rfl
    | some result =>
      obtain ⟨next, units⟩ := result
      apply ih
      cases decoded : next.decode bytes with
      | none => rfl
      | some last => simp [decode, stepped, decoded] at broken

/-- Reading on after a part that decodes. -/
theorem decodePrefix_append (decoded : decoder.decode bytes = some (last, text))
    (more : List UInt8) :
    decoder.decodePrefix (bytes ++ more) =
      ((last.decodePrefix more).1, text ++ (last.decodePrefix more).2) := by
  induction bytes generalizing decoder text with
  | nil =>
    simp only [decode, Option.some.injEq, Prod.mk.injEq] at decoded
    obtain ⟨rfl, rfl⟩ := decoded
    rfl
  | cons byte bytes ih =>
    simp only [decode, Option.bind_eq_bind, Option.bind_eq_some_iff, Option.pure_def,
      Option.some.injEq, Prod.mk.injEq, Prod.exists] at decoded
    obtain ⟨middle, units, stepped, final, rest, decoded, rfl, rfl⟩ := decoded
    rw [List.cons_append, decodePrefix, stepped]
    simp only [ih decoded, List.append_assoc]

/-- What follows a byte that throws is never looked at. -/
theorem decodePrefix_append_none (broken : decoder.decode bytes = none) (more : List UInt8) :
    decoder.decodePrefix (bytes ++ more) = decoder.decodePrefix bytes := by
  induction bytes generalizing decoder with
  | nil => simp [decode] at broken
  | cons byte bytes ih =>
    rw [List.cons_append, decodePrefix, decodePrefix]
    cases stepped : decoder.step byte with
    | none => rfl
    | some result =>
      obtain ⟨next, units⟩ := result
      have brokenRest : next.decode bytes = none := by
        cases decoded : next.decode bytes with
        | none => rfl
        | some last => simp [decode, stepped, decoded] at broken
      simp only [ih brokenRest]

end Utf8Decoder

end GhcGateway
