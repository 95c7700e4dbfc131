/-
# Text columns of the database

A text is bound as UTF-8, so half of a surrogate pair is replaced on the way in. The driver
reads a column as a text that ends at the first NUL. SQL compares what was bound, and the
gateway what was read.
-/

import GhcGateway.Serialization.TextCodec

namespace GhcGateway

open JsonGrammar

/-- What the database holds of a text: a replacement for half of a surrogate pair. -/
def boundText (text : JsString) : JsString := decodeText (encodeUtf8 text)

/-- What the database gives back of a text: nothing from a NUL on, and a replacement for half
of a surrogate pair. -/
def columnText (text : JsString) : JsString := boundText (text.takeWhile (· ≠ 0))

/-- The database gives a text back as it is, unless it has a NUL or half of a surrogate pair. -/
def KeepsText (keeps : JsString → JsString) : Prop :=
  ∀ text, NulFree text → keeps (textUnits text) = textUnits text

theorem ne_zero_of_mem_codePointUnits {c : Char} (nonzero : c.toNat ≠ 0) {unit : UInt16}
    (isUnit : unit ∈ codePointUnits c.toNat) : unit ≠ 0 := by
  have valid : c.toNat < 0xD800 ∨ 0xDFFF < c.toNat ∧ c.toNat < 0x110000 := c.valid
  rw [ne_eq, ← UInt16.toNat_inj]
  rw [codePointUnits] at isUnit
  split at isUnit
  · rw [List.mem_singleton.mp isUnit, UInt16.toNat_ofNat']
    show ¬ c.toNat % 65536 = 0
    omega
  · rcases List.mem_pair.mp isUnit with rfl | rfl
    · rw [UInt16.toNat_ofNat']
      show ¬ (0xD800 + (c.toNat - 0x10000) / 0x400) % 65536 = 0
      omega
    · rw [UInt16.toNat_ofNat']
      show ¬ (0xDC00 + (c.toNat - 0x10000) % 0x400) % 65536 = 0
      omega

theorem takeWhile_textUnits (text : List Char) :
    (textUnits text).takeWhile (· ≠ 0) = textUnits (text.takeWhile (·.toNat ≠ 0)) := by
  induction text with
  | nil => rfl
  | cons c text ih =>
    rw [textUnits, List.flatMap_cons, List.takeWhile_cons]
    by_cases zero : c.toNat = 0
    · simp [zero, codePointUnits, textUnits]
    · have units : ∀ unit ∈ codePointUnits c.toNat, decide (unit ≠ 0) = true :=
        fun unit isUnit => decide_eq_true (ne_zero_of_mem_codePointUnits zero isUnit)
      rw [List.takeWhile_append_of_pos units, if_pos (decide_eq_true zero), textUnits,
        List.flatMap_cons]
      exact congrArg _ ih

/-- A text that UTF-8 can write is cut at its first NUL. -/
theorem columnText_textUnits (text : List Char) :
    columnText (textUnits text) = textUnits (text.takeWhile (·.toNat ≠ 0)) := by
  rw [columnText, takeWhile_textUnits, boundText, encodeUtf8_textUnits, decodeText_encode]

theorem keepsText_columnText : KeepsText columnText := by
  intro text nulFree
  rw [columnText_textUnits, List.takeWhile_eq_self_iff.mpr fun c member =>
    decide_eq_true (nulFree c member)]

/-- What is read of such a text starts what was bound. -/
theorem encodeUtf8_columnText (text : List Char) :
    encodeUtf8 (columnText (textUnits text)) <+: encodeUtf8 (textUnits text) := by
  rw [columnText_textUnits, encodeUtf8_textUnits, encodeUtf8_textUnits]
  obtain ⟨rest, split⟩ := List.takeWhile_prefix (l := text) (fun c => decide (c.toNat ≠ 0))
  exact ⟨encode rest, by rw [← encode_append, split]⟩

end GhcGateway
