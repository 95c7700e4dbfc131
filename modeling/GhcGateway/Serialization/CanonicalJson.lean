/-
# Canonical JSON

Two values are the same JSON value with their object members in another order exactly if
their canonical texts are the same. The sorting of members is stable and total on the code
points of their names, and no two names have the same code points; the text gives the value
back because the serializer is inverted by the parser.
-/

import GhcGateway.Library.StableSort
import GhcGateway.Serialization.JsonSerializer
import Mathlib.Data.List.Lex

namespace GhcGateway

open Library JsonGrammar

variable {right left : WireJson}

/-! ## The order of names -/

theorem flatMap_codePointUnits_codePoints (text : JsString) :
    text.codePoints.flatMap codePointUnits = text := by
  induction text using JsString.codePoints.induct with
  | case1 => rfl
  | case2 unit =>
    have small : unit.toNat < 0x10000 := unit.toNat_lt
    simp [JsString.codePoints, codePointUnits, small]
  | case3 first second rest pair ih =>
    have cD800 : (0xD800 : UInt16).toNat = 0xD800 := rfl
    have cDBFF : (0xDBFF : UInt16).toNat = 0xDBFF := rfl
    have cDC00 : (0xDC00 : UInt16).toNat = 0xDC00 := rfl
    have cDFFF : (0xDFFF : UInt16).toNat = 0xDFFF := rfl
    have bounds := pair
    simp only [JsString.isHighSurrogate, JsString.isLowSurrogate, Bool.and_eq_true,
      decide_eq_true_eq, UInt16.le_iff_toNat_le] at bounds
    have isFirst : 0xD800 + (0x10000 + (first.toNat - 0xD800) * 0x400 + (second.toNat - 0xDC00) -
        0x10000) / 0x400 = first.toNat := by omega
    have isSecond : 0xDC00 + (0x10000 + (first.toNat - 0xD800) * 0x400 + (second.toNat - 0xDC00) -
        0x10000) % 0x400 = second.toNat := by omega
    rw [JsString.codePoints, if_pos pair, List.flatMap_cons, ih, codePointUnits,
      if_neg (by omega), isFirst, isSecond]
    simp
  | case4 first second rest pair ih =>
    have small : first.toNat < 0x10000 := first.toNat_lt
    rw [JsString.codePoints, if_neg pair, List.flatMap_cons, ih, codePointUnits, if_pos small]
    simp

theorem codePoints_injective : Function.Injective JsString.codePoints :=
  Function.LeftInverse.injective flatMap_codePointUnits_codePoints

theorem codePointsLe_iff {left right : List Nat} :
    codePointsLe left right = true ↔ left ≤ right := by
  rw [← not_lt]
  induction left generalizing right with
  | nil => simp [codePointsLe]
  | cons first left ih =>
    cases right with
    | nil => simp [codePointsLe]
    | cons second right =>
      rw [codePointsLe, List.cons_lt_cons_iff]
      by_cases same : first = second
      · simp [same, ih]
      · simp only [if_neg same, decide_eq_true_eq]
        omega

def memberCodePoints (member : JsString × WireJson) : List Nat := member.1.codePoints

theorem canonicalizeValue_object (members : List (JsString × WireJson)) :
    canonicalizeValue (.object members) =
      .object (stableSort memberCodePoints (canonicalizeMembers members)) := by
  rw [canonicalizeValue, stableSort]
  simp only [codePointsLe_iff]
  rfl

/-! ## Values with their members in another order -/

/-- Two values are equal up to the places of object members with different names, at every
depth. Members of one name keep their order. -/
inductive WireJson.Reordered : WireJson → WireJson → Prop
  | refl (value : WireJson) : Reordered value value
  | members {left right : List (JsString × WireJson)}
      (rearranged : Rearranged Prod.fst left right) : Reordered (.object left) (.object right)
  | item (before after : List WireJson) {value other : WireJson}
      (reordered : Reordered value other) :
      Reordered (.array (before ++ value :: after)) (.array (before ++ other :: after))
  | member (before after : List (JsString × WireJson)) (key : JsString) {value other : WireJson}
      (reordered : Reordered value other) :
      Reordered (.object (before ++ (key, value) :: after))
        (.object (before ++ (key, other) :: after))
  | trans {first second third : WireJson} (left : Reordered first second)
      (right : Reordered second third) : Reordered first third

namespace WireJson

theorem Reordered.symm (reordered : Reordered left right) : Reordered right left := by
  induction reordered with
  | refl value => exact .refl value
  | members rearranged => exact .members rearranged.symm
  | item before after _ ih => exact .item before after ih
  | member before after key _ ih => exact .member before after key ih
  | trans _ _ first second => exact second.trans first

theorem wellFormedItems_iff {items : List WireJson} :
    WellFormedItems items ↔ ∀ item ∈ items, item.WellFormed := by
  induction items with
  | nil => simp [WellFormedItems]
  | cons item items ih => simp [WellFormedItems, ih]

theorem wellFormedMembers_iff {members : List (JsString × WireJson)} :
    WellFormedMembers members ↔ ∀ member ∈ members, member.2.WellFormed := by
  induction members with
  | nil => simp [WellFormedMembers]
  | cons member members ih => simp [WellFormedMembers, ih]

theorem Reordered.wellFormed (reordered : Reordered left right) (isLeft : left.WellFormed) :
    right.WellFormed := by
  induction reordered with
  | refl => exact isLeft
  | members rearranged =>
    rw [WellFormed, wellFormedMembers_iff] at isLeft ⊢
    intro member isMember
    exact isLeft member (rearranged.symm.mem isMember)
  | item before after _ ih =>
    simp only [WellFormed, wellFormedItems_iff, List.forall_mem_append,
      List.forall_mem_cons] at isLeft ⊢
    exact ⟨isLeft.1, ih isLeft.2.1, isLeft.2.2⟩
  | member before after key _ ih =>
    simp only [WellFormed, wellFormedMembers_iff, List.forall_mem_append,
      List.forall_mem_cons] at isLeft ⊢
    exact ⟨isLeft.1, ih isLeft.2.1, isLeft.2.2⟩
  | trans _ _ first second => exact second (first isLeft)

end WireJson

open WireJson

variable {bytes : List UInt8} {value : WireJson}

/-! ## The canonical form -/

theorem canonicalizeItems_append (before after : List WireJson) :
    canonicalizeItems (before ++ after) = canonicalizeItems before ++ canonicalizeItems after := by
  induction before with
  | nil => rfl
  | cons item before ih => simp [canonicalizeItems, ih]

theorem canonicalizeMembers_eq_map (members : List (JsString × WireJson)) :
    canonicalizeMembers members =
      members.map fun member => (member.1, canonicalizeValue member.2) := by
  induction members with
  | nil => rfl
  | cons member members ih => simp [canonicalizeMembers, ih]

mutual

/-- The canonical form only moves members. -/
theorem reordered_canonicalizeValue : ∀ value : WireJson, Reordered value (canonicalizeValue value)
  | .null => .refl _
  | .bool _ => .refl _
  | .string _ => .refl _
  | .number _ => .refl _
  | .array items => by
    rw [canonicalizeValue]
    exact reordered_canonicalizeItems [] items
  | .object members => by
    rw [canonicalizeValue_object]
    have sorted := rearranged_stableSort memberCodePoints (canonicalizeMembers members)
    exact (reordered_canonicalizeMembers [] members).trans
      (.members ((rearranged_comp codePoints_injective).mp sorted))

theorem reordered_canonicalizeItems (before : List WireJson) : ∀ items : List WireJson,
    Reordered (.array (before ++ items)) (.array (before ++ canonicalizeItems items))
  | [] => .refl _
  | item :: items => by
    have rest := reordered_canonicalizeItems (before ++ [canonicalizeValue item]) items
    rw [List.append_assoc, List.append_assoc] at rest
    exact (Reordered.item before items (reordered_canonicalizeValue item)).trans rest

theorem reordered_canonicalizeMembers (before : List (JsString × WireJson)) :
    ∀ members : List (JsString × WireJson),
      Reordered (.object (before ++ members)) (.object (before ++ canonicalizeMembers members))
  | [] => .refl _
  | (key, value) :: members => by
    have rest := reordered_canonicalizeMembers (before ++ [(key, canonicalizeValue value)]) members
    rw [List.append_assoc, List.append_assoc] at rest
    exact (Reordered.member before members key (reordered_canonicalizeValue value)).trans rest

end

theorem WireJson.Reordered.canonicalizeValue_eq (reordered : Reordered left right) :
    canonicalizeValue left = canonicalizeValue right := by
  induction reordered with
  | refl => rfl
  | members rearranged =>
    rw [canonicalizeValue_object, canonicalizeValue_object, canonicalizeMembers_eq_map,
      canonicalizeMembers_eq_map]
    have mapped : Rearranged Prod.fst _ _ :=
      rearranged.map (fun member => (member.1, canonicalizeValue member.2)) fun _ => rfl
    exact congrArg _ (stableSort_eq_iff.mpr ((rearranged_comp codePoints_injective).mpr mapped))
  | item before after _ ih =>
    simp [canonicalizeValue, canonicalizeItems_append, canonicalizeItems, ih]
  | member before after key _ ih =>
    simp [canonicalizeValue_object, canonicalizeMembers_eq_map, ih]
  | trans _ _ first second => exact first.trans second

/-- The canonical form is the same exactly for values that differ in the places of members. -/
theorem canonicalizeValue_eq_iff :
    canonicalizeValue left = canonicalizeValue right ↔ Reordered left right := by
  constructor
  · intro same
    have first := reordered_canonicalizeValue left
    rw [same] at first
    exact first.trans (reordered_canonicalizeValue right).symm
  · exact Reordered.canonicalizeValue_eq

/-! ## The canonical text -/

/-- A text is what one value is serialized to. -/
theorem eq_of_serializeWireJson (isLeft : serializeWireJson left = .ok bytes)
    (isRight : serializeWireJson right = .ok bytes) : left = right := by
  obtain ⟨text, rfl, spelled⟩ := serializeWireJson_eq_ok isLeft
  obtain ⟨other, same, otherSpelled⟩ := serializeWireJson_eq_ok isRight
  have parsed : parseWireJson (encode text) ⟨(encode text).length, right.nesting⟩ = .ok right :=
    (parseWireJson_eq_ok_iff _ _ _).mpr ⟨le_rfl, other, same, otherSpelled, le_rfl⟩
  exact ((parseWireJson_encode spelled le_rfl right).mp parsed).1.symm

theorem canonicalizeWireJson_eq_ok_iff :
    (∃ bytes, canonicalizeWireJson value = .ok bytes) ↔ value.WellFormed := by
  constructor
  · rintro ⟨bytes, written⟩
    exact (reordered_canonicalizeValue value).symm.wellFormed (wellFormed_of_writeValue written)
  · intro wellFormed
    have canonical := (reordered_canonicalizeValue value).wellFormed wellFormed
    obtain ⟨bytes, written, -⟩ := parseWireJson_serializeWireJson _ canonical ⟨0, 0⟩
    exact ⟨bytes, written⟩

/-- What is parsed from a canonical text is the canonical form. -/
theorem parseWireJson_canonicalizeWireJson {parsed : WireJson} {limits : WireJsonParseLimits}
    (written : canonicalizeWireJson value = .ok bytes) :
    parseWireJson bytes limits = .ok parsed ↔
      bytes.length ≤ limits.maxBytes ∧ parsed = canonicalizeValue value ∧
        (canonicalizeValue value).nesting ≤ limits.maxDepth := by
  obtain ⟨text, rfl, spelled⟩ := serializeWireJson_eq_ok written
  constructor
  · intro isParsed
    have small := ((parseWireJson_eq_ok_iff _ _ _).mp isParsed).1
    exact ⟨small, (parseWireJson_encode spelled small parsed).mp isParsed⟩
  · intro parsedAs
    exact (parseWireJson_encode spelled parsedAs.1 parsed).mpr parsedAs.2

/-- Two values have one canonical text exactly if they are well formed and equal up to the
places of members with different names. A text that is parsed again has itself as its canonical
text, and every canonical text is parsed within large enough limits. -/
theorem canonicalizeWireJson_characterizes :
    (∀ left right : WireJson,
      (∃ bytes, canonicalizeWireJson left = .ok bytes ∧ canonicalizeWireJson right = .ok bytes) ↔
        left.WellFormed ∧ Reordered left right) ∧
    (∀ left right : WireJson, Reordered left right →
      canonicalizeWireJson left = canonicalizeWireJson right) ∧
    ∀ (value : WireJson) (bytes : List UInt8), canonicalizeWireJson value = .ok bytes →
      (∃ limits parsed, parseWireJson bytes limits = .ok parsed) ∧
        ∀ limits parsed, parseWireJson bytes limits = .ok parsed →
          canonicalizeWireJson parsed = .ok bytes := by
  have canonical (left right : WireJson) (reordered : Reordered left right) :
      canonicalizeWireJson left = canonicalizeWireJson right := by
    rw [canonicalizeWireJson, canonicalizeWireJson, reordered.canonicalizeValue_eq]
  have characterizes (left right : WireJson) :
      (∃ bytes, canonicalizeWireJson left = .ok bytes ∧ canonicalizeWireJson right = .ok bytes) ↔
        left.WellFormed ∧ Reordered left right := by
    constructor
    · rintro ⟨bytes, isLeft, isRight⟩
      exact ⟨canonicalizeWireJson_eq_ok_iff.mp ⟨bytes, isLeft⟩,
        canonicalizeValue_eq_iff.mp (eq_of_serializeWireJson isLeft isRight)⟩
    · rintro ⟨wellFormed, reordered⟩
      obtain ⟨bytes, written⟩ := canonicalizeWireJson_eq_ok_iff.mpr wellFormed
      exact ⟨bytes, written, canonical left right reordered ▸ written⟩
  refine ⟨characterizes, canonical, fun value bytes written => ⟨?_, ?_⟩⟩
  · exact ⟨⟨bytes.length, (canonicalizeValue value).nesting⟩, canonicalizeValue value,
      (parseWireJson_canonicalizeWireJson written).mpr ⟨le_rfl, rfl, le_rfl⟩⟩
  · intro limits parsed isParsed
    obtain ⟨-, rfl, -⟩ := (parseWireJson_canonicalizeWireJson written).mp isParsed
    exact canonical value _ (reordered_canonicalizeValue value) ▸ written

end GhcGateway
