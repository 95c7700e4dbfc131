/-
# Equality of tool arguments

`sameToolArguments` is equality of meanings: two texts are the same arguments exactly if both
spell objects within the depth limit that have no name twice at any depth and mean the same,
where the meaning of an object is a map from names and that of a number is a rational.
-/

import GhcGateway.Conversion.ToolArgumentLexemes
import GhcGateway.Serialization.CanonicalJson

namespace GhcGateway

open Library JsonGrammar

variable {name : JsString}

/-! ## Meanings -/

/-- What a JSON value means: numbers are rationals and an object is a map from names. -/
inductive JsonMeaning
  | null
  | bool (value : Bool)
  | string (value : JsString)
  | number (value : ℚ)
  | array (items : List JsonMeaning)
  | object (members : JsString → Option JsonMeaning)

namespace WireJson

variable {members : List (JsString × WireJson)}

mutual

def meaning : WireJson → JsonMeaning
  | null => .null
  | bool value => .bool value
  | string value => .string value
  | number lexeme => .number (lexemeValue lexeme)
  | array items => .array (itemMeanings items)
  | object members => .object (memberMeanings members)

def itemMeanings : List WireJson → List JsonMeaning
  | [] => []
  | item :: items => meaning item :: itemMeanings items

/-- The map of an object; where names are distinct, the order of the members is not in it. -/
def memberMeanings : List (JsString × WireJson) → JsString → Option JsonMeaning
  | [], _ => none
  | (key, value) :: members, name =>
    if key = name then some (meaning value) else memberMeanings members name

end

mutual

/-- No object in a value has a name twice. -/
def DistinctNames : WireJson → Prop
  | array items => DistinctNamesItems items
  | object members => (members.map Prod.fst).Nodup ∧ DistinctNamesMembers members
  | _ => True

/-- No object in some items has a name twice. -/
def DistinctNamesItems : List WireJson → Prop
  | [] => True
  | item :: items => DistinctNames item ∧ DistinctNamesItems items

/-- No object in some member values has a name twice. -/
def DistinctNamesMembers : List (JsString × WireJson) → Prop
  | [] => True
  | (_, value) :: members => DistinctNames value ∧ DistinctNamesMembers members

end

theorem distinctNamesMembers_iff :
    DistinctNamesMembers members ↔ ∀ member ∈ members, member.2.DistinctNames := by
  induction members with
  | nil => simp [DistinctNamesMembers]
  | cons member members ih => simp [DistinctNamesMembers, ih]

/-- Where names are distinct the map has exactly the members. -/
theorem memberMeanings_eq_some_iff (distinct : (members.map Prod.fst).Nodup) {found : JsonMeaning} :
    memberMeanings members name = some found ↔
      ∃ value, (name, value) ∈ members ∧ value.meaning = found := by
  induction members with
  | nil => simp [memberMeanings]
  | cons member members ih =>
    obtain ⟨key, value⟩ := member
    rw [List.map_cons, List.nodup_cons] at distinct
    rw [memberMeanings]
    split
    case isTrue same =>
      subst same
      have alone (other : WireJson) : (key, other) ∉ members := fun member =>
        distinct.1 (List.mem_map.mpr ⟨_, member, rfl⟩)
      simp [alone]
    case isFalse apart =>
      have others := ih distinct.2
      simp [others, Ne.symm apart]

end WireJson

namespace Conversion

variable {members : WireJsonObject} {text : JsString}

/-! ## Names -/

theorem collectDuplicates_eq_nil_iff {seen duplicates : List JsString} :
    collectDuplicates seen duplicates members = [] ↔
      duplicates = [] ∧ (members.map Prod.fst).Nodup ∧ ∀ member ∈ members, member.1 ∉ seen := by
  induction members generalizing seen duplicates with
  | nil => simp [collectDuplicates]
  | cons member members ih =>
    obtain ⟨key, value⟩ := member
    rw [collectDuplicates]
    split
    case isTrue again =>
      rw [ih]
      have some : (if key ∈ duplicates then duplicates else duplicates ++ [key]) ≠ [] := by
        split
        · next inside => exact List.ne_nil_of_mem inside
        · simp
      simp [some, again]
    case isFalse new =>
      rw [ih, List.map_cons, List.nodup_cons]
      constructor
      · rintro ⟨none, distinct, unseen⟩
        refine ⟨none, ⟨?_, distinct⟩, List.forall_mem_cons.mpr ⟨new, ?_⟩⟩
        · intro inside
          obtain ⟨member, isMember, rfl⟩ := List.mem_map.mp inside
          exact unseen member isMember (List.mem_append_right _ List.mem_cons_self)
        · intro member isMember ofSeen
          exact unseen member isMember (List.mem_append_left _ ofSeen)
      · rintro ⟨none, ⟨alone, distinct⟩, unseen⟩
        refine ⟨none, distinct, ?_⟩
        intro member isMember
        rw [List.mem_append, List.mem_singleton]
        rintro (ofSeen | same)
        · exact unseen member (List.mem_cons_of_mem _ isMember) ofSeen
        · exact alone (same ▸ List.mem_map.mpr ⟨member, isMember, rfl⟩)

theorem duplicateMemberNames_eq_nil_iff :
    duplicateMemberNames members = [] ↔ (members.map Prod.fst).Nodup := by
  rw [duplicateMemberNames, collectDuplicates_eq_nil_iff]
  simp

/-- Where names are distinct the map that the code builds has exactly the members. -/
theorem lastMember_eq_some_iff (distinct : (members.map Prod.fst).Nodup) {found : WireJson} :
    lastMember members name = some found ↔ (name, found) ∈ members := by
  rw [lastMember, memberValues]
  constructor
  · intro isLast
    obtain ⟨⟨key, value⟩, member, same⟩ := List.mem_map.mp (List.mem_of_getLast? isLast)
    obtain ⟨isMember, isName⟩ := List.mem_filter.mp member
    cases same
    cases of_decide_eq_true isName
    exact isMember
  · intro member
    have alone : members.filter (fun member => member.1 = name) = [(name, found)] := by
      induction members with
      | nil => cases member
      | cons first members ih =>
        rw [List.map_cons, List.nodup_cons] at distinct
        rcases List.mem_cons.mp member with rfl | inside
        · have none : members.filter (fun member => member.1 = name) = [] := by
            apply List.filter_eq_nil_iff.mpr
            intro other isOther isName
            exact distinct.1 (List.mem_map.mpr ⟨other, isOther, of_decide_eq_true isName⟩)
          rw [List.filter_cons_of_pos (by simp), none]
        · have apart : first.1 ≠ name := fun same =>
            distinct.1 (same ▸ List.mem_map.mpr ⟨_, inside, rfl⟩)
          rw [List.filter_cons_of_neg (by simpa using apart), ih distinct.2 inside]
    rw [alone]
    rfl

theorem unique_member (distinct : (members.map Prod.fst).Nodup) {first second : WireJson}
    (isFirst : (name, first) ∈ members) (isSecond : (name, second) ∈ members) : first = second := by
  have found := (lastMember_eq_some_iff distinct).mpr isFirst
  rw [(lastMember_eq_some_iff distinct).mpr isSecond] at found
  exact (Option.some.inj found).symm

/-! ## Values -/

/-- A member of one object has a counterpart in another. -/
def Matched (right : WireJsonObject) (member : JsString × WireJson) : Prop :=
  member.2.DistinctNames ∧ ∃ found, (member.1, found) ∈ right ∧ found.DistinctNames ∧
    member.2.meaning = found.meaning

/-- Objects of one size whose members all have counterparts are one map, and the other way
around. -/
theorem matched_iff {left right : WireJsonObject} (leftDistinct : (left.map Prod.fst).Nodup)
    (rightDistinct : (right.map Prod.fst).Nodup) :
    (left.length = right.length ∧ ∀ member ∈ left, Matched right member) ↔
      WireJson.DistinctNamesMembers left ∧ WireJson.DistinctNamesMembers right ∧
        WireJson.memberMeanings left = WireJson.memberMeanings right := by
  rw [WireJson.distinctNamesMembers_iff, WireJson.distinctNamesMembers_iff]
  constructor
  · rintro ⟨sameLength, matched⟩
    have names : left.map Prod.fst ⊆ right.map Prod.fst := by
      intro name ofLeft
      obtain ⟨member, isMember, rfl⟩ := List.mem_map.mp ofLeft
      obtain ⟨-, found, isFound, -⟩ := matched member isMember
      exact List.mem_map.mpr ⟨_, isFound, rfl⟩
    have sameNames : (left.map Prod.fst).Perm (right.map Prod.fst) :=
      (leftDistinct.subperm names).perm_of_length_le (by simp [sameLength])
    -- a member of the right object is the counterpart of the left one of its name
    have back : ∀ member ∈ right, ∃ value, (member.1, value) ∈ left ∧ member.2.DistinctNames ∧
        value.meaning = member.2.meaning := by
      intro member isMember
      obtain ⟨⟨name, value⟩, ofLeft, sameName⟩ :=
        List.mem_map.mp (sameNames.mem_iff.mpr (List.mem_map.mpr ⟨member, isMember, rfl⟩))
      cases sameName
      obtain ⟨-, found, isFound, distinct, same⟩ := matched _ ofLeft
      cases unique_member rightDistinct isFound isMember
      exact ⟨value, ofLeft, distinct, same⟩
    refine ⟨fun member isMember => (matched member isMember).1, ?_, ?_⟩
    · intro member isMember
      obtain ⟨-, -, distinct, -⟩ := back member isMember
      exact distinct
    · funext name
      apply Option.ext
      intro found
      rw [WireJson.memberMeanings_eq_some_iff leftDistinct,
        WireJson.memberMeanings_eq_some_iff rightDistinct]
      constructor
      · rintro ⟨value, isMember, rfl⟩
        obtain ⟨-, other, isOther, -, same⟩ := matched _ isMember
        exact ⟨other, isOther, same.symm⟩
      · rintro ⟨value, isMember, rfl⟩
        obtain ⟨other, isOther, -, same⟩ := back _ isMember
        exact ⟨other, isOther, same⟩
  · rintro ⟨leftValues, rightValues, sameMap⟩
    have counterpart {first second : WireJsonObject} (firstDistinct : (first.map Prod.fst).Nodup)
        (secondDistinct : (second.map Prod.fst).Nodup)
        (same : WireJson.memberMeanings first = WireJson.memberMeanings second) :
        ∀ member ∈ first, ∃ found, (member.1, found) ∈ second ∧
          found.meaning = member.2.meaning := by
      intro member isMember
      have found : WireJson.memberMeanings first member.1 = some member.2.meaning :=
        (WireJson.memberMeanings_eq_some_iff firstDistinct).mpr ⟨member.2, isMember, rfl⟩
      rw [same] at found
      exact (WireJson.memberMeanings_eq_some_iff secondDistinct).mp found
    have sameNames : (left.map Prod.fst).Perm (right.map Prod.fst) := by
      apply (List.perm_ext_iff_of_nodup leftDistinct rightDistinct).mpr
      intro name
      constructor
      · intro ofLeft
        obtain ⟨member, isMember, rfl⟩ := List.mem_map.mp ofLeft
        obtain ⟨found, isFound, -⟩ := counterpart leftDistinct rightDistinct sameMap member isMember
        exact List.mem_map.mpr ⟨_, isFound, rfl⟩
      · intro ofRight
        obtain ⟨member, isMember, rfl⟩ := List.mem_map.mp ofRight
        obtain ⟨found, isFound, -⟩ :=
          counterpart rightDistinct leftDistinct sameMap.symm member isMember
        exact List.mem_map.mpr ⟨_, isFound, rfl⟩
    refine ⟨by simpa using sameNames.length_eq, ?_⟩
    intro member isMember
    obtain ⟨found, isFound, same⟩ := counterpart leftDistinct rightDistinct sameMap member isMember
    exact ⟨leftValues member isMember, found, isFound, rightValues _ isFound, same.symm⟩

mutual

/-- Equality of values is that of meanings, and it sees every name that stands twice. -/
theorem equalWireJson_iff : ∀ {left right : WireJson}, left.WellFormed → right.WellFormed →
    (equalWireJson left right = true ↔
      left.DistinctNames ∧ right.DistinctNames ∧ left.meaning = right.meaning)
  | .null, right, _, _ => by
    cases right <;> simp [equalWireJson, WireJson.DistinctNames, WireJson.meaning]
  | .bool left, right, _, _ => by
    cases right <;> simp [equalWireJson, WireJson.DistinctNames, WireJson.meaning, eq_comm]
  | .string left, right, _, _ => by
    cases right <;> simp [equalWireJson, WireJson.DistinctNames, WireJson.meaning, eq_comm]
  | .number left, right, isLeft, isRight => by
    cases right with
    | number right =>
      obtain ⟨leftText, leftNumber, rfl⟩ := isLeft
      obtain ⟨rightText, rightNumber, rfl⟩ := isRight
      have same := normalizeJsonNumber_eq_iff leftNumber rightNumber
      simp [equalWireJson, WireJson.DistinctNames, WireJson.meaning, same]
    | _ => simp [equalWireJson, WireJson.meaning]
  | .array left, right, isLeft, isRight => by
    cases right with
    | array right =>
      have items : _ ↔ WireJson.DistinctNamesItems left ∧ WireJson.DistinctNamesItems right ∧ _ :=
        equalItems_iff isLeft isRight
      simp [equalWireJson, WireJson.DistinctNames, WireJson.meaning, items]
    | _ => simp [equalWireJson, WireJson.meaning]
  | .object left, right, isLeft, isRight => by
    cases right with
    | object right =>
      rw [equalWireJson, WireJson.DistinctNames, WireJson.DistinctNames, WireJson.meaning,
        WireJson.meaning, JsonMeaning.object.injEq]
      by_cases distinct : (left.map Prod.fst).Nodup ∧ (right.map Prod.fst).Nodup
      · have matched := matched_iff distinct.1 distinct.2
        have members := equalMembers_iff distinct.2 isLeft isRight
        by_cases sameLength : left.length = right.length
        · simp [duplicateMemberNames_eq_nil_iff.mpr distinct.1,
            duplicateMemberNames_eq_nil_iff.mpr distinct.2, distinct, members, sameLength,
            ← matched]
        · simp [sameLength, distinct, ← matched]
      · have some : 0 < (duplicateMemberNames left).length ∨
            0 < (duplicateMemberNames right).length := by
          by_contra none
          simp only [List.length_pos_iff, not_or, not_not] at none
          exact distinct ⟨duplicateMemberNames_eq_nil_iff.mp none.1,
            duplicateMemberNames_eq_nil_iff.mp none.2⟩
        rw [if_pos (.inr some)]
        constructor
        · intro impossible
          cases impossible
        · rintro ⟨leftDistinct, rightDistinct, -⟩
          exact absurd ⟨leftDistinct.1, rightDistinct.1⟩ distinct
    | _ => simp [equalWireJson, WireJson.meaning]

theorem equalItems_iff : ∀ {left right : List WireJson}, WireJson.WellFormedItems left →
    WireJson.WellFormedItems right →
    ((left.length = right.length ∧ equalItems left right = true) ↔
      WireJson.DistinctNamesItems left ∧ WireJson.DistinctNamesItems right ∧
        WireJson.itemMeanings left = WireJson.itemMeanings right)
  | [], right, _, _ => by
    cases right <;> simp [equalItems, WireJson.DistinctNamesItems, WireJson.itemMeanings]
  | left :: lefts, [], _, _ => by simp [WireJson.itemMeanings]
  | left :: lefts, right :: rights, isLeft, isRight => by
    have item := equalWireJson_iff isLeft.1 isRight.1
    have items := equalItems_iff isLeft.2 isRight.2
    simp only [List.length_cons, Nat.add_right_cancel_iff, equalItems, Bool.and_eq_true, item,
      WireJson.DistinctNamesItems, WireJson.itemMeanings, List.cons.injEq]
    constructor
    · rintro ⟨sameLength, ⟨leftFirst, rightFirst, first⟩, others⟩
      obtain ⟨leftRest, rightRest, rest⟩ := items.mp ⟨sameLength, others⟩
      exact ⟨⟨leftFirst, leftRest⟩, ⟨rightFirst, rightRest⟩, first, rest⟩
    · rintro ⟨⟨leftFirst, leftRest⟩, ⟨rightFirst, rightRest⟩, first, rest⟩
      obtain ⟨sameLength, others⟩ := items.mpr ⟨leftRest, rightRest, rest⟩
      exact ⟨sameLength, ⟨leftFirst, rightFirst, first⟩, others⟩

theorem equalMembers_iff : ∀ {members right : WireJsonObject}, (right.map Prod.fst).Nodup →
    WireJson.WellFormedMembers members → WireJson.WellFormedMembers right →
    (equalMembers members right = true ↔ ∀ member ∈ members, Matched right member)
  | [], _, _, _, _ => by simp [equalMembers]
  | (key, value) :: members, right, distinct, isLeft, isRight => by
    have others := equalMembers_iff distinct isLeft.2 isRight
    have single : (match lastMember right key with
        | some found => equalWireJson value found
        | none => false) = true ↔ Matched right (key, value) := by
      cases isLast : lastMember right key with
      | none =>
        have absent (found : WireJson) : (key, found) ∉ right := fun isMember => by
          rw [(lastMember_eq_some_iff distinct).mpr isMember] at isLast
          cases isLast
        simp [Matched, absent]
      | some found =>
        have isMember := (lastMember_eq_some_iff distinct).mp isLast
        have item := equalWireJson_iff isLeft.1
            (WireJson.wellFormedMembers_iff.mp isRight _ isMember)
        dsimp only
        rw [item]
        constructor
        · rintro ⟨valueDistinct, foundDistinct, same⟩
          exact ⟨valueDistinct, found, isMember, foundDistinct, same⟩
        · rintro ⟨valueDistinct, other, isOther, otherDistinct, same⟩
          cases unique_member distinct isOther isMember
          exact ⟨valueDistinct, otherDistinct, same⟩
    rw [equalMembers, Bool.and_eq_true, others, List.forall_mem_cons]
    exact and_congr_left' single

end

/-! ## Texts -/

/-- The value of a text is well formed. -/
theorem wellFormed_of_spells {phrase : Phrase} {text : List Char} (spelled : Spells phrase text) :
    match phrase with
    | .value value => value.WellFormed
    | .items items => WireJson.WellFormedItems items
    | .members members => WireJson.WellFormedMembers members := by
  induction spelled with
  | null | true | false | string => trivial
  | number number => exact ⟨_, number, rfl⟩
  | emptyArray | emptyObject => trivial
  | array _ ih => exact ih
  | object _ ih => exact ih
  | lastItem _ _ _ ih => exact ⟨ih, trivial⟩
  | item _ _ _ _ first others => exact ⟨first, others⟩
  | lastMember _ _ _ _ _ _ ih => exact ⟨ih, trivial⟩
  | member _ _ _ _ _ _ _ first others => exact ⟨first, others⟩

/-- A text spells the arguments of a tool call: an object within the depth limit. -/
def SpellsArguments (text : JsString) (members : WireJsonObject) : Prop :=
  ∃ chars, encodeUtf8 text = encode chars ∧ Text chars (.object members) ∧
    (WireJson.object members).nesting ≤ 32

theorem SpellsArguments.wellFormed (spelled : SpellsArguments text members) :
    (WireJson.object members).WellFormed := by
  obtain ⟨chars, -, ⟨before, body, after, -, isBody, -, -⟩, -⟩ := spelled
  exact wellFormed_of_spells isBody

theorem parse_eq_ok_iff :
    parseWireJson (encodeUtf8 text) ⟨max 1 (encodeUtf8 text).length, 32⟩ = .ok (.object members) ↔
      SpellsArguments text members := by
  rw [parseWireJson_eq_ok_iff]
  exact and_iff_right (Nat.le_max_right _ _)

theorem sameToolArguments_eq (left right : JsString) :
    sameToolArguments left right = true ↔
      ∃ leftMembers rightMembers, SpellsArguments left leftMembers ∧
        SpellsArguments right rightMembers ∧
        equalWireJson (.object leftMembers) (.object rightMembers) = true := by
  simp only [sameToolArguments, ← parse_eq_ok_iff]
  split
  · next leftMembers rightMembers isLeft isRight =>
    rw [isLeft, isRight]
    constructor
    · intro same
      exact ⟨leftMembers, rightMembers, rfl, rfl, same⟩
    · rintro ⟨_, _, ⟨⟩, ⟨⟩, same⟩
      exact same
  · next other =>
    constructor
    · intro impossible
      cases impossible
    · rintro ⟨leftMembers, rightMembers, isLeft, isRight, -⟩
      exact absurd isRight (other _ _ isLeft)

/-- Two texts are the same tool arguments exactly if they spell objects within the limits,
without a name that stands twice, that mean the same. -/
theorem sameToolArguments_iff (left right : JsString) :
    sameToolArguments left right = true ↔
      ∃ leftMembers rightMembers,
        (SpellsArguments left leftMembers ∧ (WireJson.object leftMembers).DistinctNames) ∧
        (SpellsArguments right rightMembers ∧ (WireJson.object rightMembers).DistinctNames) ∧
        (WireJson.object leftMembers).meaning = (WireJson.object rightMembers).meaning := by
  rw [sameToolArguments_eq]
  constructor
  · rintro ⟨leftMembers, rightMembers, isLeft, isRight, same⟩
    obtain ⟨leftDistinct, rightDistinct, meanings⟩ :=
      (equalWireJson_iff isLeft.wellFormed isRight.wellFormed).mp same
    exact ⟨leftMembers, rightMembers, ⟨isLeft, leftDistinct⟩, ⟨isRight, rightDistinct⟩, meanings⟩
  · rintro ⟨leftMembers, rightMembers, ⟨isLeft, leftDistinct⟩, ⟨isRight, rightDistinct⟩, meanings⟩
    exact ⟨leftMembers, rightMembers, isLeft, isRight,
      (equalWireJson_iff isLeft.wellFormed isRight.wellFormed).mpr
        ⟨leftDistinct, rightDistinct, meanings⟩⟩

example : normalizeJsonNumber (js "10e-1") = normalizeJsonNumber (js "1.0") := by decide

end Conversion

end GhcGateway
