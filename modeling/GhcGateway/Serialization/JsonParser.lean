/-
# The parser accepts the grammar

Both directions of the parser's correctness, by one induction each. What the
parser accepts is a JSON text: induction on the fuel, with one statement for
values, members and items. Every JSON text is read: induction on its derivation,
where the length of the encoding bounds the fuel and the nesting the depth.
-/

import GhcGateway.Serialization.JsonTokens

namespace GhcGateway

namespace Parser

open Library JsonGrammar

variable {members : List (JsString × WireJson)} {text blank : List Char}
  {inside input rest : List UInt8} {value : WireJson} {depth : Nat} {items : List WireJson}

/-! ## What the parser accepts -/

theorem unexpected_ne_ok {α : Type} {result : α × List UInt8} :
    unexpected α input ≠ .ok result := by
  intro returned
  unfold unexpected at returned
  split at returned
  · split at returned
    · obtain ⟨_, -, failed⟩ := bind_eq_ok.mp returned
      cases failed
    · cases returned
  · cases returned

theorem expectAscii_sound {text : List UInt8} (accepted : expectAscii text input = .ok ((), rest)) :
    input = text ++ rest := by
  induction text generalizing input with
  | nil =>
    cases accepted
    rfl
  | cons expected text ih =>
    cases input with
    | nil => cases accepted
    | cons byte input =>
      rw [expectAscii] at accepted
      split at accepted
      · next same =>
        rw [same, ih accepted]
        rfl
      · exact absurd accepted unexpected_ne_ok

theorem Blank.append {before after : List Char} (isBefore : Blank before) (isAfter : Blank after) :
    Blank (before ++ after) := by
  intro c member
  rcases List.mem_append.mp member with member | member
  · exact isBefore c member
  · exact isAfter c member

/-- More blanks may stand before items. -/
theorem Spells.blankBeforeItems (isBlank : Blank blank) (spelled : Spells (.items items) text) :
    Spells (.items items) (blank ++ text) := by
  cases spelled with
  | lastItem isBefore spelled isAfter =>
    rw [← List.append_assoc, ← List.append_assoc]
    exact .lastItem (Blank.append isBlank isBefore) spelled isAfter
  | item isBefore spelled isAfter others =>
    rw [← List.append_assoc, ← List.append_assoc, ← List.append_assoc]
    exact .item (Blank.append isBlank isBefore) spelled isAfter others

/-- More blanks may stand before members. -/
theorem Spells.blankBeforeMembers (isBlank : Blank blank)
    (spelled : Spells (.members members) text) : Spells (.members members) (blank ++ text) := by
  cases spelled with
  | lastMember isBefore isName isMiddle isInner spelled isAfter =>
    rw [← List.append_assoc, ← List.append_assoc, ← List.append_assoc]
    exact .lastMember (Blank.append isBlank isBefore) isName isMiddle isInner spelled isAfter
  | member isBefore isName isMiddle isInner spelled isAfter others =>
    rw [← List.append_assoc, ← List.append_assoc, ← List.append_assoc]
    exact .member (Blank.append isBlank isBefore) isName isMiddle isInner spelled isAfter others

/-- What `parseValue` accepts is a value after blanks, nested no deeper than the
depth left. -/
def ValueSound (maxDepth fuel : Nat) : Prop :=
  ∀ depth input value rest, parseValue maxDepth fuel depth input = .ok (value, rest) →
    ∃ blank text, Blank blank ∧ Spells (.value value) text ∧
      value.nesting ≤ maxDepth + 1 - depth ∧ input = encode (blank ++ text) ++ rest

/-- What `parseMembers` accepts are the remaining members of an object and its
closing brace. -/
def MembersSound (maxDepth fuel : Nat) : Prop :=
  ∀ depth members input value rest,
    parseMembers maxDepth fuel depth members input = .ok (value, rest) →
    ∃ member more text, Spells (.members (member :: more)) text ∧
      value = .object (members ++ member :: more) ∧
      WireJson.nestingMembers (member :: more) ≤ maxDepth - depth ∧
      input = encode text ++ 0x7D :: rest

/-- What `parseItems` accepts are the remaining items of an array and its closing
bracket. -/
def ItemsSound (maxDepth fuel : Nat) : Prop :=
  ∀ depth items input value rest,
    parseItems maxDepth fuel depth items input = .ok (value, rest) →
    ∃ item more text, Spells (.items (item :: more)) text ∧
      value = .array (items ++ item :: more) ∧
      WireJson.nestingItems (item :: more) ≤ maxDepth - depth ∧
      input = encode text ++ 0x5D :: rest

variable {maxDepth fuel : Nat}

theorem itemsSound_succ (values : ValueSound maxDepth fuel) (others : ItemsSound maxDepth fuel) :
    ItemsSound maxDepth (fuel + 1) := by
  intro depth items input value rest accepted
  rw [parseItems] at accepted
  obtain ⟨⟨item, afterItem⟩, parsed, remaining⟩ := bind_eq_ok.mp accepted
  obtain ⟨before, text, isBefore, spelled, nested, rfl⟩ := values _ _ _ _ parsed
  obtain ⟨after, isAfter, afterBlank⟩ := skipWhitespace_sound afterItem
  have fits : item.nesting ≤ maxDepth - depth := by omega
  dsimp only at remaining
  split at remaining
  · next next separator =>
    obtain ⟨second, more, following, spelledOthers, rfl, nestedOthers, rfl⟩ :=
      others _ _ _ _ _ remaining
    refine ⟨item, second :: more, _, .item isBefore spelled isAfter spelledOthers, ?_, ?_, ?_⟩
    · rw [List.append_assoc]
      rfl
    · exact Nat.max_le.mpr ⟨fits, nestedOthers⟩
    · rw [afterBlank, separator]
      simp only [encode_append, encode_cons, List.append_assoc]
      rfl
  · next next separator =>
    cases remaining
    refine ⟨item, [], _, .lastItem isBefore spelled isAfter, rfl, ?_, ?_⟩
    · exact Nat.max_le.mpr ⟨fits, Nat.zero_le _⟩
    · rw [afterBlank, separator]
      simp only [encode_append, List.append_assoc]
  · exact absurd remaining unexpected_ne_ok

theorem membersSound_succ (values : ValueSound maxDepth fuel)
    (others : MembersSound maxDepth fuel) : MembersSound maxDepth (fuel + 1) := by
  intro depth members input value rest accepted
  rw [parseMembers] at accepted
  obtain ⟨before, isBefore, beforeBlank⟩ := skipWhitespace_sound input
  split at accepted
  case h_2 => exact absurd accepted unexpected_ne_ok
  next afterQuote quote =>
  obtain ⟨⟨key, afterKey⟩, parsedKey, named⟩ := bind_eq_ok.mp accepted
  obtain ⟨name, _, isName, rfl, rfl⟩ := parseString_sound parsedKey
  obtain ⟨middle, isMiddle, middleBlank⟩ := skipWhitespace_sound afterKey
  dsimp only at named
  split at named
  case h_2 => exact absurd named unexpected_ne_ok
  next afterColon colon =>
  obtain ⟨⟨inside, afterValue⟩, parsed, remaining⟩ := bind_eq_ok.mp named
  obtain ⟨inner, text, isInner, spelled, nested, rfl⟩ := values _ _ _ _ parsed
  obtain ⟨after, isAfter, afterBlank⟩ := skipWhitespace_sound afterValue
  have fits : inside.nesting ≤ maxDepth - depth := by omega
  dsimp only at remaining
  split at remaining
  · next next separator =>
    obtain ⟨second, more, following, spelledOthers, rfl, nestedOthers, rfl⟩ :=
      others _ _ _ _ _ remaining
    refine ⟨(key, inside), second :: more, _,
      .member isBefore isName isMiddle isInner spelled isAfter spelledOthers, ?_, ?_, ?_⟩
    · rw [List.append_assoc]
      rfl
    · exact Nat.max_le.mpr ⟨fits, nestedOthers⟩
    · rw [beforeBlank, quote, middleBlank, colon, afterBlank, separator]
      simp only [encode_append, encode_cons, List.append_assoc]
      rfl
  · next next separator =>
    cases remaining
    refine ⟨(key, inside), [], _, .lastMember isBefore isName isMiddle isInner spelled isAfter, rfl,
      ?_, ?_⟩
    · exact Nat.max_le.mpr ⟨fits, Nat.zero_le _⟩
    · rw [beforeBlank, quote, middleBlank, colon, afterBlank, separator]
      simp only [encode_append, encode_cons, List.append_assoc]
      rfl
  · exact absurd remaining unexpected_ne_ok

theorem valueSound_succ (members : MembersSound maxDepth fuel) (items : ItemsSound maxDepth fuel) :
    ValueSound maxDepth (fuel + 1) := by
  intro depth input value rest accepted
  obtain ⟨blank, isBlank, blankInput⟩ := skipWhitespace_sound input
  -- it is enough to find the value behind the blanks
  suffices found : ∃ text, Spells (.value value) text ∧ value.nesting ≤ maxDepth + 1 - depth ∧
      skipWhitespace input = encode text ++ rest by
    obtain ⟨text, spelled, nested, same⟩ := found
    refine ⟨blank, text, isBlank, spelled, nested, ?_⟩
    rw [blankInput, same, encode_append, List.append_assoc]
  rw [parseValue] at accepted
  generalize skipWhitespace input = tokens at accepted
  cases tokens with
  | nil => cases accepted
  | cons byte tail =>
    dsimp only at accepted
    split at accepted
    · next brace =>
      split at accepted
      · cases accepted
      next shallow =>
      obtain ⟨inner, isInner, innerBlank⟩ := skipWhitespace_sound tail
      split at accepted
      · next after close =>
        cases accepted
        refine ⟨_, .emptyObject isInner, ?_, ?_⟩
        · show 0 + 1 ≤ _
          omega
        · rw [brace, innerBlank, close]
          simp only [encode_cons, encode_append, List.append_assoc]
          rfl
      · obtain ⟨member, more, text, spelled, rfl, nested, same⟩ := members _ _ _ _ _ accepted
        refine ⟨_, .object (Spells.blankBeforeMembers isInner spelled), ?_, ?_⟩
        · show WireJson.nestingMembers (member :: more) + 1 ≤ _
          omega
        · rw [brace, innerBlank, same]
          simp only [encode_cons, encode_append, List.append_assoc]
          rfl
    split at accepted
    · next notBrace bracket =>
      split at accepted
      · cases accepted
      next shallow =>
      obtain ⟨inner, isInner, innerBlank⟩ := skipWhitespace_sound tail
      split at accepted
      · next after close =>
        cases accepted
        refine ⟨_, .emptyArray isInner, ?_, ?_⟩
        · show 0 + 1 ≤ _
          omega
        · rw [bracket, innerBlank, close]
          simp only [encode_cons, encode_append, List.append_assoc]
          rfl
      · obtain ⟨item, more, text, spelled, rfl, nested, same⟩ := items _ _ _ _ _ accepted
        refine ⟨_, .array (Spells.blankBeforeItems isInner spelled), ?_, ?_⟩
        · show WireJson.nestingItems (item :: more) + 1 ≤ _
          omega
        · rw [bracket, innerBlank, same]
          simp only [encode_cons, encode_append, List.append_assoc]
          rfl
    split at accepted
    · next quote =>
      obtain ⟨⟨text, after⟩, parsed, returned⟩ := bind_eq_ok.mp accepted
      obtain ⟨characters, _, spelled, rfl, rfl⟩ := parseString_sound parsed
      cases returned
      refine ⟨_, .string spelled, Nat.zero_le _, ?_⟩
      rw [quote]
      simp only [encode_cons, encode_append, List.append_assoc]
      rfl
    split at accepted
    · obtain ⟨⟨_, after⟩, parsed, returned⟩ := bind_eq_ok.mp accepted
      cases returned
      exact ⟨_, .true, Nat.zero_le _, expectAscii_sound parsed⟩
    split at accepted
    · obtain ⟨⟨_, after⟩, parsed, returned⟩ := bind_eq_ok.mp accepted
      cases returned
      exact ⟨_, .false, Nat.zero_le _, expectAscii_sound parsed⟩
    split at accepted
    · obtain ⟨⟨_, after⟩, parsed, returned⟩ := bind_eq_ok.mp accepted
      cases returned
      exact ⟨_, .null, Nat.zero_le _, expectAscii_sound parsed⟩
    split at accepted
    · obtain ⟨text, number, rfl, same⟩ := parseNumber_sound accepted
      exact ⟨text, .number number, Nat.zero_le _, same⟩
    · exact absurd accepted unexpected_ne_ok

theorem parse_sound (maxDepth fuel : Nat) :
    ValueSound maxDepth fuel ∧ MembersSound maxDepth fuel ∧ ItemsSound maxDepth fuel := by
  induction fuel with
  | zero =>
    refine ⟨?_, ?_, ?_⟩
    · intro _ _ _ _ accepted
      cases accepted
    · intro _ _ _ _ _ accepted
      cases accepted
    · intro _ _ _ _ _ accepted
      cases accepted
  | succ fuel ih =>
    obtain ⟨values, members, items⟩ := ih
    exact ⟨valueSound_succ members items, membersSound_succ values members,
      itemsSound_succ values items⟩

/-! ## What the parser reads -/

@[simp]
theorem skipWhitespace_skipWhitespace (input : List UInt8) :
    skipWhitespace (skipWhitespace input) = skipWhitespace input := by
  induction input with
  | nil => rfl
  | cons byte input ih =>
    by_cases blank : isWhitespace byte = true
    · have dropped : skipWhitespace (byte :: input) = skipWhitespace input :=
        List.dropWhile_cons_of_pos blank
      rw [dropped, ih]
    · have kept : skipWhitespace (byte :: input) = byte :: input := List.dropWhile_cons_of_neg blank
      rw [kept, kept]

/-- Blanks before a value make no difference. -/
theorem parseValue_skipWhitespace (maxDepth fuel depth : Nat) (input : List UInt8) :
    parseValue maxDepth fuel depth (skipWhitespace input) =
      parseValue maxDepth fuel depth input := by
  cases fuel with
  | zero => rfl
  | succ fuel => rw [parseValue, parseValue, skipWhitespace_skipWhitespace]

theorem parseItems_skipWhitespace (maxDepth fuel depth : Nat) (items : List WireJson)
    (input : List UInt8) :
    parseItems maxDepth fuel depth items (skipWhitespace input) =
      parseItems maxDepth fuel depth items input := by
  cases fuel with
  | zero => rfl
  | succ fuel => rw [parseItems, parseItems, parseValue_skipWhitespace]

theorem parseMembers_skipWhitespace (maxDepth fuel depth : Nat)
    (members : List (JsString × WireJson)) (input : List UInt8) :
    parseMembers maxDepth fuel depth members (skipWhitespace input) =
      parseMembers maxDepth fuel depth members input := by
  cases fuel with
  | zero => rfl
  | succ fuel => rw [parseMembers, parseMembers, skipWhitespace_skipWhitespace]

theorem number_head (number : Number text) :
    ∃ byte tail, encode text = byte :: tail ∧ (byte = 0x2D ∨ isDigit byte = true) := by
  obtain ⟨minus, integer, fraction, exponent, isMinus, isInteger, isFraction, isExponent⟩ := number
  rcases isMinus with rfl | rfl
  · cases isInteger with
    | zero => exact ⟨0x30, _, rfl, .inr rfl⟩
    | digits first others digit nonzero digits =>
      have value := (charIsDigit_iff first).mp digit
      refine ⟨UInt8.ofNat first.toNat, encode (others ++ fraction ++ exponent), ?_,
        .inr (isDigit_ofNat digit)⟩
      have bytes : String.utf8EncodeChar first = [UInt8.ofNat first.toNat] :=
        encodeChar_ascii (by omega)
      show encode (first :: (others ++ fraction ++ exponent)) = _
      rw [encode_cons, bytes]
      rfl
  · exact ⟨0x2D, _, rfl, .inl rfl⟩

/-- The first byte of a value. -/
theorem value_head (spelled : Spells (.value value) text) :
    ∃ byte tail, encode text = byte :: tail ∧ isWhitespace byte = false ∧ byte ≠ 0x5D := by
  cases spelled with
  | number number =>
    obtain ⟨byte, tail, shape, minus | digit⟩ := number_head number
    · exact ⟨byte, tail, shape, by rw [minus]; rfl, by rw [minus]; decide⟩
    · have value := (isDigit_iff byte).mp digit
      refine ⟨byte, tail, shape, ?_, ?_⟩
      · by_contra blank
        rw [Bool.not_eq_false] at blank
        rcases blank_of_isWhitespace blank with
          rfl | rfl | rfl | rfl <;> exact absurd value (by decide)
      · intro same
        rw [same] at value
        exact absurd value (by decide)
  | null => exact ⟨_, _, rfl, rfl, by decide⟩
  | true => exact ⟨_, _, rfl, rfl, by decide⟩
  | false => exact ⟨_, _, rfl, rfl, by decide⟩
  | string characters => exact ⟨0x22, _, rfl, rfl, by decide⟩
  | emptyArray isBlank => exact ⟨0x5B, _, rfl, rfl, by decide⟩
  | array spelled => exact ⟨0x5B, _, rfl, rfl, by decide⟩
  | emptyObject isBlank => exact ⟨0x7B, _, rfl, rfl, by decide⟩
  | object spelled => exact ⟨0x7B, _, rfl, rfl, by decide⟩

theorem skipWhitespace_value (spelled : Spells (.value value) text) (rest : List UInt8) :
    skipWhitespace (encode text ++ rest) = encode text ++ rest := by
  obtain ⟨byte, tail, shape, token, -⟩ := value_head spelled
  apply AtToken.skipWhitespace
  intro head same
  rw [shape] at same
  rw [← Option.some.inj same]
  exact token

/-- Items do not start with the closing bracket of an empty array. -/
theorem items_head (spelled : Spells (.items items) text) (rest tail : List UInt8) :
    skipWhitespace (encode text ++ rest) ≠ 0x5D :: tail := by
  have head {item : WireJson} {before body : List Char} (isBefore : Blank before)
      (isItem : Spells (.value item) body) (after : List UInt8) :
      skipWhitespace (encode before ++ (encode body ++ after)) ≠ 0x5D :: tail := by
    rw [skipWhitespace_encode isBefore, skipWhitespace_value isItem]
    obtain ⟨byte, others, shape, -, notClose⟩ := value_head isItem
    rw [shape]
    exact fun same => notClose (List.cons.inj same).1
  cases spelled with
  | lastItem isBefore isItem isAfter =>
    simp only [encode_append, List.append_assoc]
    exact head isBefore isItem _
  | item isBefore isItem isAfter others =>
    simp only [encode_append, List.append_assoc]
    exact head isBefore isItem _

/-- Members do not start with the closing brace of an empty object. -/
theorem members_head (spelled : Spells (.members members) text) (rest tail : List UInt8) :
    skipWhitespace (encode text ++ rest) ≠ 0x7D :: tail := by
  have head {before : List Char} (isBefore : Blank before) (after : List UInt8) :
      skipWhitespace (encode before ++ (0x22 :: after)) ≠ 0x7D :: tail := by
    rw [skipWhitespace_encode isBefore]
    exact fun same => absurd (List.cons.inj same).1 (by decide)
  cases spelled with
  | lastMember isBefore isName isMiddle isInner isValue isAfter =>
    simp only [encode_append, List.append_assoc]
    exact head isBefore _
  | member isBefore isName isMiddle isInner isValue isAfter others =>
    simp only [encode_append, List.append_assoc]
    exact head isBefore _

/-- A text is read as the phrase it spells, given fuel for its bytes and depth
for its nesting. A value is read where what follows cannot extend a number. -/
def Reads (maxDepth : Nat) : Phrase → List Char → Prop
  | .value value, text => ∀ fuel depth rest, (encode text).length < fuel →
      value.nesting ≤ maxDepth + 1 - depth → AfterNumber rest →
      parseValue maxDepth fuel depth (encode text ++ rest) = .ok (value, rest)
  | .items items, text => ∀ fuel depth before rest, (encode text).length + 1 < fuel →
      WireJson.nestingItems items ≤ maxDepth - depth →
      parseItems maxDepth fuel depth before (encode text ++ 0x5D :: rest) =
        .ok (.array (before ++ items), rest)
  | .members members, text => ∀ fuel depth before rest, (encode text).length + 1 < fuel →
      WireJson.nestingMembers members ≤ maxDepth - depth →
      parseMembers maxDepth fuel depth before (encode text ++ 0x7D :: rest) =
        .ok (.object (before ++ members), rest)

/-- Nothing that may stand after a value inside an array or an object extends a
number. -/
theorem afterNumber_blank (isBlank : Blank blank) (after : AfterNumber rest) :
    AfterNumber (encode blank ++ rest) := by
  cases blank with
  | nil => exact after
  | cons c blank =>
    intro byte head
    rcases isBlank c List.mem_cons_self with rfl | rfl | rfl | rfl
    all_goals
      obtain rfl := Option.some.inj head
      decide

theorem afterNumber_cons {byte : UInt8} (rest : List UInt8)
    (apart : isDigit byte = false ∧ byte ≠ 0x2E ∧ byte ≠ 0x65 ∧ byte ≠ 0x45) :
    AfterNumber (byte :: rest) := by
  intro other head
  rw [← Option.some.inj head]
  exact apart

/-- An opening bracket starts an array that is empty or has items. -/
theorem parseValue_emptyArray (shallow : depth ≤ maxDepth) (fuel : Nat)
    (close : skipWhitespace inside = 0x5D :: rest) :
    parseValue maxDepth (fuel + 1) depth (0x5B :: inside) = .ok (.array [], rest) := by
  rw [parseValue]
  show (if maxDepth < depth then _ else _) = _
  rw [if_neg (Nat.not_lt.mpr shallow), close]
  rfl

theorem parseValue_items (shallow : depth ≤ maxDepth) (fuel : Nat)
    (some : ∀ tail, skipWhitespace inside ≠ 0x5D :: tail) :
    parseValue maxDepth (fuel + 1) depth (0x5B :: inside) =
      parseItems maxDepth fuel depth [] inside := by
  rw [parseValue, ← parseItems_skipWhitespace]
  show (if maxDepth < depth then _ else _) = _
  rw [if_neg (Nat.not_lt.mpr shallow)]
  split
  · next tail close => exact absurd close (some tail)
  · rfl

/-- An opening brace starts an object that is empty or has members. -/
theorem parseValue_emptyObject (shallow : depth ≤ maxDepth) (fuel : Nat)
    (close : skipWhitespace inside = 0x7D :: rest) :
    parseValue maxDepth (fuel + 1) depth (0x7B :: inside) = .ok (.object [], rest) := by
  rw [parseValue]
  show (if maxDepth < depth then _ else _) = _
  rw [if_neg (Nat.not_lt.mpr shallow), close]
  rfl

theorem parseValue_members (shallow : depth ≤ maxDepth) (fuel : Nat)
    (some : ∀ tail, skipWhitespace inside ≠ 0x7D :: tail) :
    parseValue maxDepth (fuel + 1) depth (0x7B :: inside) =
      parseMembers maxDepth fuel depth [] inside := by
  rw [parseValue, ← parseMembers_skipWhitespace]
  show (if maxDepth < depth then _ else _) = _
  rw [if_neg (Nat.not_lt.mpr shallow)]
  split
  · next tail close => exact absurd close (some tail)
  · rfl

/-- One item of an array, once its value is known. -/
theorem parseItems_succ {afterItem : List UInt8} {item : WireJson}
    (parsed : parseValue maxDepth fuel (depth + 1) input = .ok (item, afterItem)) :
    parseItems maxDepth (fuel + 1) depth items input =
      match skipWhitespace afterItem with
      | 0x2C :: rest => parseItems maxDepth fuel depth (items ++ [item]) rest
      | 0x5D :: rest => .ok (.array (items ++ [item]), rest)
      | rest => unexpected WireJson rest := by
  rw [parseItems, parsed]
  rfl

/-- One member of an object, once its key and its value are known. -/
theorem parseMembers_succ {named afterKey afterValue : List UInt8} {key : JsString}
    (quote : skipWhitespace input = 0x22 :: named)
    (parsedKey : parseString (named.length + 1) [] named = .ok (key, afterKey))
    (colon : skipWhitespace afterKey = 0x3A :: inside)
    (parsed : parseValue maxDepth fuel (depth + 1) inside = .ok (value, afterValue)) :
    parseMembers maxDepth (fuel + 1) depth members input =
      match skipWhitespace afterValue with
      | 0x2C :: rest => parseMembers maxDepth fuel depth (members ++ [(key, value)]) rest
      | 0x7D :: rest => .ok (.object (members ++ [(key, value)]), rest)
      | rest => unexpected WireJson rest := by
  rw [parseMembers, quote]
  show (parseString (named.length + 1) [] named >>= _) = _
  rw [parsedKey]
  simp only [bind, Except.bind]
  rw [colon]
  show (parseValue maxDepth fuel (depth + 1) inside).bind _ = _
  rw [parsed]
  rfl

/-- A text is read as a value whatever follows it. -/
def ReadsBefore (maxDepth : Nat) (value : WireJson) (text : List Char) : Prop :=
  ∀ fuel depth rest, (encode text).length < fuel → value.nesting ≤ maxDepth + 1 - depth →
    parseValue maxDepth fuel depth (encode text ++ rest) = .ok (value, rest)

theorem readsBefore_emptyObject (isBlank : Blank blank) :
    ReadsBefore maxDepth (.object []) ('\x7b' :: blank ++ ['\x7d']) := by
  intro fuel depth rest enough nested
  obtain ⟨fuel, rfl⟩ := Nat.exists_eq_add_one_of_ne_zero (Nat.ne_zero_of_lt enough)
  have shape : encode ('\x7b' :: blank ++ ['\x7d']) ++ rest =
      0x7B :: (encode blank ++ 0x7D :: rest) := by
    simp only [encode_cons, encode_append, List.append_assoc]
    rfl
  have shallow : depth ≤ maxDepth := by
    have : 0 + 1 ≤ maxDepth + 1 - depth := nested
    omega
  rw [shape, parseValue_emptyObject shallow fuel
    (skipWhitespace_encode_cons isBlank (by decide) rest)]

theorem readsBefore_object {member : JsString × WireJson}
    (spelled : Spells (.members (member :: members)) text)
    (reads : Reads maxDepth (.members (member :: members)) text) :
    ReadsBefore maxDepth (.object (member :: members)) ('\x7b' :: text ++ ['\x7d']) := by
  intro fuel depth rest enough nested
  obtain ⟨fuel, rfl⟩ := Nat.exists_eq_add_one_of_ne_zero (Nat.ne_zero_of_lt enough)
  have shape : encode ('\x7b' :: text ++ ['\x7d']) ++ rest =
      0x7B :: (encode text ++ 0x7D :: rest) := by
    simp only [encode_cons, encode_append, List.append_assoc]
    rfl
  have inner : WireJson.nestingMembers (member :: members) + 1 ≤ maxDepth + 1 - depth := nested
  have length := congrArg List.length shape
  rw [List.length_append, List.length_cons, List.length_append, List.length_cons] at length
  rw [shape, parseValue_members (by omega) fuel (members_head spelled _)]
  exact reads fuel depth [] rest (by omega) (by omega)

theorem afterNumber_nil : AfterNumber [] := fun _ head => by cases head

theorem reads {phrase : Phrase} (spelled : Spells phrase text) : Reads maxDepth phrase text := by
  induction spelled with
  | null =>
    intro fuel depth rest enough nested after
    obtain ⟨fuel, rfl⟩ := Nat.exists_eq_add_one_of_ne_zero (Nat.ne_zero_of_lt enough)
    rfl
  | true =>
    intro fuel depth rest enough nested after
    obtain ⟨fuel, rfl⟩ := Nat.exists_eq_add_one_of_ne_zero (Nat.ne_zero_of_lt enough)
    rfl
  | false =>
    intro fuel depth rest enough nested after
    obtain ⟨fuel, rfl⟩ := Nat.exists_eq_add_one_of_ne_zero (Nat.ne_zero_of_lt enough)
    rfl
  | number number =>
    intro fuel depth rest enough nested after
    obtain ⟨fuel, rfl⟩ := Nat.exists_eq_add_one_of_ne_zero (Nat.ne_zero_of_lt enough)
    have reads := parseNumber_encode number after
    rw [parseValue, skipWhitespace_value (.number number)]
    obtain ⟨byte, tail, shape, lead⟩ := number_head number
    rw [shape, List.cons_append] at reads ⊢
    have isNumber : (byte = 0x2D || isDigit byte) = true := by simpa using lead
    have apart (other : UInt8) (notMinus : other ≠ 0x2D) (notDigit : isDigit other = false) :
        byte ≠ other := by
      rintro rfl
      rcases lead with minus | digit
      · exact notMinus minus
      · rw [notDigit] at digit
        cases digit
    dsimp only
    rw [if_neg (apart 0x7B (by decide) rfl), if_neg (apart 0x5B (by decide) rfl),
      if_neg (apart 0x22 (by decide) rfl), if_neg (apart 0x74 (by decide) rfl),
      if_neg (apart 0x66 (by decide) rfl), if_neg (apart 0x6E (by decide) rfl), if_pos isNumber]
    exact reads
  | string characters =>
    intro fuel depth rest enough nested after
    rename_i text value
    obtain ⟨fuel, rfl⟩ := Nat.exists_eq_add_one_of_ne_zero (Nat.ne_zero_of_lt enough)
    have shape : encode ('"' :: text ++ ['"']) ++ rest = 0x22 :: (encode text ++ 0x22 :: rest) := by
      simp only [encode_cons, encode_append, List.append_assoc]
      rfl
    rw [shape]
    show (parseString _ [] _ >>= _) = _
    rw [parseString_named characters rest]
    rfl
  | emptyArray isBlank =>
    intro fuel depth rest enough nested after
    rename_i blank
    obtain ⟨fuel, rfl⟩ := Nat.exists_eq_add_one_of_ne_zero (Nat.ne_zero_of_lt enough)
    have shape : encode ('[' :: blank ++ [']']) ++ rest =
        0x5B :: (encode blank ++ 0x5D :: rest) := by
      simp only [encode_cons, encode_append, List.append_assoc]
      rfl
    have shallow : depth ≤ maxDepth := by
      have : 0 + 1 ≤ maxDepth + 1 - depth := nested
      omega
    rw [shape, parseValue_emptyArray shallow fuel
      (skipWhitespace_encode_cons isBlank (by decide) rest)]
  | array spelled ih =>
    intro fuel depth rest enough nested after
    rename_i item items text
    obtain ⟨fuel, rfl⟩ := Nat.exists_eq_add_one_of_ne_zero (Nat.ne_zero_of_lt enough)
    have shape : encode ('[' :: text ++ [']']) ++ rest = 0x5B :: (encode text ++ 0x5D :: rest) := by
      simp only [encode_cons, encode_append, List.append_assoc]
      rfl
    have inner : WireJson.nestingItems (item :: items) + 1 ≤ maxDepth + 1 - depth := nested
    have length := congrArg List.length shape
    rw [List.length_append, List.length_cons, List.length_append, List.length_cons] at length
    rw [shape, parseValue_items (by omega) fuel (items_head spelled _)]
    exact ih fuel depth [] rest (by omega) (by omega)
  | emptyObject isBlank =>
    intro fuel depth rest enough nested _
    exact readsBefore_emptyObject isBlank fuel depth rest enough nested
  | object spelled ih =>
    intro fuel depth rest enough nested _
    exact readsBefore_object spelled ih fuel depth rest enough nested
  | lastItem isBefore spelled isAfter ih =>
    intro fuel depth items rest enough nested
    rename_i item before text after
    obtain ⟨fuel, rfl⟩ := Nat.exists_eq_add_one_of_ne_zero (Nat.ne_zero_of_lt enough)
    have fits : item.nesting ≤ maxDepth - depth := (Nat.max_le.mp nested).1
    rw [encode_append, encode_append, List.length_append, List.length_append] at enough
    have close : AfterNumber (encode after ++ 0x5D :: rest) :=
      afterNumber_blank isAfter (afterNumber_cons _ (by decide))
    have parsed := ih fuel (depth + 1) (encode after ++ 0x5D :: rest) (by omega) (by omega) close
    rw [encode_append, encode_append, List.append_assoc, List.append_assoc,
      ← parseItems_skipWhitespace, skipWhitespace_encode isBefore, skipWhitespace_value spelled,
      parseItems_succ parsed, skipWhitespace_encode isAfter]
    rfl
  | item isBefore spelled isAfter others ih ihOthers =>
    intro fuel depth done rest enough nested
    rename_i item next items before text after following
    obtain ⟨fuel, rfl⟩ := Nat.exists_eq_add_one_of_ne_zero (Nat.ne_zero_of_lt enough)
    obtain ⟨fits, fitOthers⟩ := Nat.max_le.mp nested
    have comma : encode (',' :: following) = 0x2C :: encode following := rfl
    rw [encode_append, encode_append, encode_append, comma, List.length_append, List.length_append,
      List.length_append, List.length_cons] at enough
    have separator : AfterNumber (encode after ++ 0x2C :: (encode following ++ 0x5D :: rest)) :=
      afterNumber_blank isAfter (afterNumber_cons _ (by decide))
    have parsed := ih fuel (depth + 1) _ (by omega) (by omega) separator
    rw [encode_append, encode_append, encode_append, comma, List.append_assoc, List.append_assoc,
      List.append_assoc, List.cons_append, ← parseItems_skipWhitespace,
      skipWhitespace_encode isBefore, skipWhitespace_value spelled, parseItems_succ parsed,
      skipWhitespace_encode isAfter]
    show parseItems maxDepth fuel depth (done ++ [item]) _ = _
    rw [ihOthers fuel depth (done ++ [item]) rest (by omega) fitOthers, List.append_assoc]
    rfl
  | lastMember isBefore isName isMiddle isInner spelled isAfter ih =>
    intro fuel depth members rest enough nested
    rename_i key value before name middle inner text after
    obtain ⟨fuel, rfl⟩ := Nat.exists_eq_add_one_of_ne_zero (Nat.ne_zero_of_lt enough)
    have fits : value.nesting ≤ maxDepth - depth := (Nat.max_le.mp nested).1
    have shape : encode (before ++ ('"' :: name ++ ['"']) ++ middle ++
          ':' :: (inner ++ text ++ after)) ++ 0x7D :: rest =
        encode before ++ 0x22 :: (encode name ++ 0x22 :: (encode middle ++
          0x3A :: (encode inner ++ (encode text ++ (encode after ++ 0x7D :: rest))))) := by
      simp only [encode_cons, encode_append, List.append_assoc]
      rfl
    have length := congrArg List.length shape
    simp only [List.length_append, List.length_cons] at length
    have close : AfterNumber (encode after ++ 0x7D :: rest) :=
      afterNumber_blank isAfter (afterNumber_cons _ (by decide))
    have parsed := ih fuel (depth + 1) _ (by omega) (by omega) close
    rw [← parseValue_skipWhitespace, ← skipWhitespace_encode isInner,
      parseValue_skipWhitespace] at parsed
    rw [shape, parseMembers_succ (skipWhitespace_encode_cons isBefore (by decide) _)
      (parseString_named isName _) (skipWhitespace_encode_cons isMiddle (by decide) _) parsed,
      skipWhitespace_encode isAfter]
    rfl
  | member isBefore isName isMiddle isInner spelled isAfter others ih ihOthers =>
    intro fuel depth done rest enough nested
    rename_i key value next members before name middle inner text after following
    obtain ⟨fuel, rfl⟩ := Nat.exists_eq_add_one_of_ne_zero (Nat.ne_zero_of_lt enough)
    obtain ⟨fits, fitOthers⟩ := Nat.max_le.mp nested
    have shape : encode (before ++ ('"' :: name ++ ['"']) ++ middle ++
          ':' :: (inner ++ text ++ after ++ ',' :: following)) ++ 0x7D :: rest =
        encode before ++ 0x22 :: (encode name ++ 0x22 :: (encode middle ++
          0x3A :: (encode inner ++ (encode text ++
            (encode after ++ 0x2C :: (encode following ++ 0x7D :: rest)))))) := by
      simp only [encode_cons, encode_append, List.append_assoc]
      rfl
    have length := congrArg List.length shape
    simp only [List.length_append, List.length_cons] at length
    have separator : AfterNumber (encode after ++ 0x2C :: (encode following ++ 0x7D :: rest)) :=
      afterNumber_blank isAfter (afterNumber_cons _ (by decide))
    have parsed := ih fuel (depth + 1) _ (by omega) (by omega) separator
    rw [← parseValue_skipWhitespace, ← skipWhitespace_encode isInner,
      parseValue_skipWhitespace] at parsed
    rw [shape, parseMembers_succ (skipWhitespace_encode_cons isBefore (by decide) _)
      (parseString_named isName _) (skipWhitespace_encode_cons isMiddle (by decide) _) parsed,
      skipWhitespace_encode isAfter]
    show parseMembers maxDepth fuel depth (done ++ [(key, value)]) _ = _
    rw [ihOthers fuel depth (done ++ [(key, value)]) rest (by omega) fitOthers, List.append_assoc]
    rfl

/-- What follows an object cannot extend it. -/
theorem readsBefore (spelled : Spells (.value (.object members)) text) :
    ReadsBefore maxDepth (.object members) text := by
  cases spelled with
  | emptyObject isBlank => exact readsBefore_emptyObject isBlank
  | object spelled => exact readsBefore_object spelled (reads spelled)

theorem parseDocument_iff {bytes : List UInt8} :
    parseDocument maxDepth bytes = .ok value ↔
      ∃ text, bytes = encode text ∧ Text text value ∧ value.nesting ≤ maxDepth := by
  constructor
  · intro accepted
    obtain ⟨⟨parsedValue, rest⟩, parsed, returned⟩ := bind_eq_ok.mp accepted
    obtain ⟨before, body, isBefore, spelled, nested, rfl⟩ :=
      (parse_sound maxDepth _).1 1 _ _ _ parsed
    obtain ⟨after, isAfter, afterBlank⟩ := skipWhitespace_sound rest
    dsimp only at returned
    split at returned
    · next ends =>
      cases returned
      refine ⟨before ++ body ++ after, ?_, ⟨before, body, after, isBefore, spelled, isAfter, rfl⟩,
        nested⟩
      rw [afterBlank, ends, List.append_nil, ← encode_append]
    · obtain ⟨_, failed, -⟩ := bind_eq_ok.mp returned
      exact absurd failed unexpected_ne_ok
  · rintro ⟨_, rfl, ⟨before, body, after, isBefore, spelled, isAfter, rfl⟩, nested⟩
    have ends : skipWhitespace (encode after) = [] := by
      have := skipWhitespace_encode isAfter []
      rwa [List.append_nil] at this
    have follows : AfterNumber (encode after) := by
      have := afterNumber_blank isAfter afterNumber_nil
      rwa [List.append_nil] at this
    have enough : (encode body).length < (encode (before ++ body ++ after)).length + 1 := by
      rw [encode_append, encode_append, List.length_append, List.length_append]
      omega
    have parsed : parseValue maxDepth ((encode (before ++ body ++ after)).length + 1) 1
        (encode body ++ encode after) = .ok (value, encode after) :=
      reads spelled _ 1 (encode after) enough nested follows
    rw [← parseValue_skipWhitespace, ← skipWhitespace_encode isBefore, parseValue_skipWhitespace,
      ← List.append_assoc, ← encode_append, ← encode_append] at parsed
    rw [parseDocument, parsed]
    simp only [bind, Except.bind]
    rw [ends]

/-- A value whose text starts with a brace is an object. -/
theorem object_of_head {tail : List UInt8} (spelled : Spells (.value value) text)
    (shape : encode text = 0x7B :: tail) : ∃ members, value = .object members := by
  cases spelled with
  | null => exact absurd (List.cons.inj shape).1 (by decide)
  | true => exact absurd (List.cons.inj shape).1 (by decide)
  | false => exact absurd (List.cons.inj shape).1 (by decide)
  | number number =>
    obtain ⟨byte, rest, numberShape, lead⟩ := number_head number
    rw [numberShape] at shape
    rw [(List.cons.inj shape).1] at lead
    rcases lead with minus | digit
    · exact absurd minus (by decide)
    · exact absurd digit (by decide)
  | string characters => exact absurd (List.cons.inj shape).1 (by decide)
  | emptyArray isBlank => exact absurd (List.cons.inj shape).1 (by decide)
  | array spelled => exact absurd (List.cons.inj shape).1 (by decide)
  | emptyObject isBlank => exact ⟨_, rfl⟩
  | object spelled => exact ⟨_, rfl⟩

/-- The text of an object that has been cut off is no text. -/
theorem not_text_of_cut (spelled : Spells (.value (.object members)) text) {kept cut : List UInt8}
    (shape : kept ++ cut = encode text) (isCut : cut ≠ []) :
    ¬ ∃ other value, kept = encode other ∧ Text other value := by
  rintro ⟨_, value, rfl, before, body, after, isBefore, spelledBody, _, rfl⟩
  obtain ⟨tail, brace⟩ : ∃ tail, encode text = 0x7B :: tail := by
    cases spelled with
    | emptyObject => exact ⟨_, rfl⟩
    | object => exact ⟨_, rfl⟩
  obtain ⟨byte, inside, bodyShape, token, _⟩ := value_head spelledBody
  -- blanks before the value would come before the brace
  have noBlank : before = [] := by
    cases before with
    | nil => rfl
    | cons blank others =>
      have skipped : skipWhitespace (encode text) = encode text := by
        rw [brace]
        rfl
      rw [← shape, encode_append, encode_append, List.append_assoc, List.append_assoc,
        skipWhitespace_encode isBefore, skipWhitespace_value spelledBody] at skipped
      have length := congrArg List.length skipped
      simp only [List.length_append, encode_cons] at length
      have positive : 0 < (String.utf8EncodeChar blank).length := by
        rw [String.length_utf8EncodeChar]
        exact Char.utf8Size_pos blank
      omega
  subst noBlank
  have starts : encode body ++ (encode after ++ cut) = encode text := by
    rw [← shape, List.nil_append, encode_append, List.append_assoc]
  have isObject : encode body = 0x7B :: inside := by
    rw [bodyShape, brace, List.cons_append] at starts
    rw [bodyShape, (List.cons.inj starts).1]
  obtain ⟨others, rfl⟩ := object_of_head spelledBody isObject
  -- the parser reads both texts off the same bytes
  let depth := max (WireJson.object members).nesting (WireJson.object others).nesting
  have whole : ReadsBefore depth (.object members) text := readsBefore spelled
  have inner : ReadsBefore depth (.object others) body := readsBefore spelledBody
  have shorter : (encode body).length < (encode text).length + 1 := by
    rw [← starts, List.length_append]
    omega
  have one := whole ((encode text).length + 1) 1 [] (Nat.lt_succ_self _) (Nat.le_max_left _ _)
  have other := inner ((encode text).length + 1) 1 (encode after ++ cut) shorter
    (Nat.le_max_right _ _)
  rw [List.append_nil] at one
  rw [starts, one] at other
  have rest := congrArg Prod.snd (Except.ok.inj other)
  exact isCut (List.append_eq_nil_iff.mp rest.symm).2

end Parser

open JsonGrammar

/-- The parser accepts a byte sequence exactly if it is within the limit and is
the encoding of one JSON text nested no deeper than the depth limit, and it then
returns the value of that text. -/
theorem parseWireJson_eq_ok_iff (bytes : List UInt8) (limits : WireJsonParseLimits)
    (value : WireJson) :
    parseWireJson bytes limits = .ok value ↔
      bytes.length ≤ limits.maxBytes ∧
        ∃ text, bytes = encode text ∧ Text text value ∧ value.nesting ≤ limits.maxDepth := by
  rw [parseWireJson]
  by_cases large : limits.maxBytes < bytes.length
  · rw [if_pos large]
    constructor
    · intro failed
      cases failed
    · rintro ⟨small, -⟩
      exact absurd large (Nat.not_lt.mpr small)
  · rw [if_neg large, Parser.parseDocument_iff]
    exact (and_iff_right (Nat.le_of_not_lt large)).symm

end GhcGateway
