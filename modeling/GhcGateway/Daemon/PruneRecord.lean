/-
# Prune records

A prune record is one line of JSON: the name of a log file, the name it has in
quarantine, and what was observed of it. A record that was only begun is no JSON text, so
it is told from every other one by the error of the parser.
-/

import GhcGateway.Daemon.LogDirectory
import GhcGateway.Serialization.JsonSerializer

namespace GhcGateway.Daemon

open Library JsonGrammar

variable {ν : Type} [LinearOrder ν] [JsNumbers ν]
  {members : List (JsString × WireJson × Nat)} {text name : JsString} {channel : LogChannel}
  {unit : UInt16} {limit : Nat}

/-- `PruneState`. Its version is 1. -/
structure PruneState (ν : Type) where
  originalName : JsString
  candidateName : JsString
  observation : FileObservation ν

variable {state : PruneState ν}

def jsonNumber (number : ν) : WireJson := .number (lexemeOf (JsNumbers.text number))

def FileObservation.toJson (observation : FileObservation ν) : WireJson :=
  .object [(js "dev", jsonNumber observation.dev), (js "ino", jsonNumber observation.ino),
    (js "ctimeMs", jsonNumber observation.ctimeMs), (js "mtimeMs", jsonNumber observation.mtimeMs),
    (js "size", jsonNumber observation.size), (js "nlink", jsonNumber observation.nlink)]

def PruneState.toJson (state : PruneState ν) : WireJson :=
  .object [(js "version", jsonNumber (JsNumbers.ofNat 1 : ν)),
    (js "originalName", .string state.originalName),
    (js "candidateName", .string state.candidateName),
    (js "observation", state.observation.toJson)]

/-- `JSON.stringify`. It does not fail on a value whose lexemes are numbers. -/
def stringify (value : WireJson) : List UInt8 :=
  match serializeWireJson value with
  | .ok bytes => bytes
  | .error _ => []

def encodePruneState (state : PruneState ν) : List UInt8 := stringify state.toJson ++ [0x0A]

/-! ## Reading -/

def property (object : WireJsonObject) (key : String) : Option WireJson :=
  (memberValues object (js key)).getLast?

def numberProperty (object : WireJsonObject) (key : String) : Option ν :=
  match property object key with
  | some (.number lexeme) => JsNumbers.read lexeme
  | _ => none

def stringProperty (object : WireJsonObject) (key : String) : Option JsString :=
  match property object key with
  | some (.string value) => some value
  | _ => none

/-- `isFileObservation`, with what it makes of the value. -/
def fileObservation (value : WireJson) : Option (FileObservation ν) :=
  match value with
  | .object members => do
    let dev ← numberProperty members "dev"
    let ino ← numberProperty members "ino"
    let ctimeMs ← numberProperty members "ctimeMs"
    let mtimeMs ← numberProperty members "mtimeMs"
    let size ← numberProperty members "size"
    let nlink ← numberProperty members "nlink"
    some ⟨dev, ino, ctimeMs, mtimeMs, size, nlink⟩
  | _ => none

/-- The checks of `parsePruneState`. -/
def pruneStateOf (parsed : WireJson) : Option (PruneState ν) :=
  match parsed with
  | .object members => do
    let version ← (numberProperty members "version" : Option ν)
    let originalName ← stringProperty members "originalName"
    let candidateName ← stringProperty members "candidateName"
    let observation ← (property members "observation").bind fileObservation
    if version = JsNumbers.ofNat 1 then some ⟨originalName, candidateName, observation⟩ else none
  | _ => none

/-- `parsePruneState`. A text nests no deeper than it is long, so nothing is too deep. -/
def parsePruneState (bytes : List UInt8) : Except LogError (PruneState ν) :=
  match Parser.parseDocument bytes.length bytes with
  | .error _ => .error .syntaxError
  | .ok parsed =>
    match pruneStateOf parsed with
    | none => .error (.message "invalid log prune state")
    | some state => .ok state

def parsePruneStateIfComplete (bytes : List UInt8) : Except LogError (Option (PruneState ν)) :=
  match parsePruneState bytes with
  | .ok state => .ok (some state)
  | .error .syntaxError => .ok none
  | .error error => .error error

/-! ## What is written is read -/

theorem wellFormed_jsonNumber (number : ν) : (jsonNumber number).WellFormed :=
  ⟨JsNumbers.text number, JsNumbers.number_text number, rfl⟩

theorem FileObservation.wellFormed_toJson (observation : FileObservation ν) :
    observation.toJson.WellFormed :=
  ⟨wellFormed_jsonNumber _, wellFormed_jsonNumber _, wellFormed_jsonNumber _,
    wellFormed_jsonNumber _, wellFormed_jsonNumber _, wellFormed_jsonNumber _, trivial⟩

theorem PruneState.wellFormed_toJson (state : PruneState ν) : state.toJson.WellFormed :=
  ⟨wellFormed_jsonNumber _, trivial, trivial, state.observation.wellFormed_toJson, trivial⟩

theorem exists_text (state : PruneState ν) :
    ∃ text, stringify state.toJson = encode text ∧ Spells (.value state.toJson) text := by
  obtain ⟨text, written, spelled⟩ := writeValue_spec state.toJson state.wellFormed_toJson
  refine ⟨text, ?_, spelled⟩
  unfold stringify serializeWireJson
  rw [written]

theorem numberProperty_eq {members : WireJsonObject} {key : String} (number : ν)
    (found : property members key = some (jsonNumber number)) :
    numberProperty members key = some number := by
  unfold numberProperty
  rw [found]
  exact JsNumbers.read_text number

theorem fileObservation_toJson (observation : FileObservation ν) :
    fileObservation observation.toJson = some observation := by
  unfold FileObservation.toJson fileObservation
  dsimp only
  rw [numberProperty_eq observation.dev rfl, numberProperty_eq observation.ino rfl,
    numberProperty_eq observation.ctimeMs rfl, numberProperty_eq observation.mtimeMs rfl,
    numberProperty_eq observation.size rfl, numberProperty_eq observation.nlink rfl]
  rfl

theorem pruneStateOf_toJson (state : PruneState ν) : pruneStateOf state.toJson = some state := by
  have observed : (property [(js "version", jsonNumber (JsNumbers.ofNat 1 : ν)),
      (js "originalName", .string state.originalName),
      (js "candidateName", .string state.candidateName),
      (js "observation", state.observation.toJson)] "observation").bind fileObservation =
        some state.observation := fileObservation_toJson state.observation
  unfold PruneState.toJson pruneStateOf
  dsimp only
  rw [numberProperty_eq (JsNumbers.ofNat 1 : ν) rfl, observed]
  show (if (JsNumbers.ofNat 1 : ν) = JsNumbers.ofNat 1 then _ else _) = _
  rw [if_pos rfl]

theorem two_le_length_object {members : WireJsonObject} {text : List Char}
    (spelled : Spells (.value (.object members)) text) : 2 ≤ (encode text).length := by
  have braces (inside : List Char) :
      2 ≤ (encode ('\x7b' :: inside ++ ['\x7d'])).length := by
    have shape : encode ('\x7b' :: inside ++ ['\x7d']) = 0x7B :: (encode inside ++ [0x7D]) := by
      rw [encode_append]
      rfl
    rw [shape, List.length_cons, List.length_append]
    exact Nat.succ_le_succ (Nat.le_add_left 1 _)
  cases spelled with
  | emptyObject => exact braces _
  | object => exact braces _

/-- A prune state is parsed, with the line feed and without it. -/
theorem parsePruneState_text {bytes : List UInt8}
    (isText : bytes = stringify state.toJson ∨ bytes = encodePruneState state) :
    parsePruneState bytes = .ok state := by
  obtain ⟨text, written, spelled⟩ := exists_text state
  have deep : 2 ≤ (encode text).length := two_le_length_object spelled
  have parsed : Parser.parseDocument bytes.length bytes = .ok state.toJson := by
    rw [Parser.parseDocument_iff]
    rcases isText with rfl | rfl
    · rw [written]
      refine ⟨text, rfl, ⟨[], text, [], Parser.blank_nil, spelled, Parser.blank_nil, ?_⟩, deep⟩
      rw [List.nil_append, List.append_nil]
    · unfold encodePruneState
      rw [written]
      refine ⟨text ++ ['\n'], ?_, ⟨[], text, ['\n'], Parser.blank_nil, spelled, ?_, ?_⟩, ?_⟩
      · rw [encode_append]
        rfl
      · intro c member
        rw [List.mem_singleton.mp member]
        exact .inr (.inr (.inl rfl))
      · rw [List.nil_append]
      · rw [List.length_append]
        exact Nat.le_add_right_of_le deep
  unfold parsePruneState
  rw [parsed]
  dsimp only
  rw [pruneStateOf_toJson]

/-- What has been written of a prune state when the writing stops is either no text, or
the whole. -/
theorem parsePruneStateIfComplete_cut {kept cut : List UInt8}
    (shape : kept ++ cut = encodePruneState state) :
    parsePruneStateIfComplete kept = .ok (none : Option (PruneState ν)) ∨
      parsePruneStateIfComplete kept = .ok (some state) := by
  obtain ⟨text, written, spelled⟩ := exists_text state
  unfold parsePruneStateIfComplete
  by_cases whole : kept = stringify state.toJson ∨ kept = encodePruneState state
  · rw [parsePruneState_text whole]
    exact .inr rfl
  · left
    have notText : ¬ ∃ other value, kept = encode other ∧ Text other value := by
      have rest : ∃ rest, kept ++ rest = encode text ∧ rest ≠ [] := by
        rcases List.eq_nil_or_concat cut with rfl | ⟨rest, last, rfl⟩
        · rw [List.append_nil] at shape
          exact absurd (.inr shape) whole
        · unfold encodePruneState at shape
          rw [List.concat_eq_append, ← List.append_assoc] at shape
          have same := (List.append_inj' shape rfl).1
          refine ⟨rest, same.trans written, ?_⟩
          rintro rfl
          rw [List.append_nil] at same
          exact whole (.inl same)
      obtain ⟨rest, shape, isCut⟩ := rest
      exact Parser.not_text_of_cut spelled shape isCut
    have failed : parsePruneState kept =
        (.error .syntaxError : Except LogError (PruneState ν)) := by
      unfold parsePruneState
      cases parsed : Parser.parseDocument kept.length kept with
      | error => rfl
      | ok value =>
        obtain ⟨other, same, isText, _⟩ := Parser.parseDocument_iff.mp parsed
        exact absurd ⟨other, value, same, isText⟩ notText
    rw [failed]

/-! ## How long a record is -/

/-- Printable ASCII characters that JSON does not escape. -/
def Plain (text : JsString) : Prop :=
  ∀ unit ∈ text, 0x20 ≤ unit.toNat ∧ unit.toNat < 0x7F ∧ unit ≠ 0x22 ∧ unit ≠ 0x5C

instance (text : JsString) : Decidable (Plain text) :=
  List.decidableBAll (fun unit : UInt16 =>
    0x20 ≤ unit.toNat ∧ unit.toNat < 0x7F ∧ unit ≠ 0x22 ∧ unit ≠ 0x5C) text

theorem Plain.append {first second : JsString} (plain : Plain first) (plainSecond : Plain second) :
    Plain (first ++ second) := by
  intro unit member
  rcases List.mem_append.mp member with early | late
  · exact plain unit early
  · exact plainSecond unit late

/-- Units between the hyphen and the letters. -/
theorem plain_of_bounds
    (bounds : ∀ unit ∈ text, 0x2D ≤ unit.toNat ∧ unit.toNat < 0x7F ∧ unit.toNat ≠ 0x5C) :
    Plain text := by
  intro unit member
  obtain ⟨low, high, notBackslash⟩ := bounds unit member
  refine ⟨by omega, high, ?_, ?_⟩
  · rintro rfl
    exact absurd low (by decide)
  · rintro rfl
    exact notBackslash rfl

theorem isDigitUnit_iff : isDigitUnit unit = true ↔ 0x30 ≤ unit.toNat ∧ unit.toNat ≤ 0x39 := by
  unfold isDigitUnit
  rw [Bool.and_eq_true, decide_eq_true_eq, decide_eq_true_eq, UInt16.le_iff_toNat_le,
    UInt16.le_iff_toNat_le]
  rfl

theorem plain_takeWhile_isDigitUnit (text : JsString) : Plain (text.takeWhile isDigitUnit) := by
  apply plain_of_bounds
  intro unit member
  have digit := isDigitUnit_iff.mp (List.mem_takeWhile_imp member)
  omega

theorem bounds_of_isUuidUnit {index : Nat} (isUnit : isUuidUnit index unit = true) :
    0x2D ≤ unit.toNat ∧ unit.toNat < 0x7F ∧ unit.toNat ≠ 0x5C := by
  unfold isUuidUnit at isUnit
  split at isUnit
  · rw [of_decide_eq_true isUnit]
    decide
  · split at isUnit
    · rw [of_decide_eq_true isUnit]
      decide
    · split at isUnit
      · simp only [Bool.or_eq_true, decide_eq_true_eq] at isUnit
        rcases isUnit with ((rfl | rfl) | rfl) | rfl <;> decide
      · unfold isHexUnit at isUnit
        simp only [Bool.or_eq_true, Bool.and_eq_true, decide_eq_true_eq,
          UInt16.le_iff_toNat_le] at isUnit
        change (0x30 ≤ unit.toNat ∧ unit.toNat ≤ 0x39) ∨
          (0x61 ≤ unit.toNat ∧ unit.toNat ≤ 0x66) at isUnit
        omega

theorem plain_isUuid (uuid : isUuid text = true) : Plain text := by
  unfold isUuid at uuid
  rw [Bool.and_eq_true, List.all_eq_true] at uuid
  apply plain_of_bounds
  intro unit member
  obtain ⟨index, bound, rfl⟩ := List.mem_iff_getElem.mp member
  have placed : (text[index], index) ∈ text.zipIdx := by
    rw [List.mem_zipIdx_iff_getElem?]
    exact List.getElem?_eq_getElem bound
  exact bounds_of_isUuidUnit (uuid.2 _ placed)

/-- The names of logs. -/
theorem plain_of_isLogName (isName : channel.isLogName name = true) : Plain name := by
  have plainText : Plain channel.text := by cases channel <;> decide
  unfold LogChannel.isLogName at isName
  rw [Bool.or_eq_true, decide_eq_true_eq] at isName
  rcases isName with rfl | rotated
  · exact plainText.append (by decide)
  · unfold LogChannel.isRotatedName at rotated
    simp only [Bool.and_eq_true, decide_eq_true_eq] at rotated
    obtain ⟨⟨⟨⟨starts, -⟩, dot⟩, -⟩, last⟩ := rotated
    obtain ⟨rest, rfl⟩ := List.isPrefixOf_iff_prefix.mp starts
    rw [List.drop_left] at dot last
    have first := List.takeWhile_append_dropWhile (p := isDigitUnit) (l := rest)
    obtain ⟨others, after⟩ := List.head?_eq_some_iff.mp dot
    rw [after, List.drop_one, List.tail_cons] at last
    have second := List.takeWhile_append_dropWhile (p := isDigitUnit) (l := others)
    rw [last] at second
    rw [after, ← second] at first
    rw [← first]
    refine (plainText.append (by decide)).append
      ((plain_takeWhile_isDigitUnit rest).append ?_)
    rw [← List.singleton_append]
    exact Plain.append (by decide) ((plain_takeWhile_isDigitUnit others).append (by decide))

/-- The names of quarantined files. -/
theorem plain_of_isCandidateName (isName : channel.isCandidateName name = true) :
    Plain name ∧ name.length ≤ 61 := by
  unfold LogChannel.isCandidateName at isName
  simp only [Bool.and_eq_true, decide_eq_true_eq] at isName
  obtain ⟨⟨starts, uuid⟩, last⟩ := isName
  obtain ⟨rest, rfl⟩ := List.isPrefixOf_iff_prefix.mp starts
  rw [List.drop_left] at uuid last
  have parts := List.take_append_drop 36 rest
  rw [last] at parts
  have plainStart : Plain channel.candidateStart ∧ channel.candidateStart.length ≤ 19 := by
    cases channel <;> decide
  have long : (rest.take 36).length ≤ 36 := List.length_take_le 36 rest
  have ending : (js ".jsonl").length = 6 := by decide
  refine ⟨plainStart.1.append ?_, ?_⟩
  · rw [← parts]
    exact (plain_isUuid uuid).append (by decide)
  · rw [← parts, List.length_append, List.length_append, ending]
    have := plainStart.2
    omega

theorem codePoints_plain (plain : Plain text) : text.codePoints = text.map UInt16.toNat := by
  induction text with
  | nil => rfl
  | cons unit rest ih =>
    have here := plain unit List.mem_cons_self
    have others : Plain rest := fun other member => plain other (List.mem_cons_of_mem _ member)
    cases rest with
    | nil => rfl
    | cons next rest =>
      have low : JsString.isHighSurrogate unit = false := by
        unfold JsString.isHighSurrogate
        rw [Bool.and_eq_false_iff]
        left
        rw [decide_eq_false_iff_not, UInt16.le_iff_toNat_le]
        have := here.2.1
        change ¬ 0xD800 ≤ unit.toNat
        omega
      rw [JsString.codePoints, low, Bool.false_and, if_neg Bool.false_ne_true, ih others]
      rfl

theorem length_writeCharacter_plain (printable : 0x20 ≤ unit.toNat) (ascii : unit.toNat < 0x7F)
    (quote : unit ≠ 0x22) (backslash : unit ≠ 0x5C) : (writeCharacter unit.toNat).length = 1 := by
  have notQuote : unit.toNat ≠ 0x22 := fun same => quote (UInt16.toNat_inj.mp same)
  have notBackslash : unit.toNat ≠ 0x5C := fun same => backslash (UInt16.toNat_inj.mp same)
  unfold writeCharacter
  rw [if_neg notQuote, if_neg notBackslash, if_neg (by omega), if_neg (by omega),
    if_neg (by omega), if_neg (by omega), if_neg (by omega), if_neg (by omega)]
  unfold utf8Bytes
  rw [if_pos (by omega)]
  rfl

theorem length_writeJsonString_plain (plain : Plain text) :
    (writeJsonString text).length = text.length + 2 := by
  unfold writeJsonString
  rw [codePoints_plain plain]
  have each : ((text.map UInt16.toNat).flatMap writeCharacter).length = text.length := by
    induction text with
    | nil => rfl
    | cons unit rest ih =>
      obtain ⟨printable, ascii, quote, backslash⟩ := plain unit List.mem_cons_self
      rw [List.map_cons, List.flatMap_cons, List.length_append,
        length_writeCharacter_plain printable ascii quote backslash,
        ih fun other member => plain other (List.mem_cons_of_mem _ member), List.length_cons]
      exact Nat.add_comm 1 _
  rw [List.length_append, List.length_append, each]
  show 1 + text.length + 1 = text.length + 2
  omega

/-- The JSON text of a value has at most so many bytes. -/
def Takes (value : WireJson) (limit : Nat) : Prop :=
  ∃ bytes, writeValue value = .ok bytes ∧ bytes.length ≤ limit

theorem takes_jsonNumber (number : ν) : Takes (jsonNumber number) 25 := by
  have isNumber := JsNumbers.number_text number
  refine ⟨_, writeNumberLexeme_spec isNumber, ?_⟩
  rw [encode_of_ascii (Parser.Number.ascii isNumber), List.length_map]
  exact JsNumbers.length_text_le number

theorem takes_plain (plain : Plain text) (short : text.length ≤ limit) :
    Takes (.string text) (limit + 2) := by
  refine ⟨_, rfl, ?_⟩
  rw [length_writeJsonString_plain plain]
  exact Nat.add_le_add_right short 2

/-- Members are written with their names, a colon and a comma. -/
theorem length_writeMembers_le (takes : ∀ member ∈ members, Takes member.2.1 member.2.2) :
    ∃ bytes, writeMembers (members.map fun member => (member.1, member.2.1)) = .ok bytes ∧
      bytes.length ≤ (members.map fun member =>
        (writeJsonString member.1).length + member.2.2 + 2).sum := by
  induction members with
  | nil => exact ⟨[], rfl, Nat.le_refl 0⟩
  | cons member members ih =>
    obtain ⟨bytes, written, short⟩ := takes member List.mem_cons_self
    obtain ⟨rest, writtenRest, shortRest⟩ :=
      ih fun other isMember => takes other (List.mem_cons_of_mem _ isMember)
    rw [List.map_cons, List.map_cons, List.sum_cons]
    cases members with
    | nil =>
      refine ⟨writeJsonString member.1 ++ [0x3A] ++ bytes, ?_, ?_⟩
      · rw [List.map_nil, writeMembers, written]
        rfl
      · rw [List.length_append, List.length_append, List.length_singleton]
        omega
    | cons next others =>
      refine ⟨writeJsonString member.1 ++ [0x3A] ++ bytes ++ [0x2C] ++ rest, ?_, ?_⟩
      · rw [List.map_cons] at writtenRest ⊢
        rw [writeMembers, written, writtenRest]
        rfl
      · simp only [List.length_append, List.length_singleton]
        omega

theorem takes_object (takes : ∀ member ∈ members, Takes member.2.1 member.2.2)
    (bound : (members.map fun member =>
      (writeJsonString member.1).length + member.2.2 + 2).sum + 2 ≤ limit) :
    Takes (.object (members.map fun member => (member.1, member.2.1))) limit := by
  obtain ⟨bytes, written, short⟩ := length_writeMembers_le takes
  refine ⟨[0x7B] ++ bytes ++ [0x7D], ?_, ?_⟩
  · rw [writeValue, written]
    rfl
  · rw [List.length_append, List.length_append, List.length_singleton, List.length_singleton]
    omega

theorem FileObservation.takes_toJson (observation : FileObservation ν) :
    Takes observation.toJson 205 := by
  let members : List (JsString × WireJson × Nat) :=
    [(js "dev", jsonNumber observation.dev, 25), (js "ino", jsonNumber observation.ino, 25),
      (js "ctimeMs", jsonNumber observation.ctimeMs, 25),
      (js "mtimeMs", jsonNumber observation.mtimeMs, 25),
      (js "size", jsonNumber observation.size, 25), (js "nlink", jsonNumber observation.nlink, 25)]
  have takes : ∀ member ∈ members, Takes member.2.1 member.2.2 := by
    intro member isMember
    simp only [members, List.mem_cons, List.not_mem_nil, or_false] at isMember
    rcases isMember with rfl | rfl | rfl | rfl | rfl | rfl <;> exact takes_jsonNumber _
  exact takes_object takes (Nat.le_refl 205)

/-- A record is short enough, if the file system allows the name of the log. -/
theorem length_encodePruneState_le (isLog : channel.isLogName state.originalName = true)
    (short : state.originalName.length ≤ 255)
    (isCandidate : channel.isCandidateName state.candidateName = true) :
    (encodePruneState state).length ≤ 1024 := by
  have original : Plain state.originalName := plain_of_isLogName isLog
  obtain ⟨candidate, shortCandidate⟩ := plain_of_isCandidateName isCandidate
  let members : List (JsString × WireJson × Nat) :=
    [(js "version", jsonNumber (JsNumbers.ofNat 1 : ν), 25),
      (js "originalName", .string state.originalName, 257),
      (js "candidateName", .string state.candidateName, 63),
      (js "observation", state.observation.toJson, 205)]
  have takes : ∀ member ∈ members, Takes member.2.1 member.2.2 := by
    intro member isMember
    simp only [members, List.mem_cons, List.not_mem_nil, or_false] at isMember
    rcases isMember with rfl | rfl | rfl | rfl
    · exact takes_jsonNumber _
    · exact takes_plain original short
    · exact takes_plain candidate shortCandidate
    · exact state.observation.takes_toJson
  have names : (writeJsonString (js "version")).length = 9 ∧
      (writeJsonString (js "originalName")).length = 14 ∧
      (writeJsonString (js "candidateName")).length = 15 ∧
      (writeJsonString (js "observation")).length = 13 := by decide
  have bound : (members.map fun member =>
      (writeJsonString member.1).length + member.2.2 + 2).sum + 2 ≤ 611 := by
    simp only [members, List.map_cons, List.map_nil, List.sum_cons, List.sum_nil, names.1,
      names.2.1, names.2.2.1, names.2.2.2]
    decide
  obtain ⟨bytes, written, few⟩ : Takes state.toJson 611 := takes_object takes bound
  have same : stringify state.toJson = bytes := by
    unfold stringify serializeWireJson
    rw [written]
  unfold encodePruneState
  rw [same, List.length_append, List.length_singleton]
  omega

end GhcGateway.Daemon
