/-
# Following the cursors of the administration

A cursor is read back as the key it was made of, unless it is too long. That key is the one
the driver has given back: the key of the row, or one before it where a text of the key has a
NUL. Following the cursors from the first page therefore lists every selected row once, in
order, exactly if no row that ends a page has such a text or a key whose cursor is too long.
The number of an event never makes one.
-/

import GhcGateway.Library.Fallible
import GhcGateway.Telemetry.Admin

namespace GhcGateway.Telemetry

open Library JsonGrammar Paging

variable {eventId : Nat}

/-! ## Reading cursors -/

def cursorBytes (value : WireJson) : List UInt8 := encodeUtf8 (jsonStringify value)

/-- A cursor is read back if its JSON has no more bytes than 16384 digits stand for. -/
theorem decodeCursor_encodeCursor {value : WireJson} (wellFormed : value.WellFormed)
    (flat : value.nesting ≤ 1) :
    decodeCursor (encodeCursor value) =
      if (cursorBytes value).length ≤ 12288 then .ok value else .error .validationFailed := by
  have nonempty := encodeUtf8_jsonStringify_ne_nil wellFormed
  have digits := isBase64Url_base64Url nonempty
  have length := length_base64Url (encodeUtf8 (jsonStringify value))
  have some := List.length_pos_iff.mpr nonempty
  rw [decodeCursor, encodeCursor, digits, fromBase64Url_base64Url, length, cursorBytes]
  by_cases fits : (encodeUtf8 (jsonStringify value)).length ≤ 12288
  · rw [if_pos fits, if_neg]
    · dsimp only
      rw [if_neg (fun apart => apart rfl), jsonParse_jsonStringify wellFormed flat]
    · rintro (empty | long | foreign)
      · omega
      · omega
      · cases foreign
  · rw [if_neg fits, if_pos (.inr (.inl (by omega)))]

def usageCursorJson (key : UsageKey) : WireJson :=
  .array [.string (js "usage"), .number (js "1"), .number (js (toString key.utcHourMs)),
    .string key.accountId, .string key.protocol.text, .string key.resolvedModel,
    .string key.outcome.text]

theorem wellFormed_number (value : Int) : (WireJson.number (js (toString value))).WellFormed :=
  ⟨_, number_integerText value, js_toString value⟩

theorem find?_protocol (protocol : TelemetryProtocol) :
    protocols.find? (·.text = protocol.text) = some protocol := by
  cases protocol <;> decide

theorem find?_outcome (outcome : TelemetryOutcome) :
    outcomes.find? (·.text = outcome.text) = some outcome := by
  cases outcome <;> decide

theorem jsInteger_one : jsInteger (js "1") = some 1 := by
  have text : js "1" = js (toString (1 : Int)) := by decide
  rw [text]
  exact jsInteger_toString (by decide)

/-- The cursor of a row is read back as its key, if it is short enough. -/
theorem decodeUsageCursor_encode {row : UsageBucket} (time : isTime row.key.utcHourMs = true) :
    decodeUsageCursor (encodeUsageCursor row) =
      if (cursorBytes (usageCursorJson row.key)).length ≤ 12288 then .ok row.key
      else .error .validationFailed := by
  have one : (WireJson.number (js "1")).WellFormed := wellFormed_number 1
  have hour := wellFormed_number row.key.utcHourMs
  have wellFormed : (usageCursorJson row.key).WellFormed :=
    ⟨trivial, one, hour, trivial, trivial, trivial, trivial, trivial⟩
  have decoded := decodeCursor_encodeCursor wellFormed (Nat.le_refl 1)
  have safe : row.key.utcHourMs.natAbs < 2 ^ 53 := by
    have := of_decide_eq_true time
    omega
  have same : encodeUsageCursor row = encodeCursor (usageCursorJson row.key) := rfl
  rw [decodeUsageCursor, same, decoded]
  split
  · have version : ¬ (js "usage" ≠ js "usage" ∨ jsInteger (js "1") ≠ some 1) := by
      rw [jsInteger_one]
      simp
    simp only [usageCursorJson, bind, Except.bind]
    rw [if_neg version]
    simp only [jsSafeInteger_toString safe, find?_protocol, find?_outcome]
    rfl
  · rfl

theorem writeNumber_toString (value : Int) :
    writeValue (.number (js (toString value))) = .ok (encode (integerText value)) := by
  rw [js_toString, writeValue]
  exact writeNumberLexeme_spec (number_integerText value)

theorem writeNumber_one : writeValue (.number (js "1")) = .ok (encode (integerText 1)) :=
  writeNumber_toString 1

/-- The bytes of the cursor of a key. -/
theorem cursorBytes_usage (key : UsageKey) :
    cursorBytes (usageCursorJson key) = [0x5B] ++ (writeJsonString (js "usage") ++ [0x2C] ++
      (encode (integerText 1) ++ [0x2C] ++ (encode (integerText key.utcHourMs) ++ [0x2C] ++
        (writeJsonString key.accountId ++ [0x2C] ++ (writeJsonString key.protocol.text ++ [0x2C] ++
          (writeJsonString key.resolvedModel ++ [0x2C] ++
            writeJsonString key.outcome.text)))))) ++ [0x5D] := by
  apply encodeUtf8_jsonStringify
  have one := writeNumber_one
  have hour := writeNumber_toString key.utcHourMs
  simp only [serializeWireJson, usageCursorJson, writeValue, writeItems] at one hour ⊢
  rw [one, hour]
  rfl

/-- A cursor is as long as the model in it at least. -/
theorem length_usageCursor_ge (key : UsageKey) :
    key.resolvedModel.length + 2 ≤ (cursorBytes (usageCursorJson key)).length := by
  have model := (length_writeJsonString key.resolvedModel).1
  rw [cursorBytes_usage]
  simp only [List.length_append]
  omega

/-! ### The number of an event -/

theorem isDecimal_toString (value : Nat) : isDecimal (js (toString value)) = true := by
  have text : js (toString value) = lexemeOf (Nat.toDigits 10 value) := js_toString value
  have unit {c : Char} (digit : c.isDigit = true) :
      (0x30 : UInt16) ≤ UInt16.ofNat c.toNat ∧ UInt16.ofNat c.toNat ≤ 0x39 := by
    rw [UInt16.le_iff_toNat_le, UInt16.le_iff_toNat_le, toNat_lexeme digit]
    exact toNat_le_of_isDigit digit
  rw [text]
  have integer := integer_toDigits value
  generalize Nat.toDigits 10 value = digits at integer
  cases integer with
  | zero => rfl
  | digits first rest digit nonzero digits =>
    have positive : (0x31 : UInt16) ≤ UInt16.ofNat first.toNat := by
      rw [UInt16.le_iff_toNat_le, toNat_lexeme digit]
      have value := toNat_le_of_isDigit digit
      have apart : first.toNat ≠ '0'.toNat := fun same => nonzero (Char.toNat_inj.mp same)
      have zero : '0'.toNat = 0x30 := rfl
      have one : (0x31 : UInt16).toNat = 0x31 := rfl
      omega
    have others : ∀ other ∈ lexemeOf rest, (0x30 : UInt16) ≤ other ∧ other ≤ 0x39 := by
      intro other member
      obtain ⟨c, isChar, rfl⟩ := List.mem_map.mp member
      exact unit (digits c isChar)
    show isDecimal (UInt16.ofNat first.toNat :: lexemeOf rest) = true
    rw [isDecimal, Bool.or_eq_true]
    right
    simp only [Bool.and_eq_true, decide_eq_true_eq, List.all_eq_true]
    exact ⟨⟨positive, (unit digit).2⟩, others⟩

def eventCursorJson (eventId : Nat) : WireJson :=
  .array [.string (js "event"), .number (js "1"), .string (js (toString eventId))]

theorem length_js_toString {value : Nat} (safe : value ≤ maxSafeInteger) :
    (js (toString value)).length ≤ 16 := by
  have text : js (toString value) = lexemeOf (Nat.toDigits 10 value) := js_toString value
  have small : value < 10 ^ 16 := Nat.lt_of_le_of_lt safe (by decide)
  rw [text, lexemeOf, List.length_map]
  exact (Nat.length_toDigits_le_iff (by decide) (by decide)).mpr small

/-- The JSON of the cursor of an event is short. -/
theorem length_eventCursor (safe : eventId ≤ maxSafeInteger) :
    (cursorBytes (eventCursorJson eventId)).length ≤ 12288 := by
  have one := writeNumber_one
  have written : serializeWireJson (eventCursorJson eventId) = .ok ([0x5B] ++
      (writeJsonString (js "event") ++ [0x2C] ++ (encode (integerText 1) ++ [0x2C] ++
        writeJsonString (js (toString eventId)))) ++ [0x5D]) := by
    simp only [serializeWireJson, eventCursorJson, writeValue, writeItems] at one ⊢
    rw [one]
    rfl
  have tag := (length_writeJsonString (js "event")).2
  have number := (length_writeJsonString (js (toString eventId))).2
  have digits := length_js_toString safe
  have tagLength : (js "event").length = 5 := by decide
  have oneLength : (encode (integerText 1)).length = 1 := by decide
  rw [cursorBytes, encodeUtf8_jsonStringify written]
  simp only [List.length_append, List.length_cons, List.length_nil]
  omega

/-- The number of an event is read back from its cursor. -/
theorem decodeEventCursor_encode (safe : eventId ≤ maxSafeInteger) :
    decodeEventCursor (encodeEventCursor eventId) = .ok eventId := by
  have one : (WireJson.number (js "1")).WellFormed := wellFormed_number 1
  have wellFormed : (eventCursorJson eventId).WellFormed := ⟨trivial, one, trivial, trivial⟩
  have decoded := decodeCursor_encodeCursor wellFormed (Nat.le_refl 1)
  rw [if_pos (length_eventCursor safe)] at decoded
  have small : (eventId : Int).natAbs < 2 ^ 53 := by
    have bound : maxSafeInteger = 9007199254740991 := rfl
    omega
  have text : js (toString eventId) = js (toString (eventId : Int)) := rfl
  have read : jsSafeInteger (js (toString eventId)) = some (eventId : Int) := by
    rw [text]
    exact jsSafeInteger_toString small
  have version : ¬ (js "event" ≠ js "event" ∨ jsInteger (js "1") ≠ some 1) := by
    rw [jsInteger_one]
    simp
  have same : encodeEventCursor eventId = encodeCursor (eventCursorJson eventId) := rfl
  have number : decimalEventId (js (toString eventId)) = .ok eventId := by
    rw [decimalEventId, if_pos (isDecimal_toString eventId), read]
    rfl
  rw [decodeEventCursor, same, decoded]
  simp only [eventCursorJson, bind, Except.bind]
  rw [if_neg version]
  exact number

/-! ## The rows in their order -/

/-- The tables that the recorder writes: texts that UTF-8 can write, times that are dates and
numbers of rows that are exact. -/
structure TelemetryStore where
  database : Database
  accountIds : ∀ row ∈ database.usageBuckets.rows, ∃ text, row.key.accountId = textUnits text
  resolvedModels : ∀ row ∈ database.usageBuckets.rows,
    ∃ text, row.key.resolvedModel = textUnits text
  hours : ∀ row ∈ database.usageBuckets.rows, isTime row.key.utcHourMs = true
  times : ∀ row ∈ database.operationalEvents.rows, isTime row.occurredAtMs = true
  numbers : ∀ row ∈ database.operationalEvents.rows, row.eventId ≤ maxSafeInteger

/-- The columns of the primary key, as the database compares them. -/
def UsageKey.columns (key : UsageKey) : Int × List (List UInt8) := (key.utcHourMs, key.texts)

/-- The order of the primary key. -/
def columnsLe (left right : Int × List (List UInt8)) : Prop :=
  left.1 < right.1 ∨ left.1 = right.1 ∧ left.2 ≤ right.2

instance : DecidableRel columnsLe := fun left right => by
  unfold columnsLe
  infer_instance

instance : Std.Total columnsLe := ⟨by
  intro left right
  cases Int.lt_trichotomy left.1 right.1 with
  | inl less => exact .inl (.inl less)
  | inr others =>
    cases others with
    | inl same =>
      cases (Std.le_total : left.2 ≤ right.2 ∨ right.2 ≤ left.2) with
      | inl up => exact .inl (.inr ⟨same, up⟩)
      | inr down => exact .inr (.inr ⟨same.symm, down⟩)
    | inr greater => exact .inr (.inl greater)⟩

instance : IsTrans (Int × List (List UInt8)) columnsLe := ⟨by
  rintro first second third (less | ⟨same, up⟩) (lessThen | ⟨sameThen, upThen⟩)
  · exact .inl (Int.lt_trans less lessThen)
  · exact .inl (sameThen ▸ less)
  · exact .inl (same ▸ lessThen)
  · exact .inr ⟨same.trans sameThen, Std.le_trans up upThen⟩⟩

instance : Std.Antisymm columnsLe := ⟨by
  rintro left right (less | ⟨same, up⟩) (greater | ⟨back, down⟩)
  · exact absurd (Int.lt_trans less greater) (Int.lt_irrefl _)
  · exact absurd (back ▸ less) (Int.lt_irrefl _)
  · exact absurd (same ▸ greater) (Int.lt_irrefl _)
  · exact Prod.ext same (Std.le_antisymm up down)⟩

/-- The rows after a cursor are those whose columns are not before or at it. -/
theorem follows_eq (key cursor : UsageKey) :
    key.follows cursor = !decide (columnsLe key.columns cursor.columns) := by
  rw [UsageKey.follows, ← decide_not]
  apply decide_eq_decide.mpr
  simp only [columnsLe, UsageKey.columns, not_or, not_and, Int.not_lt]
  constructor
  · rintro (later | ⟨same, after⟩)
    · exact ⟨Int.le_of_lt later, fun same => absurd (same ▸ later) (Int.lt_irrefl _)⟩
    · exact ⟨Int.le_of_eq same, fun _ => Std.not_le.mpr after⟩
  · rintro ⟨notBefore, notAt⟩
    cases Int.lt_or_eq_of_le notBefore with
    | inl later => exact .inl later
    | inr same => exact .inr ⟨same, Std.not_le.mp (notAt same.symm)⟩

/-! ### Different rows have different columns -/

/-- A text is read back from its bytes. -/
theorem encodeUtf8_injOn {first second : List Char}
    (same : encodeUtf8 (textUnits first) = encodeUtf8 (textUnits second)) :
    textUnits first = textUnits second := by
  rw [encodeUtf8_textUnits, encodeUtf8_textUnits] at same
  rw [← decodeText_encode, same, decodeText_encode]

theorem protocol_of_bytes {first second : TelemetryProtocol}
    (same : encodeUtf8 first.text = encodeUtf8 second.text) : first = second := by
  have readBack (protocol : TelemetryProtocol) :
      decodeText (encodeUtf8 protocol.text) = protocol.text := by
    cases protocol <;> decide
  have text : first.text = second.text := by
    rw [← readBack first, same, readBack]
  have found := find?_protocol first
  rw [text, find?_protocol second] at found
  exact (Option.some.inj found).symm

theorem outcome_of_bytes {first second : TelemetryOutcome}
    (same : encodeUtf8 first.text = encodeUtf8 second.text) : first = second := by
  have readBack (outcome : TelemetryOutcome) :
      decodeText (encodeUtf8 outcome.text) = outcome.text := by
    cases outcome <;> decide
  have text : first.text = second.text := by
    rw [← readBack first, same, readBack]
  have found := find?_outcome first
  rw [text, find?_outcome second] at found
  exact (Option.some.inj found).symm

namespace TelemetryStore

variable (store : TelemetryStore)
  {query : AdminUsageQuery} {row : UsageBucket} {front back : List UsageBucket}

def columnsOf (row : UsageBucket) : Int × List (List UInt8) := row.key.columns

/-- The primary key is the same for the database as for the driver. -/
theorem nodup_columns (condition : UsageBucket → Bool) :
    ((store.database.usageBuckets.rows.filter condition).map columnsOf).Nodup := by
  have rows : store.database.usageBuckets.rows.Nodup := store.database.usageBuckets.unique.of_map _
  refine ((rows.filter condition).map_on ?_)
  intro first isFirst second isSecond same
  have isFirst := List.mem_of_mem_filter isFirst
  have isSecond := List.mem_of_mem_filter isSecond
  obtain ⟨firstAccount, sameFirst⟩ := store.accountIds first isFirst
  obtain ⟨secondAccount, sameSecond⟩ := store.accountIds second isSecond
  obtain ⟨firstModel, sameFirstModel⟩ := store.resolvedModels first isFirst
  obtain ⟨secondModel, sameSecondModel⟩ := store.resolvedModels second isSecond
  obtain ⟨hour, texts⟩ := Prod.mk.inj same
  simp only [UsageKey.texts, List.cons.injEq, and_true] at texts
  obtain ⟨account, protocol, model, outcome⟩ := texts
  rw [sameFirst, sameSecond] at account
  rw [sameFirstModel, sameSecondModel] at model
  apply Table.eq_of_key_eq isFirst isSecond
  have keyEta (key : UsageKey) : key =
      ⟨key.utcHourMs, key.accountId, key.protocol, key.resolvedModel, key.outcome⟩ := rfl
  rw [keyEta first.key, keyEta second.key, hour, sameFirst, sameSecond, encodeUtf8_injOn account,
    sameFirstModel, sameSecondModel, encodeUtf8_injOn model, protocol_of_bytes protocol,
    outcome_of_bytes outcome]

theorem lt_or_eq_columnText (text : List Char) :
    encodeUtf8 (columnText (textUnits text)) < encodeUtf8 (textUnits text) ∨
      encodeUtf8 (columnText (textUnits text)) = encodeUtf8 (textUnits text) := by
  by_cases back : encodeUtf8 (textUnits text) ≤ encodeUtf8 (columnText (textUnits text))
  · exact .inr (Std.le_antisymm (encodeUtf8_columnText text).le back)
  · exact .inl (Std.not_le.mp back)

/-- What the driver gives back of a key is the key or one before it. -/
theorem columnsLe_read (member : row ∈ store.database.usageBuckets.rows) :
    columnsLe row.key.read.columns row.key.columns := by
  obtain ⟨account, isAccount⟩ := store.accountIds row member
  obtain ⟨model, isModel⟩ := store.resolvedModels row member
  refine .inr ⟨rfl, ?_⟩
  simp only [UsageKey.columns, UsageKey.texts, UsageKey.read, isAccount, isModel,
    List.cons_le_cons_iff]
  refine (lt_or_eq_columnText account).imp_right fun same => ⟨same, .inr ⟨trivial, ?_⟩⟩
  exact (lt_or_eq_columnText model).imp_right fun same => ⟨same, .inr ⟨trivial, Std.le_refl _⟩⟩

/-- Only the whole key has its columns. -/
theorem read_of_columns (member : row ∈ store.database.usageBuckets.rows)
    (same : row.key.read.columns = row.key.columns) : row.key.read = row.key := by
  obtain ⟨account, isAccount⟩ := store.accountIds row member
  obtain ⟨model, isModel⟩ := store.resolvedModels row member
  have texts := (Prod.mk.inj same).2
  simp only [UsageKey.texts, UsageKey.read, isAccount, isModel, columnText_textUnits,
    List.cons.injEq, and_true, true_and] at texts
  rw [UsageKey.read, isAccount, isModel, columnText_textUnits, columnText_textUnits,
    encodeUtf8_injOn texts.1, encodeUtf8_injOn texts.2, ← isAccount, ← isModel]

def usageRows (query : AdminUsageQuery) : List UsageBucket :=
  ordered columnsOf columnsLe (store.database.usageBuckets.rows.filter query.selects)

theorem insertionSort_precedes (rows : List UsageBucket) :
    (rows.insertionSort fun left right => left.key.precedes right.key) =
      ordered columnsOf columnsLe rows := by
  rw [ordered]
  congr

theorem selectUsage_start (query : AdminUsageQuery) (limit : Nat) :
    store.database.selectUsage query none limit = (store.usageRows query).take limit := by
  simp only [Database.selectUsage, Option.all_none, Bool.and_true]
  rw [insertionSort_precedes]
  rfl

theorem selectUsage_after (split : store.usageRows query = front ++ row :: back) (limit : Nat) :
    store.database.selectUsage query (some row.key) limit = back.take limit := by
  have conditions : (store.database.usageBuckets.rows.filter fun other =>
      query.selects other && (some row.key).all other.key.follows) =
        (store.database.usageBuckets.rows.filter query.selects).filter
          (after columnsOf columnsLe (columnsOf row)) := by
    rw [List.filter_filter]
    apply List.filter_congr
    intro other _
    rw [Option.all_some, follows_eq, Bool.and_comm]
    rfl
  rw [Database.selectUsage, insertionSort_precedes, conditions,
    ordered_filter (store.nodup_columns query.selects),
    filter_after (store.nodup_columns query.selects) split]

/-- The rows after the key that is given back of a row that is not kept whole start with that
row or one before it. -/
theorem selectUsage_back (split : store.usageRows query = front ++ row :: back)
    (member : row ∈ store.database.usageBuckets.rows) (cut : row.key.read ≠ row.key) :
    ∃ before again, store.usageRows query = before ++ again ∧ back.length < again.length ∧
      ∀ limit, store.database.selectUsage query (some row.key.read) limit = again.take limit := by
  have conditions : (store.database.usageBuckets.rows.filter fun other =>
      query.selects other && (some row.key.read).all other.key.follows) =
        (store.database.usageBuckets.rows.filter query.selects).filter
          (after columnsOf columnsLe row.key.read.columns) := by
    rw [List.filter_filter]
    apply List.filter_congr
    intro other _
    rw [Option.all_some, follows_eq, Bool.and_comm]
    rfl
  obtain ⟨before, whole⟩ := @exists_filter_after _ _ columnsOf columnsLe _ _ _
    (store.database.usageBuckets.rows.filter query.selects) row.key.read.columns
  refine ⟨before, _, whole, ?_, fun limit => ?_⟩
  · -- the row itself and all after it are after what is given back of it
    have ascending := pairwise_ordered columnsOf columnsLe
      (store.database.usageBuckets.rows.filter query.selects)
    have least : columnsLe row.key.read.columns row.key.columns := store.columnsLe_read member
    have itself : after columnsOf columnsLe row.key.read.columns row = true := by
      rw [after, Bool.not_eq_true', decide_eq_false_iff_not]
      exact fun down => cut (store.read_of_columns member (Std.Antisymm.antisymm _ _ least down))
    have split : ordered columnsOf columnsLe
        (store.database.usageBuckets.rows.filter query.selects) = front ++ row :: back := split
    rw [split] at ascending ⊢
    have others : ∀ other ∈ back,
        after columnsOf columnsLe row.key.read.columns other = true := by
      intro other isBack
      have up := (List.pairwise_cons.mp (List.pairwise_append.mp ascending).2.1).1 other isBack
      rw [after, Bool.not_eq_true', decide_eq_false_iff_not] at itself ⊢
      exact fun down => itself (IsTrans.trans _ _ _ up down)
    rw [List.filter_append, List.filter_cons_of_pos itself, List.filter_eq_self.mpr others,
      List.length_append, List.length_cons]
    omega
  · rw [Database.selectUsage, insertionSort_precedes, conditions,
      ordered_filter (store.nodup_columns query.selects)]

/-! ## Usage, page by page -/

def timeText (ms : Int) : JsString :=
  match toISOString ms with
  | .ok text => text
  | .error _ => []

theorem toISOString_eq {ms : Int} (time : isTime ms = true) :
    toISOString ms = .ok (timeText ms) := by
  rw [timeText, toISOString, if_pos time]

/-- The item of a row as the driver gives it back. -/
def usageItem (row : UsageBucket) : AdminUsageBucket where
  utcHour := timeText row.key.utcHourMs
  accountId := columnText row.key.accountId
  protocol := row.key.protocol
  resolvedModel := columnText row.key.resolvedModel
  outcome := row.key.outcome
  requestCount := row.requestCount
  errorCount := row.errorCount
  inputTokens := row.inputTokens
  outputTokens := row.outputTokens
  cacheTokens := row.cacheTokens
  latencySumMs := row.latencySumMs
  latencyMaxMs := row.latencyMaxMs

theorem usageDto_eq (time : isTime row.key.utcHourMs = true) :
    usageDto row.read = .ok (usageItem row) := by
  have hour : isTime row.read.key.utcHourMs = true := time
  rw [usageDto, toISOString_eq hour]
  rfl

def usagePage (query : AdminUsageQuery) (part : List UsageBucket) : AdminUsagePage where
  items := part.map usageItem
  totals := usageTotals (store.database.usageBuckets.rows.filter query.selects)

theorem time_of_mem {query : AdminUsageQuery} {row : UsageBucket}
    (member : row ∈ store.usageRows query) : isTime row.key.utcHourMs = true :=
  store.hours row (List.mem_of_mem_filter ((perm_ordered _ _ _).mem_iff.mp member))

/-- The page that shows the first of some rows. -/
theorem queryUsage_eq (valid : validateUsageQuery query = .ok ()) {cursor : Option JsString}
    {key : Option UsageCursor} (decoded : cursor.mapM decodeUsageCursor = .ok key)
    {rows : List UsageBucket}
    (selected : ∀ limit, store.database.selectUsage query key limit = rows.take limit)
    (times : ∀ row ∈ rows, isTime row.key.utcHourMs = true) :
    store.database.queryUsage query false cursor =
      .ok (store.usagePage query (rows.take query.limit.toNat),
        if query.limit.toNat < rows.length then
          (rows.take query.limit.toNat).getLast?.map fun row => encodeUsageCursor row.read
        else none) := by
  have items : ((rows.take query.limit.toNat).map UsageBucket.read).mapM usageDto =
      .ok ((rows.take query.limit.toNat).map usageItem) := by
    refine mapM_eq_ok.mpr (List.forall₂_map_left_iff.mpr (List.forall₂_map_right_iff.mpr
      (List.forall₂_same.mpr fun row member => ?_)))
    exact usageDto_eq (times row (List.mem_of_mem_take member))
  have first : ((rows.take (query.limit.toNat + 1)).map UsageBucket.read).take
      query.limit.toNat = (rows.take query.limit.toNat).map UsageBucket.read := by
    rw [← List.map_take, List.take_take, Nat.min_eq_left (Nat.le_succ _)]
  have more : query.limit.toNat <
      ((rows.take (query.limit.toNat + 1)).map UsageBucket.read).length ↔
        query.limit.toNat < rows.length := by
    rw [List.length_map, List.length_take]
    omega
  simp only [Database.queryUsage, Bool.false_eq_true, if_false, decoded, selected, first, items,
    more, List.getLast?_map, Option.map_map, bind, Except.bind, pure, Except.pure]
  rw [valid]
  rfl

theorem positive_of_valid (valid : validateUsageQuery query = .ok ()) : 0 < query.limit.toNat := by
  rw [validateUsageQuery] at valid
  split at valid
  case isTrue checks =>
    have limits := of_decide_eq_true checks.2.2.2
    omega
  case isFalse => cases valid

/-- The driver gives the key of the row back whole, and the cursor it makes of it is not too
long. -/
def CursorFits (row : UsageBucket) : Prop :=
  row.key.read = row.key ∧ (cursorBytes (usageCursorJson row.key.read)).length ≤ 12288

/-- The usage is listed by the primary key. -/
theorem usage_keyset (valid : validateUsageQuery query = .ok ()) :
    Paging.Keyset (store.database.queryUsage query false) (store.usageRows query)
      query.limit.toNat (store.usagePage query) (fun row => encodeUsageCursor row.read)
      CursorFits where
  positive := positive_of_valid valid
  start := store.queryUsage_eq valid rfl (store.selectUsage_start query) fun _ => store.time_of_mem
  resume := by
    intro front row back split fits
    have member : row ∈ store.usageRows query := split ▸ by simp
    have decoded : (some (encodeUsageCursor row.read)).mapM decodeUsageCursor =
        .ok (some row.key) := by
      have time := store.time_of_mem member
      have read := @decodeUsageCursor_encode row.read time
      rw [if_pos (show (cursorBytes (usageCursorJson row.read.key)).length ≤ 12288 from fits.2)]
        at read
      rw [Option.mapM_some, read]
      exact congrArg (fun key => Except.ok (some key)) fits.1
    apply store.queryUsage_eq valid decoded (store.selectUsage_after split)
    intro other isBack
    apply @time_of_mem store query
    rw [split]
    exact List.mem_append_right _ (List.mem_cons_of_mem row isBack)
  stray := by
    intro front row back split strays
    have member : row ∈ store.usageRows query := split ▸ by simp
    have stored : row ∈ store.database.usageBuckets.rows :=
      List.mem_of_mem_filter ((perm_ordered _ _ _).mem_iff.mp member)
    have time := store.time_of_mem member
    have read := @decodeUsageCursor_encode row.read time
    by_cases short : (cursorBytes (usageCursorJson row.key.read)).length ≤ 12288
    · obtain ⟨before, again, whole, longer, selected⟩ :=
        store.selectUsage_back split stored fun kept => strays ⟨kept, short⟩
      rw [if_pos (show (cursorBytes (usageCursorJson row.read.key)).length ≤ 12288 from short)]
        at read
      have decoded : (some (encodeUsageCursor row.read)).mapM decodeUsageCursor =
          .ok (some row.key.read) := by
        rw [Option.mapM_some, read]
        rfl
      refine .inr ⟨before, again, whole, longer, store.queryUsage_eq valid decoded selected ?_⟩
      intro other isAgain
      apply @time_of_mem store query
      rw [whole]
      exact List.mem_append_right _ isAgain
    · rw [if_neg (show ¬ (cursorBytes (usageCursorJson row.read.key)).length ≤ 12288 from short)]
        at read
      refine .inl ⟨.validationFailed, ?_⟩
      simp only [Database.queryUsage, Bool.false_eq_true, if_false, Option.mapM_some, read, bind,
        Except.bind, Functor.map, Except.map]
      rw [valid]

end TelemetryStore

end GhcGateway.Telemetry
