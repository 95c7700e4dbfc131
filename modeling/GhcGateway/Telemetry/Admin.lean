/-
# The telemetry of the administration

`SqliteAdminTelemetry` lists usage buckets and operational events in pages. A page that is
not the last has a cursor: the key of its last row, as JSON in base 64. The next query
decodes it, checks it and asks for the rows after it.

The driver keeps texts as UTF-8 and compares their bytes. Nothing is awaited in a query, so
its signal is aborted during all of it or not at all.
-/

import GhcGateway.Library.Paging
import GhcGateway.Serialization.Base64Url
import GhcGateway.Serialization.JsonText
import GhcGateway.Serialization.TextColumn
import GhcGateway.Telemetry.Recorder

namespace GhcGateway.Telemetry

open Library

inductive AdminFailure
  | aborted
  | validationFailed
  /-- The `RangeError` of a time that is no date. -/
  | invalidTime
  deriving DecidableEq

/-! ## Times -/

/-- A decimal number, padded with zeros. -/
def padded (width value : Nat) : String :=
  let digits := toString value
  String.ofList (List.replicate (width - digits.length) '0') ++ digits

/-- The year, the month and the day of a number of days since 1970-01-01. -/
def civil (days : Int) : Int × Nat × Nat :=
  let era := (days + 719468) / 146097
  let dayOfEra := ((days + 719468) % 146097).toNat
  let yearOfEra := (dayOfEra - dayOfEra / 1460 + dayOfEra / 36524 - dayOfEra / 146096) / 365
  let dayOfYear := dayOfEra - (365 * yearOfEra + yearOfEra / 4 - yearOfEra / 100)
  let shifted := (5 * dayOfYear + 2) / 153
  let day := dayOfYear - (153 * shifted + 2) / 5 + 1
  let month := if shifted < 10 then shifted + 3 else shifted - 9
  let year := yearOfEra + era * 400
  (if month ≤ 2 then year + 1 else year, month, day)

/-- Whether a number of milliseconds is a date. -/
def isTime (ms : Int) : Bool := ms.natAbs ≤ 8640000000000000

def toISOString (ms : Int) : Except AdminFailure JsString :=
  if isTime ms then
    let (year, month, day) := civil (ms / 86400000)
    let time := (ms % 86400000).toNat
    let years :=
      if 0 ≤ year ∧ year ≤ 9999 then padded 4 year.toNat
      else (if year < 0 then "-" else "+") ++ padded 6 year.natAbs
    .ok (js (years ++ "-" ++ padded 2 month ++ "-" ++ padded 2 day ++ "T" ++
      padded 2 (time / 3600000) ++ ":" ++ padded 2 (time / 60000 % 60) ++ ":" ++
      padded 2 (time / 1000 % 60) ++ "." ++ padded 3 (time % 1000) ++ "Z"))
  else .error .invalidTime

example : toISOString 1700000000123 = .ok (js "2023-11-14T22:13:20.123Z") := by decide

/-! ## Cursors -/

def encodeCursor (value : WireJson) : JsString := base64Url (encodeUtf8 (jsonStringify value))

def decodeCursor (cursor : JsString) : Except AdminFailure WireJson :=
  if cursor.length = 0 ∨ 16384 < cursor.length ∨ isBase64Url cursor = false then
    .error .validationFailed
  else
    let bytes := fromBase64Url cursor
    if base64Url bytes ≠ cursor then .error .validationFailed
    else
      match jsonParse (utf8Text .initial bytes) with
      | some value => .ok value
      | none => .error .validationFailed

def protocols : List TelemetryProtocol :=
  [.openaiChat, .openaiResponsesUnknown, .openaiResponsesNative, .openaiResponsesBridge, .anthropic]

def outcomes : List TelemetryOutcome :=
  [.success, .clientError, .authenticationError, .overloaded, .upstreamError, .timeout, .aborted,
    .internalError]

/-- `UsageCursor`, which has the columns of the primary key. -/
abbrev UsageCursor := UsageKey

def encodeUsageCursor (row : UsageBucket) : JsString :=
  encodeCursor (.array [.string (js "usage"), .number (js "1"),
    .number (js (toString row.key.utcHourMs)), .string row.key.accountId,
    .string row.key.protocol.text, .string row.key.resolvedModel, .string row.key.outcome.text])

def decodeUsageCursor (cursor : JsString) : Except AdminFailure UsageCursor := do
  match ← decodeCursor cursor with
  | .array [.string tag, .number version, .number utcHourMs, .string accountId, .string protocol,
      .string resolvedModel, .string outcome] =>
    if tag ≠ js "usage" ∨ jsInteger version ≠ some 1 then throw .validationFailed
    match jsSafeInteger utcHourMs, protocols.find? (·.text = protocol),
        outcomes.find? (·.text = outcome) with
    | some utcHourMs, some protocol, some outcome =>
      return ⟨utcHourMs, accountId, protocol, resolvedModel, outcome⟩
    | _, _, _ => throw .validationFailed
  | _ => throw .validationFailed

/-- `/^(?:0|[1-9][0-9]*)$/u.test(value)`. -/
def isDecimal : JsString → Bool
  | [] => false
  | first :: rest =>
    first = 0x30 && rest = [] ||
      (0x31 ≤ first && first ≤ 0x39 && rest.all fun unit => 0x30 ≤ unit && unit ≤ 0x39)

def decimalEventId (value : JsString) : Except AdminFailure Nat :=
  if isDecimal value then
    match jsSafeInteger value with
    | some result => .ok result.toNat
    | none => .error .validationFailed
  else .error .validationFailed

def encodeEventCursor (eventId : Nat) : JsString :=
  encodeCursor (.array [.string (js "event"), .number (js "1"), .string (js (toString eventId))])

def decodeEventCursor (cursor : JsString) : Except AdminFailure Nat := do
  match ← decodeCursor cursor with
  | .array [.string tag, .number version, .string eventId] =>
    if tag ≠ js "event" ∨ jsInteger version ≠ some 1 then throw .validationFailed
    decimalEventId eventId
  | _ => throw .validationFailed

/-! ## Queries -/

def validMs (value : Int) : Bool := value.natAbs ≤ maxSafeInteger

def validLimit (value : Int) : Bool := 1 ≤ value ∧ value ≤ 500

/-- `AdminUsageQuery` without its cursor. -/
structure AdminUsageQuery where
  fromMs : Int
  toMs : Int
  limit : Int
  accountId : Option JsString
  protocol : Option TelemetryProtocol
  resolvedModel : Option JsString
  outcome : Option TelemetryOutcome

def validateUsageQuery (query : AdminUsageQuery) : Except AdminFailure Unit :=
  if validMs query.fromMs ∧ validMs query.toMs ∧ query.fromMs < query.toMs ∧
      validLimit query.limit then .ok ()
  else .error .validationFailed

/-- `AdminEventQuery` without its cursor. -/
structure AdminEventQuery where
  fromMs : Option Int
  toMs : Option Int
  limit : Int
  kind : Option OperationalEventKind
  severity : Option Severity

def validateEventQuery (query : AdminEventQuery) : Except AdminFailure Unit :=
  if query.fromMs.all validMs ∧ query.toMs.all validMs ∧
      (∀ fromMs ∈ query.fromMs, ∀ toMs ∈ query.toMs, fromMs < toMs) ∧ validLimit query.limit then
    .ok ()
  else .error .validationFailed

/-- `addFilter`: a column of text. -/
def filters (value : Option JsString) (column : JsString) : Bool :=
  value.all fun wanted => encodeUtf8 column = encodeUtf8 wanted

/-- The condition of a usage query without a cursor. -/
def AdminUsageQuery.selects (query : AdminUsageQuery) (row : UsageBucket) : Bool :=
  query.fromMs ≤ row.key.utcHourMs && row.key.utcHourMs < query.toMs &&
    filters query.accountId row.key.accountId &&
    filters (query.protocol.map TelemetryProtocol.text) row.key.protocol.text &&
    filters query.resolvedModel row.key.resolvedModel &&
    filters (query.outcome.map TelemetryOutcome.text) row.key.outcome.text

/-- The condition of an event query without a cursor. -/
def AdminEventQuery.selects (query : AdminEventQuery) (row : EventRow) : Bool :=
  query.fromMs.all (· ≤ row.occurredAtMs) && query.toMs.all (row.occurredAtMs < ·) &&
    query.kind.all (row.kind = ·) && query.severity.all (row.severity = ·)

/-! ## Usage -/

structure AdminUsageBucket where
  utcHour : JsString
  accountId : JsString
  protocol : TelemetryProtocol
  resolvedModel : JsString
  outcome : TelemetryOutcome
  requestCount : Nat
  errorCount : Nat
  inputTokens : Nat
  outputTokens : Nat
  cacheTokens : Nat
  latencySumMs : Nat
  latencyMaxMs : Nat

structure AdminUsageTotals where
  requestCount : Nat
  errorCount : Nat
  inputTokens : Nat
  outputTokens : Nat
  cacheTokens : Nat
  latencySumMs : Nat
  latencyMaxMs : Nat

/-- `AdminUsagePage` without its cursor. -/
structure AdminUsagePage where
  items : List AdminUsageBucket
  totals : AdminUsageTotals

def usageDto (row : UsageBucket) : Except AdminFailure AdminUsageBucket := do
  let utcHour ← toISOString row.key.utcHourMs
  return {
    utcHour
    accountId := row.key.accountId
    protocol := row.key.protocol
    resolvedModel := row.key.resolvedModel
    outcome := row.key.outcome
    requestCount := row.requestCount
    errorCount := row.errorCount
    inputTokens := row.inputTokens
    outputTokens := row.outputTokens
    cacheTokens := row.cacheTokens
    latencySumMs := row.latencySumMs
    latencyMaxMs := row.latencyMaxMs }

/-- `queryUsageTotals`, of the rows that are selected. -/
def usageTotals (rows : List UsageBucket) : AdminUsageTotals where
  requestCount := (rows.map UsageBucket.requestCount).sum
  errorCount := (rows.map UsageBucket.errorCount).sum
  inputTokens := (rows.map UsageBucket.inputTokens).sum
  outputTokens := (rows.map UsageBucket.outputTokens).sum
  cacheTokens := (rows.map UsageBucket.cacheTokens).sum
  latencySumMs := (rows.map UsageBucket.latencySumMs).sum
  latencyMaxMs := (rows.map UsageBucket.latencyMaxMs).foldr max 0

/-- `(…) > (?, ?, ?, ?, ?)` of the columns of the primary key. -/
def UsageKey.follows (key cursor : UsageKey) : Bool :=
  cursor.utcHourMs < key.utcHourMs ∨ cursor.utcHourMs = key.utcHourMs ∧ cursor.texts < key.texts

/-- The key as the driver gives it back. -/
def UsageKey.read (key : UsageKey) : UsageKey :=
  { key with accountId := columnText key.accountId, resolvedModel := columnText key.resolvedModel }

def UsageBucket.read (row : UsageBucket) : UsageBucket := { row with key := row.key.read }

namespace Database

variable (database : Database)

/-- The rows of a usage query, after a cursor and in the order of the primary key. -/
def selectUsage (query : AdminUsageQuery) (cursor : Option UsageCursor) (limit : Nat) :
    List UsageBucket :=
  ((database.usageBuckets.rows.filter fun row =>
      query.selects row && cursor.all row.key.follows).insertionSort fun left right =>
    left.key.precedes right.key).take limit

def queryUsage (query : AdminUsageQuery) (aborted : Bool) (cursor : Option JsString) :
    Except AdminFailure (AdminUsagePage × Option JsString) := do
  if aborted then throw .aborted
  validateUsageQuery query
  let cursor ← cursor.mapM decodeUsageCursor
  let totals := usageTotals (database.usageBuckets.rows.filter query.selects)
  let limit := query.limit.toNat
  let rows := (database.selectUsage query cursor (limit + 1)).map UsageBucket.read
  let pageRows := rows.take limit
  let items ← pageRows.mapM usageDto
  return ({ items, totals },
    if limit < rows.length then pageRows.getLast?.map encodeUsageCursor else none)

end Database

/-! ## Events -/

def eventRowCap : Nat := 512

variable {Metadata SafeMetadata : Type}

structure AdminOperationalEvent (SafeMetadata : Type) where
  eventId : JsString
  occurredAt : JsString
  kind : OperationalEventKind
  severity : Severity
  metadata : SafeMetadata

/-- `eventDto`, with `parseMetadata` and the sanitizer. -/
def eventDto (sanitizer : Sanitizer Metadata SafeMetadata) (parseMetadata : JsString → Metadata)
    (row : EventRow) : Except AdminFailure (AdminOperationalEvent SafeMetadata) := do
  let occurredAt ← toISOString row.occurredAtMs
  return {
    eventId := js (toString row.eventId)
    occurredAt
    kind := row.kind
    severity := row.severity
    metadata := sanitizer.operationalMetadata row.kind (parseMetadata row.metadataJson) }

namespace Database

variable (database : Database)

/-- The rows of an event query, after a cursor and in the order of their number. -/
def selectEvents (query : AdminEventQuery) (cursor : Option Nat) (limit : Nat) : List EventRow :=
  ((database.operationalEvents.rows.filter fun row =>
      query.selects row && cursor.all (· < row.eventId)).insertionSort fun left right =>
    left.eventId ≤ right.eventId).take limit

def queryEvents (sanitizer : Sanitizer Metadata SafeMetadata) (parseMetadata : JsString → Metadata)
    (query : AdminEventQuery) (aborted : Bool) (cursor : Option JsString) :
    Except AdminFailure (List (AdminOperationalEvent SafeMetadata) × Option JsString) := do
  if aborted then throw .aborted
  validateEventQuery query
  let cursor ← cursor.mapM decodeEventCursor
  let limit := min query.limit.toNat eventRowCap
  let rows := database.selectEvents query cursor (limit + 1)
  let pageRows := rows.take limit
  let items ← pageRows.mapM (eventDto sanitizer parseMetadata)
  return (items,
    if limit < rows.length then pageRows.getLast?.map fun row => encodeEventCursor row.eventId
    else none)

end Database

end GhcGateway.Telemetry
