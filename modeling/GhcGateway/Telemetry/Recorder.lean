/-
# The telemetry recorder

`TelemetryRecorder` keeps usage updates and operational events in a bounded queue and
writes them in batches, each in one transaction. What the queue has no room for is counted
by two counters, which a flush moves to the database.

A transaction that fails leaves the database as it was; what it has done to the members of
the recorder stays. A number given from outside says how many of its statements succeed.
-/

import GhcGateway.Library.Attempt
import GhcGateway.Library.Schedule
import GhcGateway.Library.Table
import GhcGateway.Serialization.Text

namespace GhcGateway.Telemetry

open Library

def maxSafeInteger : Nat := 9007199254740991

def saturate (value : Nat) : Nat := min value maxSafeInteger

/-! ## What is recorded -/

inductive TelemetryProtocol
  | openaiChat
  | openaiResponsesUnknown
  | openaiResponsesNative
  | openaiResponsesBridge
  | anthropic
  deriving DecidableEq

def TelemetryProtocol.text : TelemetryProtocol → JsString
  | .openaiChat => js "openai_chat"
  | .openaiResponsesUnknown => js "openai_responses_unknown"
  | .openaiResponsesNative => js "openai_responses_native"
  | .openaiResponsesBridge => js "openai_responses_bridge"
  | .anthropic => js "anthropic"

inductive TelemetryOutcome
  | success
  | clientError
  | authenticationError
  | overloaded
  | upstreamError
  | timeout
  | aborted
  | internalError
  deriving DecidableEq

def TelemetryOutcome.text : TelemetryOutcome → JsString
  | .success => js "success"
  | .clientError => js "client_error"
  | .authenticationError => js "authentication_error"
  | .overloaded => js "overloaded"
  | .upstreamError => js "upstream_error"
  | .timeout => js "timeout"
  | .aborted => js "aborted"
  | .internalError => js "internal_error"

structure UsageUpdate where
  occurredAtMs : Int
  accountId : JsString
  protocol : TelemetryProtocol
  resolvedModel : JsString
  outcome : TelemetryOutcome
  requestCount : Nat
  errorCount : Nat
  inputTokens : Nat
  outputTokens : Nat
  cacheTokens : Nat
  latencyMs : Nat

inductive OperationalEventKind
  | gatewayStarted
  | gatewayStopped
  | requestFailed
  | accountAuthenticated
  | accountRemoved
  | defaultAccountChanged
  | preferredModelChanged
  | runtimeConfigChanged
  | catalogRefreshed
  | performanceDegraded
  | performanceRecovered
  | telemetryDropped
  | metadataRejected
  | daemonStartFailed
  deriving DecidableEq

inductive Severity
  | info
  | warning
  | error
  deriving DecidableEq

/-- `sanitize.ts`: what is stored of some metadata (`none` where it is rejected for its
length), and what an observer of an event of some kind is told. -/
structure Sanitizer (Metadata SafeMetadata : Type) where
  metadataJson : Metadata → Option JsString
  operationalMetadata : OperationalEventKind → Metadata → SafeMetadata
  rejectedMetadata : SafeMetadata

structure OperationalEventInput (Metadata : Type) where
  occurredAtMs : Int
  kind : OperationalEventKind
  severity : Severity
  metadata : Metadata

structure RecordedOperationalEvent (SafeMetadata : Type) where
  eventId : Nat
  occurredAtMs : Int
  kind : OperationalEventKind
  severity : Severity
  metadata : SafeMetadata

def floorToUtcHour (ms : Int) : Int := ms / 3600000 * 3600000

def usageKey (update : UsageUpdate) : JsString :=
  ([js (toString (floorToUtcHour update.occurredAtMs)), update.accountId, update.protocol.text,
    update.resolvedModel, update.outcome.text].intersperse [0]).flatten

def mergeUsage (left right : UsageUpdate) : UsageUpdate where
  occurredAtMs := left.occurredAtMs
  accountId := left.accountId
  protocol := left.protocol
  resolvedModel := left.resolvedModel
  outcome := left.outcome
  requestCount := left.requestCount + right.requestCount
  errorCount := left.errorCount + right.errorCount
  inputTokens := left.inputTokens + right.inputTokens
  outputTokens := left.outputTokens + right.outputTokens
  cacheTokens := left.cacheTokens + right.cacheTokens
  latencyMs := left.latencyMs + right.latencyMs

/-! ## The database -/

/-- The primary key of `usage_buckets`. -/
structure UsageKey where
  utcHourMs : Int
  accountId : JsString
  protocol : TelemetryProtocol
  resolvedModel : JsString
  outcome : TelemetryOutcome
  deriving DecidableEq

/-- The columns of text, as the database compares them. -/
def UsageKey.texts (key : UsageKey) : List (List UInt8) :=
  [encodeUtf8 key.accountId, encodeUtf8 key.protocol.text, encodeUtf8 key.resolvedModel,
    encodeUtf8 key.outcome.text]

def UsageKey.precedes (left right : UsageKey) : Prop :=
  left.utcHourMs < right.utcHourMs ∨ left.utcHourMs = right.utcHourMs ∧ left.texts ≤ right.texts

instance : DecidableRel UsageKey.precedes := fun left right => by
  unfold UsageKey.precedes
  infer_instance

/-- A row of `usage_buckets`. -/
structure UsageBucket where
  key : UsageKey
  requestCount : Nat
  errorCount : Nat
  inputTokens : Nat
  outputTokens : Nat
  cacheTokens : Nat
  latencySumMs : Nat
  latencyMaxMs : Nat

/-- A row of `operational_events`. -/
structure EventRow where
  eventId : Nat
  occurredAtMs : Int
  kind : OperationalEventKind
  severity : Severity
  metadataJson : JsString

/-- The tables the recorder writes. `nextEventId` is the number that `AUTOINCREMENT` gives
next. `removedRequests` and `removedEvents` are no columns: they count what the cleanup has
deleted. -/
structure Database where
  usageBuckets : Table UsageBucket.key
  operationalEvents : Table EventRow.eventId
  nextEventId : Nat
  numbered : operationalEvents.Numbered EventRow.eventId nextEventId
  droppedUsageUpdates : Nat
  droppedOperationalEvents : Nat
  updatedAtMs : Int
  removedRequests : Nat
  removedEvents : Nat

namespace Database

/-- The row that `upsertUsage` inserts. -/
def bucketOf (update : UsageUpdate) (latencySumMs latencyMaxMs : Nat) : UsageBucket where
  key := ⟨floorToUtcHour update.occurredAtMs, update.accountId, update.protocol,
    update.resolvedModel, update.outcome⟩
  requestCount := update.requestCount
  errorCount := update.errorCount
  inputTokens := update.inputTokens
  outputTokens := update.outputTokens
  cacheTokens := update.cacheTokens
  latencySumMs := latencySumMs
  latencyMaxMs := latencyMaxMs

/-- What `ON CONFLICT` does to the row that is there. -/
def addBucket (excluded bucket : UsageBucket) : UsageBucket where
  key := bucket.key
  requestCount := bucket.requestCount + excluded.requestCount
  errorCount := bucket.errorCount + excluded.errorCount
  inputTokens := bucket.inputTokens + excluded.inputTokens
  outputTokens := bucket.outputTokens + excluded.outputTokens
  cacheTokens := bucket.cacheTokens + excluded.cacheTokens
  latencySumMs := bucket.latencySumMs + excluded.latencySumMs
  latencyMaxMs := max bucket.latencyMaxMs excluded.latencyMaxMs

theorem key_addBucket (excluded bucket : UsageBucket) :
    (addBucket excluded bucket).key = bucket.key := rfl

/-- The statement of `upsertUsage`. -/
def upsertUsage (database : Database) (excluded : UsageBucket) : Database :=
  if free : database.usageBuckets.find? excluded.key = none then
    { database with usageBuckets := database.usageBuckets.insert excluded free }
  else
    { database with
      usageBuckets :=
        database.usageBuckets.update excluded.key (addBucket excluded) (key_addBucket excluded) }

/-- The number that comes next is free. -/
theorem free_nextEventId (database : Database) :
    database.operationalEvents.find? database.nextEventId = none :=
  Table.find?_eq_none.mpr fun row member => Nat.ne_of_lt (database.numbered.below row member)

/-- The statement of `insertEvent`. -/
def insertEvent (database : Database) (occurredAtMs : Int) (kind : OperationalEventKind)
    (severity : Severity) (metadataJson : JsString) : Database :=
  { database with
    operationalEvents := database.operationalEvents.insert
      ⟨database.nextEventId, occurredAtMs, kind, severity, metadataJson⟩ database.free_nextEventId
    nextEventId := database.nextEventId + 1
    numbered := database.numbered.insert _ rfl }

/-- The statement of `persistDrops`. -/
def persistDrops (database : Database) (droppedUsage droppedEvents : Nat) (now : Int) : Database :=
  { database with
    droppedUsageUpdates := min (database.droppedUsageUpdates + droppedUsage) maxSafeInteger
    droppedOperationalEvents :=
      min (database.droppedOperationalEvents + droppedEvents) maxSafeInteger
    updatedAtMs := now }

/-- `DELETE FROM usage_buckets WHERE …`. -/
def deleteUsage (database : Database) (condition : UsageBucket → Bool) : Database :=
  { database with
    usageBuckets := database.usageBuckets.delete condition
    removedRequests := database.removedRequests +
      (database.usageBuckets.total UsageBucket.requestCount -
        (database.usageBuckets.delete condition).total UsageBucket.requestCount) }

/-- `DELETE FROM operational_events WHERE …`. -/
def deleteEvents (database : Database) (condition : EventRow → Bool) : Database :=
  { database with
    operationalEvents := database.operationalEvents.delete condition
    numbered := database.numbered.delete condition
    removedEvents := database.removedEvents +
      (database.operationalEvents.size - (database.operationalEvents.delete condition).size) }

/-- The first buckets in the order of their key. -/
def firstBuckets (database : Database) (count : Nat) : List UsageKey :=
  ((database.usageBuckets.rows.map UsageBucket.key).insertionSort UsageKey.precedes).take count

/-- The first events in the order of their number. -/
def firstEvents (database : Database) (count : Nat) : List Nat :=
  ((database.operationalEvents.rows.map EventRow.eventId).insertionSort (· ≤ ·)).take count

end Database

/-! ## The recorder -/

inductive Pending (SafeMetadata : Type)
  | usage (seq : Nat) (key : JsString) (update : UsageUpdate) (latencySumMs latencyMaxMs : Nat)
  | event (seq : Nat) (occurredAtMs : Int) (severity : Severity) (json : JsString)
      (kind observerKind : OperationalEventKind) (observerMetadata : SafeMetadata)

variable {Metadata SafeMetadata : Type}

namespace Pending

def isUsage : Pending SafeMetadata → Bool
  | .usage .. => true
  | .event .. => false

def isEvent (item : Pending SafeMetadata) : Bool := !item.isUsage

def hasKey (key : JsString) : Pending SafeMetadata → Bool
  | .usage _ other _ _ _ => other = key
  | .event .. => false

def requestCount : Pending SafeMetadata → Nat
  | .usage _ _ update _ _ => update.requestCount
  | .event .. => 0

def merge (update : UsageUpdate) : Pending SafeMetadata → Pending SafeMetadata
  | .usage seq key existing latencySumMs latencyMaxMs =>
    .usage seq key (mergeUsage existing update) (latencySumMs + update.latencyMs)
      (max latencyMaxMs update.latencyMs)
  | item => item

end Pending

structure RecorderLimits where
  usageRowCap : Nat
  eventRowCap : Nat
  queueCap : Nat

/-- `TelemetryRecorder`; `observing` says whether it has an observer. -/
structure TelemetryRecorder (SafeMetadata : Type) where
  pending : List (Pending SafeMetadata)
  seq : Nat
  droppedUsage : Nat
  droppedEvents : Nat
  observing : Bool
  usageRetentionMs : Int
  eventRetentionMs : Int

namespace TelemetryRecorder

/-- `pending.push` of a new update. -/
def pushUsage (recorder : TelemetryRecorder SafeMetadata) (update : UsageUpdate) :
    TelemetryRecorder SafeMetadata :=
  { recorder with
    pending := recorder.pending ++
      [.usage (recorder.seq + 1) (usageKey update) update update.latencyMs update.latencyMs]
    seq := recorder.seq + 1 }

def recordUsage (limits : RecorderLimits) (recorder : TelemetryRecorder SafeMetadata)
    (update : UsageUpdate) : TelemetryRecorder SafeMetadata :=
  if recorder.pending.any (Pending.hasKey (usageKey update)) then
    { recorder with
      pending := recorder.pending.modify
        (recorder.pending.findIdx (Pending.hasKey (usageKey update))) (Pending.merge update) }
  else if recorder.pending.length < limits.queueCap then recorder.pushUsage update
  else
    match recorder.pending.find? Pending.isUsage with
    | none =>
      { recorder with droppedUsage := saturate (recorder.droppedUsage + update.requestCount) }
    | some evicted =>
      { recorder with
        pending := recorder.pending.eraseIdx (recorder.pending.findIdx Pending.isUsage)
        droppedUsage := saturate (recorder.droppedUsage + evicted.requestCount) }.pushUsage update

/-- The member of the queue that `recordEvent` adds. -/
def pendingEvent (sanitizer : Sanitizer Metadata SafeMetadata) (seq : Nat)
    (input : OperationalEventInput Metadata) : Pending SafeMetadata :=
  match sanitizer.metadataJson input.metadata with
  | some json =>
    -- an event of the kind `metadata_rejected` tells its observer no more than that
    .event seq input.occurredAtMs input.severity json input.kind input.kind
      (if input.kind = .metadataRejected then sanitizer.rejectedMetadata
      else sanitizer.operationalMetadata input.kind input.metadata)
  | none =>
    .event seq input.occurredAtMs input.severity (js "\x7b\"reason\":\"metadata_rejected\"\x7d")
      .metadataRejected .metadataRejected sanitizer.rejectedMetadata

/-- `pending.push` of a new event. -/
def pushEvent (sanitizer : Sanitizer Metadata SafeMetadata)
    (recorder : TelemetryRecorder SafeMetadata) (input : OperationalEventInput Metadata) :
    TelemetryRecorder SafeMetadata :=
  { recorder with
    pending := recorder.pending ++ [pendingEvent sanitizer (recorder.seq + 1) input]
    seq := recorder.seq + 1 }

def recordEvent (sanitizer : Sanitizer Metadata SafeMetadata) (limits : RecorderLimits)
    (recorder : TelemetryRecorder SafeMetadata) (input : OperationalEventInput Metadata) :
    TelemetryRecorder SafeMetadata :=
  if recorder.pending.length < limits.queueCap then recorder.pushEvent sanitizer input
  else if recorder.pending.any Pending.isEvent then
    { recorder with
      pending := recorder.pending.eraseIdx (recorder.pending.findIdx Pending.isEvent)
      droppedEvents := saturate (recorder.droppedEvents + 1) }.pushEvent sanitizer input
  else { recorder with droppedEvents := saturate (recorder.droppedEvents + 1) }

end TelemetryRecorder

/-! ## The transaction of a flush -/

inductive SqliteError
  | failed
  deriving DecidableEq

/-- What the function given to `database.transaction` works on. The transaction fails
where `failsAfter` is a number, after that many of its statements. -/
structure Transaction (SafeMetadata : Type) where
  database : Database
  droppedUsage : Nat
  droppedEvents : Nat
  recordedEvents : List (RecordedOperationalEvent SafeMetadata)
  failsAfter : Option Nat

abbrev InTransaction (SafeMetadata α : Type) := EStateM SqliteError (Transaction SafeMetadata) α

namespace Transaction

def statement : InTransaction SafeMetadata PUnit := fun transaction =>
  match transaction.failsAfter with
  | none => .ok ⟨⟩ transaction
  | some 0 => .error .failed transaction
  | some (count + 1) => .ok ⟨⟩ { transaction with failsAfter := some count }

def execute (change : Database → Database) : InTransaction SafeMetadata PUnit := do
  statement
  modify fun transaction => { transaction with database := change transaction.database }

def query {α : Type} (ask : Database → α) : InTransaction SafeMetadata α := do
  statement
  let transaction ← get
  return ask transaction.database

def commit : InTransaction SafeMetadata PUnit := fun transaction =>
  match transaction.failsAfter with
  | none => .ok ⟨⟩ transaction
  | some _ => .error .failed transaction

/-- `insertEvent`, with the event that an observer is told of. -/
def insertEvent (createObserverDto : Bool) (occurredAtMs : Int) (severity : Severity)
    (json : JsString) (kind observerKind : OperationalEventKind) (observerMetadata : SafeMetadata) :
    InTransaction SafeMetadata PUnit := do
  statement
  modify fun transaction =>
    { transaction with
      database := transaction.database.insertEvent occurredAtMs kind severity json
      recordedEvents :=
        if createObserverDto then
          transaction.recordedEvents ++
            [⟨transaction.database.nextEventId, occurredAtMs, observerKind, severity,
              observerMetadata⟩]
        else transaction.recordedEvents }

/-- A member of the queue is written. -/
def write (createObserverDto : Bool) : Pending SafeMetadata → InTransaction SafeMetadata PUnit
  | .usage _ _ update latencySumMs latencyMaxMs =>
    execute fun database =>
      database.upsertUsage (Database.bucketOf update latencySumMs latencyMaxMs)
  | .event _ occurredAtMs severity json kind observerKind observerMetadata =>
    insertEvent createObserverDto occurredAtMs severity json kind observerKind observerMetadata

def writeAll (createObserverDto : Bool) :
    List (Pending SafeMetadata) → InTransaction SafeMetadata PUnit
  | [] => pure ⟨⟩
  | item :: items => do
    write createObserverDto item
    writeAll createObserverDto items

/-- The statement of `persistDrops`, and what follows it. -/
def moveDrops (now : Int) (droppedUsage droppedEvents : Nat) :
    InTransaction SafeMetadata PUnit := do
  execute fun database => database.persistDrops droppedUsage droppedEvents now
  modify fun transaction => { transaction with droppedUsage := 0, droppedEvents := 0 }

def persistDrops (now : Int) : InTransaction SafeMetadata PUnit := do
  let transaction ← get
  if transaction.droppedUsage = 0 ∧ transaction.droppedEvents = 0 then pure ⟨⟩
  else moveDrops now transaction.droppedUsage transaction.droppedEvents

/-- The buckets beyond the cap are deleted. -/
def capUsage (cap : Nat) : InTransaction SafeMetadata PUnit := do
  let count ← query fun database => database.usageBuckets.size
  if cap < count then
    execute fun database => database.deleteUsage fun row =>
      decide (row.key ∈ database.firstBuckets (count - cap))
  else pure ⟨⟩

def capEvents (cap : Nat) : InTransaction SafeMetadata PUnit := do
  let count ← query fun database => database.operationalEvents.size
  if cap < count then
    execute fun database => database.deleteEvents fun row =>
      decide (row.eventId ∈ database.firstEvents (count - cap))
  else pure ⟨⟩

def cleanup (limits : RecorderLimits) (usageRetentionMs eventRetentionMs now : Int) :
    InTransaction SafeMetadata PUnit := do
  execute fun database => database.deleteUsage fun row =>
    decide (row.key.utcHourMs < floorToUtcHour (now - usageRetentionMs))
  capUsage limits.usageRowCap
  execute fun database => database.deleteEvents fun row =>
    decide (row.occurredAtMs ≤ now - eventRetentionMs)
  capEvents limits.eventRowCap

end Transaction

open Transaction

/-- The outcome of `flush`; the observer is told of `observed`. -/
structure Flushed (SafeMetadata : Type) where
  recorder : TelemetryRecorder SafeMetadata
  database : Database
  observed : List (RecordedOperationalEvent SafeMetadata)
  thrown : Bool

namespace TelemetryRecorder

/-- The members of the queue that a flush takes; `none` is no bound. -/
def batchSize (recorder : TelemetryRecorder SafeMetadata) (maxMutations : Option Nat) : Nat :=
  maxMutations.getD recorder.pending.length

/-- The transaction of `flush`. -/
def transaction (limits : RecorderLimits) (recorder : TelemetryRecorder SafeMetadata) (now : Int)
    (batch : List (Pending SafeMetadata)) : InTransaction SafeMetadata PUnit := do
  writeAll recorder.observing batch
  persistDrops now
  cleanup limits recorder.usageRetentionMs recorder.eventRetentionMs now
  commit

def flush (limits : RecorderLimits) (recorder : TelemetryRecorder SafeMetadata)
    (database : Database) (aborted : Bool) (maxMutations : Option Nat) (now : Int)
    (failsAfter : Option Nat) : Flushed SafeMetadata :=
  if aborted then ⟨recorder, database, [], false⟩
  else
    let batch := recorder.pending.take (recorder.batchSize maxMutations)
    let rest := recorder.pending.drop (recorder.batchSize maxMutations)
    match recorder.transaction limits now batch
        ⟨database, recorder.droppedUsage, recorder.droppedEvents, [], failsAfter⟩ with
    | .ok _ done =>
      { recorder :=
          { recorder with
            pending := rest
            droppedUsage := done.droppedUsage
            droppedEvents := done.droppedEvents }
        database := done.database
        observed := done.recordedEvents
        thrown := false }
    | .error _ done =>
      { recorder :=
          { recorder with
            pending := batch ++ rest
            droppedUsage := done.droppedUsage
            droppedEvents := done.droppedEvents }
        database
        observed := []
        thrown := true }

def droppedCounters (recorder : TelemetryRecorder SafeMetadata) (database : Database) : Nat × Nat :=
  (saturate (recorder.droppedUsage + database.droppedUsageUpdates),
    saturate (recorder.droppedEvents + database.droppedOperationalEvents))

end TelemetryRecorder

end GhcGateway.Telemetry
