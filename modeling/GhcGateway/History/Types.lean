/-
# What the Responses history keeps

A receipt says which account, model and upstream a response id belongs to; a
checkpoint belongs to a receipt and holds the items from which the conversation
can be replayed. Responses stored by an earlier version of the gateway belong to
no account. The marker of uncertainty remembers that receipts or such responses
have been dropped.

All of it is in one database, together with the reasoning carriers. The rows hold
texts as they were bound, and each is read as `columnText` says; the ids are those
that the database compares, `boundText`. Integer columns are unbounded, and the
replay items of a checkpoint, whose table refers to it with `ON DELETE CASCADE`,
are a field of its row.
-/

import GhcGateway.Conversion.ReasoningCarriers
import GhcGateway.Library.OrderedMap

namespace GhcGateway.History

open Library Conversion

/-! ## Ownership -/

inductive ResponsesContinuationOwner
  | native
  | converted
  deriving DecidableEq

inductive ResponsesCheckpointState
  | routeOnly
  | partialState
  | complete
  | expired
  deriving DecidableEq

/-- The states a checkpoint is recorded in, `"partial" | "complete"`. -/
inductive CheckpointProgress
  | partialState
  | complete
  deriving DecidableEq

/-- The states a receipt is recorded in, `"route_only" | "partial" | "complete"`. -/
inductive ReceiptProgress
  | routeOnly
  | partialState
  | complete

def ReceiptProgress.state : ReceiptProgress → ResponsesCheckpointState
  | .routeOnly => .routeOnly
  | .partialState => .partialState
  | .complete => .complete

def CheckpointProgress.receipt : CheckpointProgress → ReceiptProgress
  | .partialState => .partialState
  | .complete => .complete

def checkpointRank : ResponsesCheckpointState → Nat
  | .complete => 2
  | .partialState => 1
  | _ => 0

/-- `ResponsesContinuationOwnership` without its account. -/
structure Ownership where
  modelId : JsString
  upstreamOrigin : JsString
  owner : ResponsesContinuationOwner
  upstreamProtocol : InferenceProtocol
  conversionVersion : Option JsString
  deriving DecidableEq

/-- The ownership as its columns give it back. -/
def Ownership.read (ownership : Ownership) : Ownership :=
  { ownership with
    modelId := columnText ownership.modelId
    upstreamOrigin := columnText ownership.upstreamOrigin
    conversionVersion := ownership.conversionVersion.map columnText }

structure ResponsesContinuationOwnership extends Ownership where
  accountId : JsString
  deriving DecidableEq

structure ResponsesReceiptRecord extends ResponsesContinuationOwnership where
  responseId : JsString
  checkpointState : ReceiptProgress

/-! ## Replay -/

inductive ReplayFormatVersion
  | one
  | two
  deriving DecidableEq

inductive ResponsesCallKind
  | functionCall
  | customToolCall
  | toolSearchCall
  deriving DecidableEq

/-- `ResponsesCallKind` as it is spelled. -/
def ResponsesCallKind.text : ResponsesCallKind → String
  | .functionCall => "function_call"
  | .customToolCall => "custom_tool_call"
  | .toolSearchCall => "tool_search_call"

inductive ReplayItemKind
  | reasoning
  | call (kind : ResponsesCallKind)
  deriving DecidableEq

/-- `ReplayItemKind` as it is spelled. -/
def ReplayItemKind.text : ReplayItemKind → String
  | .reasoning => "reasoning"
  | .call kind => kind.text

/-- A row of `response_scoped_replay_items`, without the key of its
checkpoint. -/
structure ReplayItemRow where
  groupOrdinal : Nat
  itemOrdinal : Nat
  kind : ReplayItemKind
  callId : Option JsString
  itemJson : JsString
  itemBytes : Nat
  deriving DecidableEq

def ReplayItemRow.read (row : ReplayItemRow) : ReplayItemRow :=
  { row with callId := row.callId.map columnText, itemJson := columnText row.itemJson }

/-- `CHECK (… length(call_id) > 0)`, which counts the characters in front of the first NUL.
The other checks of the table repeat how the items are made. -/
def ReplayItemRow.Checked (row : ReplayItemRow) : Prop :=
  ∀ callId ∈ row.callId, columnText callId ≠ []

instance (row : ReplayItemRow) : Decidable row.Checked :=
  inferInstanceAs (Decidable (∀ callId ∈ row.callId, columnText callId ≠ []))

/-- `StoredReplayItem`. A reasoning item has no call id, and every call has
one. -/
structure StoredReplayItem where
  groupOrdinal : Nat
  itemOrdinal : Nat
  kind : ReplayItemKind
  callId : Option JsString
  item : WireJsonObject
  itemJson : JsString
  itemBytes : Nat
  deriving DecidableEq

def StoredReplayItem.row (item : StoredReplayItem) : ReplayItemRow :=
  ⟨item.groupOrdinal, item.itemOrdinal, item.kind, item.callId, item.itemJson, item.itemBytes⟩

structure StoredReplay where
  formatVersion : ReplayFormatVersion
  items : List StoredReplayItem
  itemCount : Nat
  bytes : Nat
  deriving DecidableEq

/-! ## Failures -/

/-- The codes of a `ResponsesContinuationError`. -/
inductive ContinuationCode
  | ownershipConflict
  | checkpointUnavailable
  | expired
  deriving DecidableEq

/-- What the history throws: a `ResponsesContinuationError`, the
`ResponsesHistoryAdminError`, a plain `Error` for an empty argument, an
`AbortError`, the database's answer to a row whose key is taken or whose parent is
missing, or what a finalize callback lets through from the carrier store. -/
inductive HistoryError
  | continuation (code : ContinuationCode) (message : String)
  | revisionConflict
  | emptyArgument (field : String)
  | aborted
  | constraint
  | carrier (error : CarrierError)
  deriving DecidableEq

def unavailableCheckpoint : HistoryError :=
  .continuation .checkpointUnavailable "response checkpoint is unavailable"

def requireNonEmpty (value : JsString) (field : String) : Except HistoryError JsString :=
  if value = [] then .error (.emptyArgument field) else .ok value

/-! ## The database -/

/-- An account and a response id, the primary key of receipts and checkpoints. -/
abbrev ReceiptKey := JsString × JsString

/-- The key under which the receipt of a response is stored. -/
def storedKey (accountId responseId : JsString) : ReceiptKey :=
  (boundText accountId, boundText responseId)

/-- The key that a query of its columns gives back. -/
def ReceiptKey.read (key : ReceiptKey) : ReceiptKey := (columnText key.1, columnText key.2)

/-- A row of `response_route_receipts`. `expires_at_ms` is given back to callers
but never compared. -/
structure ReceiptRow where
  key : ReceiptKey
  ownership : Ownership
  checkpointState : ResponsesCheckpointState
  insertionSeq : Nat
  createdAtMs : Int
  expiresAtMs : Int
  deriving DecidableEq

def ReceiptRow.read (row : ReceiptRow) : ReceiptRow :=
  { row with key := ReceiptKey.read row.key, ownership := row.ownership.read }

/-- A row of `response_scoped_checkpoints` with its replay items. Its
`expires_at_ms` is never read. -/
structure CheckpointRow where
  key : ReceiptKey
  insertionSeq : Nat
  createdAtMs : Int
  replayFormatVersion : ReplayFormatVersion
  replayItemCount : Nat
  replayBytes : Nat
  items : List ReplayItemRow

def CheckpointRow.read (row : CheckpointRow) : CheckpointRow :=
  { row with key := ReceiptKey.read row.key, items := row.items.map ReplayItemRow.read }

/-- A row of `responses`, stored before receipts existed. Its calls are only ever
deleted with it. -/
structure LegacyRow where
  responseId : JsString
  insertionSeq : Nat
  createdAtMs : Int

/-- The tables the history works on. `uncertain` is whether
`response_receipt_uncertainty` has its row; the counters are
`responses_continuation_state`. -/
structure Database where
  receipts : Table ReceiptRow.key
  checkpoints : Table CheckpointRow.key
  legacy : Table LegacyRow.responseId
  uncertain : Bool
  carriers : CarrierTable
  revision : Nat
  nextReceiptSeq : Nat
  nextCheckpointSeq : Nat

def Database.empty : Database :=
  ⟨Table.empty, Table.empty, Table.empty, false, Table.empty, 0, 1, 1⟩

/-- `ResponsesHistoryOptions` without the clock, the time to live and the account
check. The constructor accepts only positive replay limits. -/
structure HistoryOptions where
  maxResponses : Nat
  maxReceipts : Nat
  maxReplayItems : Nat
  maxReplayItemBytes : Nat
  maxReplayBytes : Nat
  maxStoredReplayBytes : Nat
  positiveItems : 1 ≤ maxReplayItems
  positiveItemBytes : 1 ≤ maxReplayItemBytes
  positiveBytes : 1 ≤ maxReplayBytes
  positiveStoredBytes : 1 ≤ maxStoredReplayBytes

/-- The limits where the gateway does not choose others. -/
def HistoryOptions.defaults : HistoryOptions where
  maxResponses := 512
  maxReceipts := 2048
  maxReplayItems := 1024
  maxReplayItemBytes := 4194304
  maxReplayBytes := 33554432
  maxStoredReplayBytes := 33554432
  positiveItems := by decide
  positiveItemBytes := by decide
  positiveBytes := by decide
  positiveStoredBytes := by decide

end GhcGateway.History
