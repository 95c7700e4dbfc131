/-
# The statements of the history

What the history store does to its database, below the level of its operations:
the expiry of receipts and of legacy responses, the two evictions, and the writing
of receipts and checkpoints. Each function is one method of the source or one group
of statements that always run together.
-/

import GhcGateway.History.Replay

namespace GhcGateway.History

open Library Conversion

/-! ## Ownership -/

def knownReplayFormatVersion (version : Option JsString) (first second : String) :
    Except HistoryError ReplayFormatVersion :=
  if version = some (js first) then .ok .one
  else if version = some (js second) then .ok .two
  else
    .error (.continuation .ownershipConflict "unknown converted continuation version")

def replayFormatVersion (ownership : Ownership) : Except HistoryError ReplayFormatVersion :=
  if ownership.owner ≠ .converted then
    .error (.continuation .ownershipConflict "invalid converted continuation ownership")
  else
    match ownership.upstreamProtocol with
    | .chat =>
      knownReplayFormatVersion ownership.conversionVersion "responses-chat-v1" "responses-chat-v2"
    | .messages =>
      knownReplayFormatVersion ownership.conversionVersion "responses-messages-v1"
        "responses-messages-v2"
    | .responses =>
      .error (.continuation .ownershipConflict "unknown converted continuation version")

def isKnownResponsesConversionVersion (protocol : InferenceProtocol)
    (version : Option JsString) : Bool :=
  match protocol with
  | .chat =>
    version = some (js "responses-chat-v1") || version = some (js "responses-chat-v2")
  | .messages =>
    version = some (js "responses-messages-v1") || version = some (js "responses-messages-v2")
  | .responses => false

def validateOwnership (ownership : ResponsesContinuationOwnership) : Except HistoryError Unit := do
  let _ ← requireNonEmpty ownership.accountId "accountId"
  let _ ← requireNonEmpty ownership.modelId "modelId"
  let _ ← requireNonEmpty ownership.upstreamOrigin "upstreamOrigin"
  match ownership.owner with
  | .native =>
    if ownership.upstreamProtocol ≠ .responses ∨ ownership.conversionVersion ≠ none then
      .error (.continuation .ownershipConflict "invalid native continuation ownership")
    else .ok ()
  | .converted =>
    if ownership.upstreamProtocol = .responses then
      .error (.continuation .ownershipConflict "invalid converted continuation ownership")
    else do
      let _ ← replayFormatVersion ownership.toOwnership
      .ok ()

def validateStoredOwnership (ownership : Ownership) : Except HistoryError Unit :=
  match ownership.owner with
  | .native =>
    unavailableIf (ownership.upstreamProtocol ≠ .responses ∨ ownership.conversionVersion ≠ none)
  | .converted =>
    unavailableIf (isKnownResponsesConversionVersion ownership.upstreamProtocol
      ownership.conversionVersion = false)

/-! ## Rows -/

namespace Database

def readReceipt (db : Database) (key : ReceiptKey) : Option ReceiptRow :=
  (db.receipts.find? key).map ReceiptRow.read

def bumpRevision (db : Database) : Database := { db with revision := db.revision + 1 }

def markUncertain (db : Database) : Database := { db with uncertain := true }

def setCheckpointState (db : Database) (key : ReceiptKey) (state : ResponsesCheckpointState) :
    Database :=
  { db with
    receipts := db.receipts.update key (fun row => { row with checkpointState := state })
      fun _ => rfl }

/-- `DELETE FROM response_scoped_checkpoints`, with the replay items. -/
def deleteCheckpoint (db : Database) (key : ReceiptKey) : Database :=
  { db with checkpoints := db.checkpoints.delete fun row => row.key = key }

def deleteResponseCarriers (db : Database) (key : ReceiptKey) : Database :=
  { db with
    carriers := db.carriers.delete fun row =>
      boundText row.binding.accountId = key.1 && row.responseId.map boundText = some key.2 }

/-- `DELETE FROM response_route_receipts`, with the checkpoints. -/
def deleteReceipts (db : Database) (condition : ReceiptKey → Bool) : Database :=
  { db with
    receipts := db.receipts.delete fun row => condition row.key
    checkpoints := db.checkpoints.delete fun row => condition row.key }

/-- `DELETE FROM responses` for some ids. -/
def deleteLegacy (db : Database) (responseIds : List JsString) : Database :=
  { db with legacy := db.legacy.delete fun row => row.responseId ∈ responseIds }

/-! ## Expiry -/

/-- The loop body of `expireReceipts`. -/
def expireReceipt (db : Database) (key : ReceiptKey) : Database :=
  ((db.deleteCheckpoint key).deleteResponseCarriers key).setCheckpointState key .expired

/-- The receipts whose time has come. -/
def dueReceipts (db : Database) (ttlMs now : Int) : List ReceiptRow :=
  db.receipts.rows.filter fun row =>
    row.checkpointState ≠ .expired && row.createdAtMs + ttlMs ≤ now

/-- `expireReceipts`, which selects the keys and then goes by what it has read. -/
def expireReceipts (db : Database) (ttlMs now : Int) : Database × Bool :=
  let expired := (db.dueReceipts ttlMs now).map fun row => ReceiptKey.read row.key
  if expired = [] then (db, false) else (expired.foldl expireReceipt db, true)

/-- The legacy responses whose time has come. -/
def dueLegacy (db : Database) (ttlMs now : Int) : List LegacyRow :=
  db.legacy.rows.filter fun row => row.createdAtMs + ttlMs ≤ now

def expireLegacy (db : Database) (ttlMs now : Int) : Database × Bool :=
  let expired := (db.dueLegacy ttlMs now).map fun row => columnText row.responseId
  if expired = [] then (db, false)
  else (db.markUncertain.deleteLegacy expired, true)

/-! ## Eviction -/

/-- `UPDATE response_route_receipts SET checkpoint_state = 'route_only'`, which
leaves an expired receipt alone. -/
def resetCheckpointState (db : Database) (key : ReceiptKey) : Database :=
  { db with
    receipts := db.receipts.update key
      (fun row =>
        { row with
          checkpointState := if row.checkpointState = .expired then .expired else .routeOnly })
      fun _ => rfl }

/-- What the eviction loops do to one checkpoint. -/
def evictCheckpoint (db : Database) (key : ReceiptKey) : Database :=
  ((db.deleteResponseCarriers key).deleteCheckpoint key).resetCheckpointState key

/-- The sum of `replay_bytes`. -/
def storedReplayBytes (db : Database) : Nat := db.checkpoints.total CheckpointRow.replayBytes

/-- The rows `evictCheckpointOverflow` counts. -/
def responses (db : Database) : Nat := db.checkpoints.size + db.legacy.size

section Overflow

variable (options : HistoryOptions)

def oldestLegacy (db : Database) (overflow : Nat) : List LegacyRow :=
  (db.legacy.orderedBy LegacyRow.insertionSeq).take overflow

/-- The legacy part of `evictCheckpointOverflow`, which goes by the ids it has read. -/
def evictLegacy (db : Database) (overflow : Nat) : Database × Nat :=
  let rows := (db.oldestLegacy overflow).map fun row => columnText row.responseId
  if rows = [] then (db, 0) else (db.markUncertain.deleteLegacy rows, rows.length)

def oldestCheckpoints (db : Database) (overflow : Nat) : List CheckpointRow :=
  (db.checkpoints.orderedBy CheckpointRow.insertionSeq).take overflow

def evictOldest (db : Database) (overflow : Nat) : Database × Bool :=
  let rows := (db.oldestCheckpoints overflow).map fun row => ReceiptKey.read row.key
  (rows.foldl evictCheckpoint db, rows ≠ [])

/-- The oldest checkpoints, as long as their bytes are too many. -/
def exceedingCheckpoints (db : Database) : List CheckpointRow :=
  Eviction.oldestExceeding CheckpointRow.replayBytes
    ((db.storedReplayBytes : Int) - options.maxStoredReplayBytes)
    (db.checkpoints.orderedBy CheckpointRow.insertionSeq)

def evictBytes (db : Database) : Database × Bool :=
  let rows := (db.exceedingCheckpoints options).map fun row => ReceiptKey.read row.key
  (rows.foldl evictCheckpoint db, rows ≠ [])

def evictCheckpointOverflow (db : Database) : Database × Bool :=
  let overflow := db.responses - options.maxResponses
  let (db, legacy) := db.evictLegacy overflow
  let (db, oldest) := db.evictOldest (overflow - legacy)
  let (db, bytes) := db.evictBytes options
  (db, legacy ≠ 0 || oldest || bytes)

/-- The receipts `evictReceiptOverflow` may remove, in its order: those without a
checkpoint, expired ones first, oldest first. -/
def removableReceipts (db : Database) : List ReceiptRow :=
  let rows := (db.receipts.orderedBy ReceiptRow.insertionSeq).filter fun row =>
    (db.checkpoints.find? row.key).isNone
  rows.filter (fun row => row.checkpointState = .expired) ++
    rows.filter fun row => row.checkpointState ≠ .expired

def excessReceipts (db : Database) : List ReceiptRow :=
  db.removableReceipts.take (db.receipts.size - options.maxReceipts)

def evictReceiptOverflow (db : Database) : Database × Bool :=
  let rows := (db.excessReceipts options).map fun row => ReceiptKey.read row.key
  (rows.foldl (fun db row => db.markUncertain.deleteReceipts fun key => key = row) db, rows ≠ [])

end Overflow

/-! ## Receipts -/

/-- The `INSERT` of a receipt. The checks of its columns repeat what
`validateOwnership` has checked. -/
def addReceipt (db : Database) (row : ReceiptRow) : Except HistoryError Database :=
  if db.receipts.rows.any fun other => other.insertionSeq = row.insertionSeq then .error .constraint
  else
    match free : db.receipts.find? row.key with
    | none =>
      .ok { db with
        receipts := db.receipts.insert row free
        nextReceiptSeq := db.nextReceiptSeq + 1 }
    | some _ => .error .constraint

/-- `upsertReceipt`. `now` is the clock where the receipt is written. -/
def upsertReceipt (accountIsActive : JsString → Bool) (ttlMs now : Int)
    (receipt : ResponsesReceiptRecord) (db : Database) : Except HistoryError (Database × Bool) := do
  validateOwnership receipt.toResponsesContinuationOwnership
  if accountIsActive receipt.accountId = false then
    .error (.continuation .checkpointUnavailable "bound account is no longer active")
  else
    let responseId ← requireNonEmpty receipt.responseId.trim "responseId"
    let key := storedKey receipt.accountId responseId
    match db.readReceipt key with
    | some existing =>
      if existing.ownership ≠ receipt.toOwnership then
        .error (.continuation .ownershipConflict "response id ownership conflict")
      else if existing.checkpointState = .expired then
        .error (.continuation .expired "response continuation expired")
      else if checkpointRank receipt.checkpointState.state ≤
          checkpointRank existing.checkpointState then
        .ok (db, false)
      else .ok (db.setCheckpointState key receipt.checkpointState.state, true)
    | none => do
      let db ← db.addReceipt {
        key := key
        ownership := receipt.toOwnership
        checkpointState := receipt.checkpointState.state
        insertionSeq := db.nextReceiptSeq
        createdAtMs := now
        expiresAtMs := now + ttlMs }
      .ok (db, true)

/-! ## Checkpoints -/

/-- The `INSERT` of a checkpoint and of its replay items. -/
def addCheckpoint (db : Database) (row : CheckpointRow) : Except HistoryError Database :=
  if db.checkpoints.rows.any (fun other => other.insertionSeq = row.insertionSeq) ||
      (db.receipts.find? row.key).isNone || ¬ ∀ item ∈ row.items, item.Checked then
    .error .constraint
  else
    match free : db.checkpoints.find? row.key with
    | none =>
      .ok { db with
        checkpoints := db.checkpoints.insert row free
        nextCheckpointSeq := db.nextCheckpointSeq + 1 }
    | some _ => .error .constraint

def newCheckpoint (db : Database) (key : ReceiptKey) (replay : StoredReplay) (now : Int) :
    CheckpointRow where
  key := key
  insertionSeq := db.nextCheckpointSeq
  createdAtMs := now
  replayFormatVersion := replay.formatVersion
  replayItemCount := replay.itemCount
  replayBytes := replay.bytes
  items := replay.items.map StoredReplayItem.row

def insertCheckpoint (db : Database) (key : ReceiptKey) (replay : StoredReplay) (now : Int) :
    Except HistoryError Database :=
  db.addCheckpoint (db.newCheckpoint key replay now)

/-- `insertFirstCheckpoint`, which bumps the revision itself. -/
def insertFirstCheckpoint (db : Database) (key : ReceiptKey) (replay : StoredReplay) (now : Int) :
    Except HistoryError Database := do
  let db ← db.addCheckpoint (db.newCheckpoint key replay now)
  .ok db.bumpRevision

section Checkpoints

variable (options : HistoryOptions)

def checkpointMatches (db : Database) (key : ReceiptKey) (replay : StoredReplay) :
    Except HistoryError Bool :=
  match (db.checkpoints.find? key).map CheckpointRow.read with
  | none => .ok false
  | some row => do
    let stored ← readReplay options row
    unavailableIf (stored.formatVersion ≠ replay.formatVersion)
    .ok (stored.itemCount = replay.itemCount && stored.bytes = replay.bytes &&
      replayItemsEqual stored.items replay.items)

def readResponse (db : Database) (key : ReceiptKey) : Except HistoryError (Option StoredResponse) :=
  match (db.checkpoints.find? key).map CheckpointRow.read with
  | none => .ok none
  | some row => do
    let replay ← readReplay options row
    let response ← responseFromReplay replay
    .ok (some response)

theorem key_withReplay (replay : StoredReplay) (row : CheckpointRow) :
    CheckpointRow.key { row with
      replayFormatVersion := replay.formatVersion
      replayItemCount := replay.itemCount
      replayBytes := replay.bytes
      items := replay.items.map StoredReplayItem.row } = row.key := rfl

/-- `upsertCheckpoint`. `now` is the clock where a new checkpoint is written. -/
def upsertCheckpoint (db : Database) (key : ReceiptKey) (replay : StoredReplay) (now : Int) :
    Except HistoryError (Database × Bool) := do
  if ← db.checkpointMatches options key replay then .ok (db, false)
  else
    match db.checkpoints.find? key with
    | none =>
      if replay.items = [] then .ok (db, false)
      else do
        let db ← db.insertCheckpoint key replay now
        .ok (db, true)
    | some _ =>
      if ¬ ∀ item ∈ replay.items, item.row.Checked then .error .constraint
      else .ok ({ db with
        checkpoints := db.checkpoints.update key
          (fun row => { row with
            replayFormatVersion := replay.formatVersion
            replayItemCount := replay.itemCount
            replayBytes := replay.bytes
            items := replay.items.map StoredReplayItem.row })
          (key_withReplay replay) }, true)

end Checkpoints

end Database

end GhcGateway.History
