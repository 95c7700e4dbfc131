/-
# The history store

The operations of `SqliteResponsesHistory`. Each runs to its end without another
one in between; what it reads from outside, the clock at each place it is read, the
accounts that are active and whether the request is aborted, is an input of its
own. A finalize callback is what the endpoint passes: a change of the carriers that
may throw.

Besides its database the store keeps `recentReceiptCleanup`. For a response whose
receipt was recorded a moment ago it remembers until when no receipt and no legacy
response can expire, and lets `recordCheckpoint` skip the expiry until then.
-/

import GhcGateway.History.Database

namespace GhcGateway.History

open Library Conversion

/-- The store: its database, its time to live and the memo of recent cleanups,
whose values may be infinite. -/
structure HistoryStore where
  db : Database
  ttlMs : Int
  recentReceiptCleanup : OrderedMap JsString (Option Int)

/-- What an operation reads from outside. The clock is read for the two checks of
`recordCheckpoint`, at the start of a transaction, and where a receipt or a
checkpoint is written. -/
structure HistoryHost where
  firstCheck : Int
  secondCheck : Int
  transaction : Int
  receiptWritten : Int
  checkpointWritten : Int
  accountIsActive : JsString → Bool
  abortedBefore : Bool
  abortedAfter : Bool

/-- A call during which the clock stands still, with every account active. -/
def HistoryHost.still (now : Int) : HistoryHost :=
  ⟨now, now, now, now, now, fun _ => true, false, false⟩

abbrev Finalize := CarrierTable → Except CarrierError CarrierTable

/-- What an operation gives back and the store after it. -/
abbrev Answer (α : Type) := Except HistoryError α × HistoryStore

structure ResponsesHistoryRecord where
  responseId : JsString
  output : ResponseOutput

structure ResponsesRouteReceipt extends ResponsesContinuationOwnership where
  responseId : JsString
  checkpointState : ResponsesCheckpointState
  expiresAt : Int
  deriving DecidableEq

inductive ResponsesContinuationResolution
  | none
  | owned (receipt : ResponsesRouteReceipt)
  | expired
  | legacyUnowned
  | untrackedBlocked
  | ownedByAnotherAccount
  deriving DecidableEq

/-- `ResponsesHistoryInspection`, without the options. -/
structure ResponsesHistoryInspection where
  revision : Nat
  count : Nat
  receiptCount : Nat
  legacyCount : Nat
  untrackedContinuationBlocked : Bool
  oldestAt : Option Int
  newestAt : Option Int
  ttlMs : Int
  deriving DecidableEq

def toReceipt (row : ReceiptRow) : ResponsesRouteReceipt where
  toOwnership := row.ownership
  accountId := row.key.1
  responseId := row.key.2
  checkpointState := row.checkpointState
  expiresAt := row.expiresAtMs

def receiptCleanupKey (accountId responseId : JsString) : JsString :=
  accountId ++ [0x00] ++ responseId

def throwIfAborted {α : Type} (aborted : Bool) (result : Except HistoryError α) :
    Except HistoryError α :=
  if aborted then .error .aborted else result

/-! ## Transactions -/

section Store

variable (options : HistoryOptions)

/-- The callback of `mutateIfChanged`'s transaction. -/
def mutation (ttlMs now : Int) (work : Database → Except HistoryError (Database × Bool))
    (db : Database) : Except HistoryError Database := do
  let (db, receiptsExpired) := db.expireReceipts ttlMs now
  let (db, legacyExpired) := db.expireLegacy ttlMs now
  let (db, changed) ← work db
  if receiptsExpired || legacyExpired || changed then
    .ok ((db.evictCheckpointOverflow options).1.evictReceiptOverflow options).1.bumpRevision
  else .ok db

/-- `mutateIfChanged(() => false)`. -/
def sweep (ttlMs now : Int) (db : Database) : Database :=
  let (db, receiptsExpired) := db.expireReceipts ttlMs now
  let (db, legacyExpired) := db.expireLegacy ttlMs now
  if receiptsExpired || legacyExpired then
    ((db.evictCheckpointOverflow options).1.evictReceiptOverflow options).1.bumpRevision
  else db

theorem mutation_nothing (ttlMs now : Int) (db : Database) :
    mutation options ttlMs now (fun db => .ok (db, false)) db =
      .ok (sweep options ttlMs now db) := by
  simp only [mutation, sweep, bind, Except.bind, Bool.or_false]
  split <;> rfl

/-- A finalize callback run on the carriers of the database. -/
def runFinalize (finalize : Option Finalize) (db : Database) : Except HistoryError Database :=
  match finalize with
  | none => .ok db
  | some finalize =>
    match finalize db.carriers with
    | .error error => .error (.carrier error)
    | .ok carriers => .ok { db with carriers := carriers }

/-- The finalize callback of a complete checkpoint. -/
def finalizeCheckpoint (progress : CheckpointProgress) (finalize : Option Finalize)
    (db : Database) : Except HistoryError Database :=
  match progress with
  | .partialState => .ok db
  | .complete => runFinalize finalize db

namespace HistoryStore

/-- `new SqliteResponsesHistory(database, options)`. -/
def start (ttlMs now : Int) (db : Database) : HistoryStore :=
  ⟨sweep options ttlMs now db, ttlMs, OrderedMap.empty⟩

/-- A transaction: its changes, or none if its callback throws. -/
def transact (store : HistoryStore) (work : Database → Except HistoryError Database) :
    Answer Unit :=
  match work store.db with
  | .error error => (.error error, store)
  | .ok db => (.ok (), { store with db := db })

/-! ## Recording a receipt -/

/-- `MIN(expires_at_ms)` over the receipts that have not expired and the legacy
responses. -/
def cleanupValidUntil (store : HistoryStore) : Option Int :=
  let expiries :=
    ((store.db.receipts.rows.filter fun row => row.checkpointState ≠ .expired).map
        fun row => row.createdAtMs + store.ttlMs) ++
      store.db.legacy.rows.map fun row => row.createdAtMs + store.ttlMs
  expiries.min?

/-- The memo without its oldest entries. -/
def boundMemo (maxReceipts : Nat) (memo : OrderedMap JsString (Option Int)) :
    OrderedMap JsString (Option Int) where
  entries := memo.entries.drop (memo.entries.length - maxReceipts)
  nodup := memo.nodup.sublist ((List.drop_sublist _ _).map Prod.fst)

def rememberReceiptCleanup (accountId responseId : JsString) (store : HistoryStore) :
    HistoryStore :=
  { store with
    recentReceiptCleanup := boundMemo options.maxReceipts
      (store.recentReceiptCleanup.set (receiptCleanupKey accountId responseId)
        store.cleanupValidUntil) }

def recordReceipt (host : HistoryHost) (receipt : ResponsesReceiptRecord) (store : HistoryStore) :
    Answer Unit :=
  if host.abortedBefore then (.error .aborted, store)
  else
    match mutation options store.ttlMs host.transaction
        (Database.upsertReceipt host.accountIsActive store.ttlMs host.receiptWritten receipt)
        store.db with
    | .error error => (.error error, store)
    | .ok db =>
      (throwIfAborted host.abortedAfter (.ok ()),
        rememberReceiptCleanup options receipt.accountId receipt.responseId
          { store with db := db })

/-! ## Recording a checkpoint -/

/-- What `recordCheckpoint` checks and computes before it looks at the database:
the response id and the replay. -/
def prepareCheckpoint (host : HistoryHost) (record : ResponsesHistoryRecord)
    (ownership : ResponsesContinuationOwnership) :
    Except HistoryError (JsString × StoredReplay) := do
  let responseId ← requireNonEmpty record.responseId.trim "responseId"
  validateOwnership ownership
  if ownership.owner ≠ .converted then
    .error (.continuation .ownershipConflict "native continuation cannot store local history")
  else if host.accountIsActive ownership.accountId = false then
    .error (.continuation .checkpointUnavailable "bound account is no longer active")
  else do
    let formatVersion ← replayFormatVersion ownership.toOwnership
    let replay ← extractRecordableReplay options record.output formatVersion
    .ok (responseId, replay)

/-- The receipt `recordCheckpoint` may build on: it has not expired, its time has
not come, and its ownership is the caller's. -/
def usableReceipt (store : HistoryStore) (now : Int) (key : ReceiptKey) (ownership : Ownership) :
    Option ReceiptRow :=
  match store.db.readReceipt key with
  | none => none
  | some existing =>
    if existing.checkpointState ≠ .expired ∧ now < existing.createdAtMs + store.ttlMs ∧
        existing.ownership = ownership then
      some existing
    else none

/-- `replay.items.length === 0 || this.checkpointMatches(…)`. -/
def replayMatches (db : Database) (key : ReceiptKey) (replay : StoredReplay) :
    Except HistoryError Bool :=
  if replay.items = [] then .ok true else db.checkpointMatches options key replay

/-- A finalize callback needs a checkpoint: where the replay is empty it has to be
stored already. -/
def requireCheckpoint (db : Database) (key : ReceiptKey) (replay : StoredReplay)
    (finalize : Option Finalize) : Except HistoryError Unit :=
  if finalize.isSome ∧ replay.items = [] then do
    let response ← db.readResponse options key
    if response = none then .error unavailableCheckpoint else .ok ()
  else .ok ()

/-- What the transaction of `recordCheckpoint` does with the receipt it found:
raise it, store the replay and evict. The flag says whether to bump the
revision. -/
def storeCheckpoint (host : HistoryHost) (canSkipExpiry : Bool) (key : ReceiptKey)
    (replay : StoredReplay) (progress : CheckpointProgress) (current : ReceiptRow)
    (db : Database) : Except HistoryError (Database × Bool × Bool) := do
  let receiptChanged :=
    decide (checkpointRank current.checkpointState < checkpointRank progress.receipt.state)
  let db := if receiptChanged then db.setCheckpointState key progress.receipt.state else db
  if replay.items = [] then .ok (db, receiptChanged, false)
  else if canSkipExpiry && decide (current.checkpointState = .routeOnly) then do
    let db ← db.insertFirstCheckpoint key replay host.transaction
    .ok (db, true, true)
  else do
    let (db, checkpointChanged) ← db.upsertCheckpoint options key replay host.checkpointWritten
    .ok (db, receiptChanged || checkpointChanged, false)

/-- What became of the receipt by the time of the transaction. -/
inductive TransactionResult
  | stored
  | ownershipChanged
  | unavailable
  deriving DecidableEq

/-- `ownershipChanged` and `unavailableAfterCleanup`; the former is thrown first. -/
def transactionResult (ttlMs now : Int) (ownership : Ownership) :
    Option ReceiptRow → TransactionResult
  | none => .unavailable
  | some current =>
    if current.ownership ≠ ownership then .ownershipChanged
    else if current.checkpointState = .expired ∨ current.createdAtMs + ttlMs ≤ now then .unavailable
    else .stored

/-- The expiry at the start of the transaction, unless it can be skipped. The flag
says whether anything has expired. -/
def expireUnlessSkipped (canSkipExpiry : Bool) (ttlMs now : Int) (db : Database) :
    Database × Bool :=
  if canSkipExpiry then (db, false)
  else
    let (db, receiptsExpired) := db.expireReceipts ttlMs now
    let (db, legacyExpired) := db.expireLegacy ttlMs now
    (db, receiptsExpired || legacyExpired)

/-- The part of the transaction that depends on what became of the receipt. -/
def storeIfUsable (host : HistoryHost) (canSkipExpiry : Bool) (key : ReceiptKey)
    (replay : StoredReplay) (progress : CheckpointProgress) (current : Option ReceiptRow)
    (result : TransactionResult) (db : Database) : Except HistoryError (Database × Bool × Bool) :=
  match current, result with
  | some current, .stored =>
      storeCheckpoint options host canSkipExpiry key replay progress current db
  | _, _ => .ok (db, false, false)

/-- The evictions and the revision at the end of the transaction. -/
def settle (expired changed revisionBumped : Bool) (db : Database) : Database :=
  let (db, checkpointEvicted) :=
    if expired || changed then db.evictCheckpointOverflow options else (db, false)
  let (db, receiptEvicted) := if expired then db.evictReceiptOverflow options else (db, false)
  if !revisionBumped && (expired || changed || checkpointEvicted || receiptEvicted) then
    db.bumpRevision
  else db

/-- The callback of the transaction of `recordCheckpoint`. -/
def checkpointTransaction (host : HistoryHost) (ttlMs : Int) (canSkipExpiry : Bool)
    (key : ReceiptKey) (ownership : Ownership) (replay : StoredReplay)
    (progress : CheckpointProgress) (finalize : Option Finalize) (existing : ReceiptRow)
    (db : Database) : Except HistoryError (Database × TransactionResult) := do
  let (db, expired) := expireUnlessSkipped canSkipExpiry ttlMs host.transaction db
  let current := if canSkipExpiry then some existing else db.readReceipt key
  let result := transactionResult ttlMs host.transaction ownership current
  let (db, changed, revisionBumped) ←
    storeIfUsable options host canSkipExpiry key replay progress current result db
  let db := settle options expired changed revisionBumped db
  match result with
  | .stored => do
    let db ← finalizeCheckpoint progress finalize db
    .ok (db, .stored)
  | result => .ok (db, result)

/-- The memo's answer whether the expiry can be skipped. -/
def canSkipExpiry (host : HistoryHost) (accountId responseId : JsString) (store : HistoryStore) :
    Bool :=
  match store.recentReceiptCleanup.get (receiptCleanupKey accountId responseId) with
  | none => false
  | some none => true
  | some (some validUntil) => decide (host.transaction < validUntil)

/-- The memo without the receipt, when it is of no more use. -/
def forgetCleanup (canSkipExpiry : Bool) (progress : CheckpointProgress)
    (accountId responseId : JsString) (store : HistoryStore) : HistoryStore :=
  if !canSkipExpiry || decide (progress = .complete) then
    { store with
      recentReceiptCleanup :=
        store.recentReceiptCleanup.erase (receiptCleanupKey accountId responseId) }
  else store

/-- Whether nothing but the state of the receipt has to change. -/
def promotable (canSkipExpiry : Bool) (key : ReceiptKey) (replay : StoredReplay)
    (progress : CheckpointProgress) (existing : ReceiptRow) (db : Database) :
    Except HistoryError Bool :=
  if canSkipExpiry && decide (progress = .complete) &&
      decide (existing.checkpointState = .partialState) then
    replayMatches options db key replay
  else .ok false

/-- The answer of `recordCheckpoint` after its transaction. -/
def transactionAnswer (host : HistoryHost) : TransactionResult → Except HistoryError Unit
  | .ownershipChanged =>
    .error (.continuation .ownershipConflict "response id ownership conflict")
  | .unavailable => .error (.continuation .expired "response continuation expired")
  | .stored => throwIfAborted host.abortedAfter (.ok ())

/-- The promotion of a receipt whose checkpoint is stored. -/
def promoteReceipt (host : HistoryHost) (key : ReceiptKey) (replay : StoredReplay)
    (finalize : Option Finalize) (store : HistoryStore) : Answer Unit :=
  match requireCheckpoint options store.db key replay finalize with
  | .error error => (.error error, store)
  | .ok () =>
    match runFinalize finalize (store.db.setCheckpointState key .complete) with
    | .error error => (.error error, store)
    | .ok db => (throwIfAborted host.abortedAfter (.ok ()), { store with db := db })

/-- Where `recordCheckpoint` has found a usable receipt but not the checkpoint it
was to record. -/
def updateCheckpoint (host : HistoryHost) (responseId : JsString)
    (ownership : ResponsesContinuationOwnership) (replay : StoredReplay)
    (progress : CheckpointProgress) (finalize : Option Finalize) (existing : ReceiptRow)
    (store : HistoryStore) : Answer Unit :=
  let canSkip := store.canSkipExpiry host ownership.accountId responseId
  let store := store.forgetCleanup canSkip progress ownership.accountId responseId
  let key := storedKey ownership.accountId responseId
  match promotable options canSkip key replay progress existing store.db with
  | .error error => (.error error, store)
  | .ok true => store.promoteReceipt options host key replay finalize
  | .ok false =>
    match checkpointTransaction options host store.ttlMs canSkip key ownership.toOwnership replay
        progress finalize existing store.db with
    | .error error => (.error error, store)
    | .ok (db, result) => (transactionAnswer host result, { store with db := db })

/-- `replay.items.length > 0 ? this.upsertCheckpoint(…) : false`. -/
def upsertReplay (key : ReceiptKey) (replay : StoredReplay) (now : Int) (db : Database) :
    Except HistoryError (Database × Bool) :=
  if replay.items = [] then .ok (db, false) else db.upsertCheckpoint options key replay now

/-- The work of `recordCheckpoint` where it has found no usable receipt. -/
def freshCheckpoint (host : HistoryHost) (ttlMs : Int) (responseId : JsString)
    (ownership : ResponsesContinuationOwnership) (replay : StoredReplay)
    (progress : CheckpointProgress) (finalize : Option Finalize) (db : Database) :
    Except HistoryError (Database × Bool) := do
  let (db, receiptChanged) ← db.upsertReceipt host.accountIsActive ttlMs host.receiptWritten
    ⟨ownership, responseId, progress.receipt⟩
  let (db, checkpointChanged) ←
    upsertReplay options (storedKey ownership.accountId responseId) replay host.checkpointWritten db
  let db ← finalizeCheckpoint progress finalize db
  .ok (db, receiptChanged || checkpointChanged)

/-- Where `recordCheckpoint` has found no usable receipt. -/
def recordFreshCheckpoint (host : HistoryHost) (responseId : JsString)
    (ownership : ResponsesContinuationOwnership) (replay : StoredReplay)
    (progress : CheckpointProgress) (finalize : Option Finalize) (store : HistoryStore) :
    Answer Unit :=
  if progress = .complete ∧ finalize.isSome ∧ replay.items = [] then
    (.error unavailableCheckpoint, store)
  else
    match mutation options store.ttlMs host.transaction
        (freshCheckpoint options host store.ttlMs responseId ownership replay progress finalize)
        store.db with
    | .error error => (.error error, store)
    | .ok db => (throwIfAborted host.abortedAfter (.ok ()), { store with db := db })

/-- Where `recordCheckpoint` has found the checkpoint it was to record. -/
def finishCheckpoint (key : ReceiptKey) (replay : StoredReplay) (progress : CheckpointProgress)
    (finalize : Option Finalize) (store : HistoryStore) : Answer Unit :=
  match progress with
  | .partialState => (.ok (), store)
  | .complete =>
    match requireCheckpoint options store.db key replay finalize with
    | .error error => (.error error, store)
    | .ok () => store.transact (runFinalize finalize)

/-- Whether the receipt `recordCheckpoint` has found already has the checkpoint. -/
def alreadyRecorded (host : HistoryHost) (key : ReceiptKey) (ownership : Ownership)
    (replay : StoredReplay) (progress : CheckpointProgress) (store : HistoryStore) :
    Except HistoryError Bool :=
  match store.usableReceipt host.firstCheck key ownership with
  | none => .ok false
  | some existing =>
    if checkpointRank progress.receipt.state ≤ checkpointRank existing.checkpointState then
      replayMatches options store.db key replay
    else .ok false

def recordCheckpoint (host : HistoryHost) (record : ResponsesHistoryRecord)
    (ownership : ResponsesContinuationOwnership) (progress : CheckpointProgress)
    (finalize : Option Finalize) (store : HistoryStore) : Answer Unit :=
  if host.abortedBefore then (.error .aborted, store)
  else
    match prepareCheckpoint options host record ownership with
    | .error error => (.error error, store)
    | .ok (responseId, replay) =>
      let key := storedKey ownership.accountId responseId
      match store.alreadyRecorded options host key ownership.toOwnership replay progress with
      | .error error => (.error error, store)
      | .ok true => store.finishCheckpoint options key replay progress finalize
      | .ok false =>
        match store.usableReceipt host.secondCheck key ownership.toOwnership with
        | some existing =>
          store.updateCheckpoint options host responseId ownership replay progress finalize existing
        | none =>
          store.recordFreshCheckpoint options host responseId ownership replay progress finalize

/-! ## Resolving -/

/-- The checkpoint of a complete converted receipt, if it is there, has the format
of the receipt's conversion. -/
def checkFormat (db : Database) (key : ReceiptKey) (own : ReceiptRow) : Except HistoryError Unit :=
  if own.checkpointState = .complete ∧ own.ownership.owner = .converted then do
    let checkpoint ← db.readResponse options key
    match checkpoint with
    | none => .ok ()
    | some checkpoint => do
      let formatVersion ← replayFormatVersion own.ownership
      unavailableIf (checkpoint.formatVersion ≠ formatVersion)
  else .ok ()

/-- `resolve` after the expiry. -/
def resolution (db : Database) (responseId accountId : JsString) :
    Except HistoryError ResponsesContinuationResolution :=
  match db.readReceipt (storedKey accountId responseId) with
  | some own => do
    validateStoredOwnership own.ownership
    if own.checkpointState = .expired then .ok .expired
    else do
      checkFormat options db (storedKey accountId responseId) own
      .ok (.owned (toReceipt own))
  | none =>
    let stored := boundText responseId
    if db.receipts.rows.any fun row => row.key.2 = stored then .ok .ownedByAnotherAccount
    else if db.legacy.rows.any fun row => row.responseId = stored then .ok .legacyUnowned
    else if db.uncertain then .ok .untrackedBlocked
    else .ok .none

def resolve (host : HistoryHost) (responseId accountId : JsString) (store : HistoryStore) :
    Answer ResponsesContinuationResolution :=
  if host.abortedBefore then (.error .aborted, store)
  else
    match requireNonEmpty responseId "responseId", requireNonEmpty accountId "accountId" with
    | .error error, _ => (.error error, store)
    | _, .error error => (.error error, store)
    | .ok responseId, .ok accountId =>
      let store := { store with db := sweep options store.ttlMs host.transaction store.db }
      (throwIfAborted host.abortedAfter (resolution options store.db responseId accountId), store)

/-! ## Administration -/

def inspect (store : HistoryStore) : ResponsesHistoryInspection :=
  let createdAt := store.db.legacy.rows.map LegacyRow.createdAtMs ++
    store.db.checkpoints.rows.map CheckpointRow.createdAtMs
  { revision := store.db.revision
    count := store.db.legacy.size + store.db.checkpoints.size
    receiptCount := store.db.receipts.size
    legacyCount := store.db.legacy.size
    untrackedContinuationBlocked := store.db.uncertain
    oldestAt := createdAt.min?
    newestAt := createdAt.max?
    ttlMs := store.ttlMs }

/-- The callback of `clear`'s transaction. -/
def clearDatabase (expectedRevision : Nat) (db : Database) : Except HistoryError Database :=
  if db.revision ≠ expectedRevision then .error .revisionConflict
  else if db.checkpoints.size = 0 ∧ db.receipts.size = 0 ∧ db.legacy.size = 0 ∧
      db.uncertain = false ∧ db.carriers.size = 0 then
    .ok db
  else
    .ok ({ db.deleteReceipts (fun _ => true) with
      carriers := Table.empty
      legacy := Table.empty
      uncertain := false } : Database).bumpRevision

def clear (expectedRevision : Nat) (store : HistoryStore) : Answer ResponsesHistoryInspection :=
  let store := { store with recentReceiptCleanup := OrderedMap.empty }
  let (result, store) := store.transact (clearDatabase expectedRevision)
  match result with
  | .error error => (.error error, store)
  | .ok () => (.ok store.inspect, store)

/-- The memo without the entries of an account. -/
def forgetAccount (accountId : JsString) (memo : OrderedMap JsString (Option Int)) :
    OrderedMap JsString (Option Int) where
  entries := memo.entries.filter fun entry => !(accountId ++ [0x00]).isPrefixOf entry.1
  nodup := memo.nodup.sublist (List.filter_sublist.map Prod.fst)

/-- What `clearAccount` does between the expiry and the eviction. -/
def deleteAccount (accountId : JsString) (db : Database) : Database × Bool :=
  let carriers := db.carriers.delete fun row => row.binding.OfAccount accountId
  let stored := boundText accountId
  let removed := db.receipts.rows.any fun row => row.key.1 = stored
  let next := { db.deleteReceipts (fun key => key.1 = stored) with carriers := carriers }
  (if removed then next.markUncertain else next,
    removed || db.carriers.rows.any fun row => row.binding.OfAccount accountId)

def clearAccount (host : HistoryHost) (accountId : JsString) (store : HistoryStore) :
    Answer Unit :=
  let store :=
    { store with recentReceiptCleanup := forgetAccount accountId store.recentReceiptCleanup }
  match requireNonEmpty accountId "accountId" with
  | .error error => (.error error, store)
  | .ok accountId =>
    store.transact <|
      mutation options store.ttlMs host.transaction fun db => .ok (deleteAccount accountId db)

def setTtlDays (ttlDays : Int) (store : HistoryStore) : HistoryStore :=
  { store with ttlMs := ttlDays * 86400000, recentReceiptCleanup := OrderedMap.empty }

end HistoryStore

end Store

end GhcGateway.History
