/-
# The ways through `recordCheckpoint`

A call that returns has gone one of four ways: the checkpoint was there already;
only the receipt had to be promoted; a usable receipt was brought up to date; or
the receipt was written afresh. `CheckpointPath` says for each of them what held
before the call and what was computed, so that no later proof takes the function
apart again.
-/

import GhcGateway.History.Operations

namespace GhcGateway.History

open Library Conversion HistoryStore

variable {responseId : JsString} {existing : ReceiptRow} {owned : Ownership} {now : Int}

section Paths

variable (options : HistoryOptions) (host : HistoryHost) (record : ResponsesHistoryRecord)
  (ownership : ResponsesContinuationOwnership) (progress : CheckpointProgress)
  (finalize : Option Finalize) (store : HistoryStore) {replay : StoredReplay}

/-- The database that the evictions of `updateCheckpoint` start from, if its transaction
comes to them. -/
def updateEvicting (canSkip : Bool) (key : ReceiptKey) (replay : StoredReplay)
    (existing : ReceiptRow) : Option Database :=
  let (db, expired) := expireUnlessSkipped canSkip store.ttlMs host.transaction store.db
  let current := if canSkip then some existing else db.readReceipt key
  let result := transactionResult store.ttlMs host.transaction ownership.toOwnership current
  match storeIfUsable options host canSkip key replay progress current result db with
  | .error _ => none
  | .ok (db, changed, _) => if expired || changed then some db else none

/-- The same for `recordCheckpoint`, whichever way it goes. -/
def checkpointEvicting : Option Database :=
  if host.abortedBefore then none
  else
    match prepareCheckpoint options host record ownership with
    | .error _ => none
    | .ok (responseId, replay) =>
      let key := storedKey ownership.accountId responseId
      match store.alreadyRecorded options host key ownership.toOwnership replay progress with
      | .error _ => none
      | .ok true => none
      | .ok false =>
        match store.usableReceipt host.secondCheck key ownership.toOwnership with
        | some existing =>
          let canSkip := store.canSkipExpiry host ownership.accountId responseId
          match promotable options canSkip key replay progress existing store.db with
          | .error _ => none
          | .ok true => none
          | .ok false =>
            updateEvicting options host ownership progress store canSkip key replay existing
        | none =>
          if progress = .complete ∧ finalize.isSome ∧ replay.items = [] then none
          else
            mutationEvicting store.ttlMs host.transaction
              (freshCheckpoint options host store.ttlMs responseId ownership replay progress
                finalize) store.db

/-- What a call of `recordCheckpoint` may answer, and what it took to get there. -/
inductive CheckpointPath : Answer Unit → Prop
  | refused (error : HistoryError) (memo : OrderedMap JsString (Option Int)) :
      CheckpointPath (.error error, { store with recentReceiptCleanup := memo })
  | recorded (responseId : JsString) (replay : StoredReplay) (existing : ReceiptRow)
      (next : Database)
      (prepared : prepareCheckpoint options host record ownership = .ok (responseId, replay))
      (usable : store.usableReceipt host.firstCheck (storedKey ownership.accountId responseId)
        ownership.toOwnership = some existing)
      (rank : checkpointRank progress.receipt.state ≤ checkpointRank existing.checkpointState)
      (matching : replayMatches options store.db (storedKey ownership.accountId responseId) replay =
        .ok true)
      (finalized : finalizeCheckpoint progress finalize store.db = .ok next) :
      CheckpointPath (.ok (), { store with db := next })
  | promoted (responseId : JsString) (replay : StoredReplay) (existing : ReceiptRow)
      (next : Database) (memo : OrderedMap JsString (Option Int))
      (prepared : prepareCheckpoint options host record ownership = .ok (responseId, replay))
      (usable : store.usableReceipt host.secondCheck (storedKey ownership.accountId responseId)
        ownership.toOwnership = some existing)
      (complete : progress = .complete) (partly : existing.checkpointState = .partialState)
      (matching : replayMatches options store.db (storedKey ownership.accountId responseId) replay =
        .ok true)
      (finalized : runFinalize finalize
        (store.db.setCheckpointState (storedKey ownership.accountId responseId) .complete) =
          .ok next) :
      CheckpointPath
        (throwIfAborted host.abortedAfter (.ok ()), ⟨next, store.ttlMs, memo⟩)
  | updated (responseId : JsString) (replay : StoredReplay) (existing : ReceiptRow)
      (next : Database) (result : TransactionResult) (memo : OrderedMap JsString (Option Int))
      (canSkip : Bool)
      (prepared : prepareCheckpoint options host record ownership = .ok (responseId, replay))
      (usable : store.usableReceipt host.secondCheck (storedKey ownership.accountId responseId)
        ownership.toOwnership = some existing)
      (skipped : canSkip = store.canSkipExpiry host ownership.accountId responseId)
      (evicting : checkpointEvicting options host record ownership progress finalize store =
        updateEvicting options host ownership progress store canSkip
          (storedKey ownership.accountId responseId) replay existing)
      (ran : checkpointTransaction options host store.ttlMs canSkip
        (storedKey ownership.accountId responseId) ownership.toOwnership replay progress finalize
        existing store.db = .ok (next, result)) :
      CheckpointPath (transactionAnswer host result, ⟨next, store.ttlMs, memo⟩)
  | fresh (responseId : JsString) (replay : StoredReplay) (next : Database)
      (prepared : prepareCheckpoint options host record ownership = .ok (responseId, replay))
      (unusable : store.usableReceipt host.secondCheck (storedKey ownership.accountId responseId)
        ownership.toOwnership = none)
      (ran : mutation options store.ttlMs host.transaction
        (freshCheckpoint options host store.ttlMs responseId ownership replay progress
          finalize) store.db = .ok next)
      (evicting : checkpointEvicting options host record ownership progress finalize store =
        mutationEvicting store.ttlMs host.transaction
          (freshCheckpoint options host store.ttlMs responseId ownership replay progress
            finalize) store.db) :
      CheckpointPath (throwIfAborted host.abortedAfter (.ok ()), { store with db := next })

variable {options host record ownership progress finalize store}

theorem path_finishCheckpoint
    (prepared : prepareCheckpoint options host record ownership = .ok (responseId, replay))
    (usable : store.usableReceipt host.firstCheck (storedKey ownership.accountId responseId)
      ownership.toOwnership = some existing)
    (rank : checkpointRank progress.receipt.state ≤ checkpointRank existing.checkpointState)
    (matching : replayMatches options store.db (storedKey ownership.accountId responseId) replay =
      .ok true) :
    CheckpointPath options host record ownership progress finalize store
      (store.finishCheckpoint options (storedKey ownership.accountId responseId) replay progress
        finalize) := by
  cases progress with
  | partialState =>
    exact .recorded responseId replay existing store.db prepared usable rank matching rfl
  | complete =>
    simp only [finishCheckpoint]
    cases requireCheckpoint options store.db (storedKey ownership.accountId responseId) replay
        finalize with
    | error error => exact .refused error store.recentReceiptCleanup
    | ok _ =>
      simp only [transact]
      cases ran : runFinalize finalize store.db with
      | error error => exact .refused error store.recentReceiptCleanup
      | ok next => exact .recorded responseId replay existing next prepared usable rank matching ran

theorem path_updateCheckpoint (started : ¬ host.abortedBefore = true)
    (prepared : prepareCheckpoint options host record ownership = .ok (responseId, replay))
    (unrecorded : store.alreadyRecorded options host (storedKey ownership.accountId responseId)
      ownership.toOwnership replay progress = .ok false)
    (usable : store.usableReceipt host.secondCheck (storedKey ownership.accountId responseId)
      ownership.toOwnership = some existing) :
    CheckpointPath options host record ownership progress finalize store
      (store.updateCheckpoint options host responseId ownership replay progress finalize
        existing) := by
  have kept : ∃ memo, store.forgetCleanup
      (store.canSkipExpiry host ownership.accountId responseId) progress
      ownership.accountId responseId = ⟨store.db, store.ttlMs, memo⟩ := by
    unfold forgetCleanup
    split
    · exact ⟨_, rfl⟩
    · exact ⟨_, rfl⟩
  obtain ⟨memo, forgotten⟩ := kept
  simp only [updateCheckpoint, forgotten]
  cases decided : promotable options (store.canSkipExpiry host ownership.accountId responseId)
      (storedKey ownership.accountId responseId) replay progress existing store.db with
  | error error => exact .refused error memo
  | ok promote =>
    cases promote with
    | true =>
      unfold promotable at decided
      split at decided
      · next conditions =>
        simp only [Bool.and_eq_true, decide_eq_true_eq] at conditions
        obtain ⟨⟨_, complete⟩, partly⟩ := conditions
        simp only [promoteReceipt]
        cases requireCheckpoint options store.db (storedKey ownership.accountId responseId) replay
            finalize with
        | error error => exact .refused error memo
        | ok _ =>
          simp only
          cases ran : runFinalize finalize
              (store.db.setCheckpointState (storedKey ownership.accountId responseId)
                .complete) with
          | error error => exact .refused error memo
          | ok next =>
            exact .promoted responseId replay existing next memo prepared usable complete partly
              decided ran
      · cases decided
    | false =>
      simp only
      cases ran : checkpointTransaction options host store.ttlMs
          (store.canSkipExpiry host ownership.accountId responseId)
          (storedKey ownership.accountId responseId) ownership.toOwnership replay progress finalize
          existing store.db with
      | error error => exact .refused error memo
      | ok answer =>
        obtain ⟨next, result⟩ := answer
        refine .updated responseId replay existing next result memo _ prepared usable rfl ?_ ran
        simp only [checkpointEvicting, if_neg started, prepared, unrecorded, usable, decided]

theorem path_recordFreshCheckpoint (started : ¬ host.abortedBefore = true)
    (prepared : prepareCheckpoint options host record ownership = .ok (responseId, replay))
    (unrecorded : store.alreadyRecorded options host (storedKey ownership.accountId responseId)
      ownership.toOwnership replay progress = .ok false)
    (unusable : store.usableReceipt host.secondCheck (storedKey ownership.accountId responseId)
      ownership.toOwnership = none) :
    CheckpointPath options host record ownership progress finalize store
      (store.recordFreshCheckpoint options host responseId ownership replay progress finalize) := by
  unfold recordFreshCheckpoint
  split
  · exact .refused _ store.recentReceiptCleanup
  · next writes =>
    split
    · next error _ => exact .refused error store.recentReceiptCleanup
    · next next ran =>
      refine .fresh responseId replay next prepared unusable ran ?_
      simp only [checkpointEvicting, if_neg started, prepared, unrecorded, unusable, if_neg writes]

/-- Every call of `recordCheckpoint` goes one of these ways. -/
theorem path_recordCheckpoint :
    CheckpointPath options host record ownership progress finalize store
      (store.recordCheckpoint options host record ownership progress finalize) := by
  unfold recordCheckpoint
  split
  · exact .refused _ store.recentReceiptCleanup
  · next started =>
    split
    · next error _ => exact .refused error store.recentReceiptCleanup
    · next responseId replay prepared =>
      simp only
      split
      · next error _ => exact .refused error store.recentReceiptCleanup
      · next already =>
        unfold alreadyRecorded at already
        split at already
        · cases already
        · next existing usable =>
          split at already
          · next rank => exact path_finishCheckpoint prepared usable rank already
          · cases already
      · next unrecorded =>
        split
        · next existing usable => exact path_updateCheckpoint started prepared unrecorded usable
        · next unusable => exact path_recordFreshCheckpoint started prepared unrecorded unusable

end Paths

/-! ## What a way starts from -/

variable {options : HistoryOptions} {host : HistoryHost} {record : ResponsesHistoryRecord}
  {ownership : ResponsesContinuationOwnership} {progress : CheckpointProgress}
  {finalize : Option Finalize} {store : HistoryStore} {db next : Database} {key : ReceiptKey}
  {replay : StoredReplay} {occasion : Option Occasion}

theorem requireNonEmpty_eq_ok {value result : JsString} {field : String} :
    requireNonEmpty value field = .ok result ↔ value ≠ [] ∧ result = value := by
  unfold requireNonEmpty
  by_cases empty : value = []
  · simp [empty]
  · simp [empty, eq_comm]

theorem prepareCheckpoint_eq_ok
    (prepared : prepareCheckpoint options host record ownership = .ok (responseId, replay)) :
    responseId = record.responseId.trim ∧ ∃ formatVersion,
      replayFormatVersion ownership.toOwnership = .ok formatVersion ∧
        extractRecordableReplay options record.output formatVersion = .ok replay := by
  obtain ⟨id, trimmed, rest⟩ := bind_eq_ok.mp prepared
  obtain ⟨_, _, rest⟩ := bind_eq_ok.mp rest
  split at rest
  · cases rest
  · split at rest
    · cases rest
    · obtain ⟨formatVersion, known, rest⟩ := bind_eq_ok.mp rest
      obtain ⟨extracted, ran, returned⟩ := bind_eq_ok.mp rest
      cases returned
      exact ⟨(requireNonEmpty_eq_ok.mp trimmed).2, formatVersion, known, ran⟩

theorem counted_of_prepareCheckpoint
    (prepared : prepareCheckpoint options host record ownership = .ok (responseId, replay)) :
    replay.Counted := by
  obtain ⟨_, formatVersion, _, extracted⟩ := prepareCheckpoint_eq_ok prepared
  exact ensures_extractRecordableReplay_counted record.output formatVersion replay extracted

theorem usableReceipt_eq_some (usable : store.usableReceipt now key owned = some existing) :
    store.db.readReceipt key = some existing ∧ existing.checkpointState ≠ .expired ∧
      now < existing.createdAtMs + store.ttlMs ∧ existing.ownership = owned := by
  unfold usableReceipt at usable
  split at usable
  · cases usable
  · next row found =>
    split at usable
    · next conditions =>
      cases usable
      exact ⟨found, conditions⟩
    · cases usable

theorem transactionResult_eq_stored {ttlMs : Int} {current : Option ReceiptRow}
    (stored : transactionResult ttlMs now owned current = .stored) :
    ∃ row, current = some row ∧ row.ownership = owned ∧ row.checkpointState ≠ .expired ∧
      now < row.createdAtMs + ttlMs := by
  unfold transactionResult at stored
  split at stored
  · cases stored
  · next row =>
    split at stored
    · cases stored
    · next same =>
      split at stored
      · cases stored
      · next usable =>
        rw [not_or, not_le] at usable
        exact ⟨row, rfl, not_not.mp same, usable⟩

section Transaction

variable {ttlMs : Int} {canSkip : Bool} {owned : Ownership} {existing : ReceiptRow}
  {result : TransactionResult} {responseId : JsString} {current : ReceiptRow}

/-- The transaction of `recordCheckpoint` taken apart. -/
theorem checkpointTransaction_eq_ok
    (ran : checkpointTransaction options host ttlMs canSkip key owned replay progress finalize
      existing db = .ok (next, result)) :
    ∃ (expired changed bumped : Bool) (expiredDb stored : Database) (current : Option ReceiptRow),
      expireUnlessSkipped canSkip ttlMs host.transaction db = (expiredDb, expired) ∧
      current = (if canSkip then some existing else expiredDb.readReceipt key) ∧
      result = transactionResult ttlMs host.transaction owned current ∧
      storeIfUsable options host canSkip key replay progress current result expiredDb =
        .ok (stored, changed, bumped) ∧
      (result = .stored → finalizeCheckpoint progress finalize
        (settle options expired changed bumped stored) = .ok next) ∧
      (result ≠ .stored → next = settle options expired changed bumped stored) := by
  obtain ⟨⟨stored, changed, bumped⟩, kept, rest⟩ := bind_eq_ok.mp ran
  simp only at rest
  split at rest
  · next usable =>
    obtain ⟨last, finalized, returned⟩ := bind_eq_ok.mp rest
    cases returned
    refine ⟨_, changed, bumped, _, stored, _, rfl, rfl, usable.symm, ?_, fun _ => finalized, ?_⟩
    · rw [usable] at kept
      exact kept
    · intro unusable
      exact absurd rfl unusable
  · next unusable =>
    cases rest
    refine ⟨_, changed, bumped, _, stored, _, rfl, rfl, rfl, kept, ?_, fun _ => rfl⟩
    intro usable
    exact absurd usable unusable

/-- The receipt the transaction goes by is the one in the database. -/
theorem read_of_current {expiredDb : Database} {expired : Bool} {row : ReceiptRow}
    (found : db.readReceipt key = some existing)
    (began : expireUnlessSkipped canSkip ttlMs host.transaction db = (expiredDb, expired))
    (current : some row = if canSkip then some existing else expiredDb.readReceipt key) :
    expiredDb.readReceipt key = some row := by
  cases canSkip with
  | true =>
    cases began
    cases current
    exact found
  | false => exact current.symm

variable (options) in
theorem changes_expireUnlessSkipped (canSkip : Bool) (due : occasion = some ⟨ttlMs, now⟩)
    (db : Database) :
    Database.Changes options occasion db (expireUnlessSkipped canSkip ttlMs now db).1 := by
  cases canSkip with
  | true => exact .refl
  | false =>
    exact .head (.expire db ttlMs now due) (Database.changes_expireLegacy options ttlMs now _)

variable (options) in
/-- The end of the transaction taken apart. -/
theorem settle_eq (expired changed bumped : Bool) (db : Database) :
    ∃ first second : Database × Bool,
      first = (if expired || changed then db.evictCheckpointOverflow options else (db, false)) ∧
      second = (if expired then first.1.evictReceiptOverflow options else (first.1, false)) ∧
      settle options expired changed bumped db =
        if !bumped && (expired || changed || first.2 || second.2) then second.1.bumpRevision
        else second.1 := ⟨_, _, rfl, rfl, rfl⟩

variable (options) in
theorem changes_settle (expired changed bumped : Bool) (db : Database) :
    Database.Changes options occasion db (settle options expired changed bumped db) := by
  obtain ⟨first, second, firstIs, secondIs, settled⟩ := settle_eq options expired changed bumped db
  have checkpoints : Database.Changes options occasion db first.1 := by
    rw [firstIs]
    split
    · exact Database.changes_evictCheckpointOverflow options db
    · exact .refl
  have receipts : Database.Changes options occasion first.1 second.1 := by
    rw [secondIs]
    split
    · exact Database.changes_evictReceiptOverflow options first.1
    · exact .refl
  rw [settled]
  split
  · exact (checkpoints.trans receipts).tail (.bump _)
  · exact checkpoints.trans receipts

variable (options occasion) in
theorem ensures_runFinalize_changes (finalize : Option Finalize) (db : Database) :
    Ensures (runFinalize finalize db) fun next => Database.Changes options occasion db next := by
  unfold runFinalize
  split
  · exact ensures_ok .refl
  · split
    · exact ensures_error
    · exact ensures_ok (.single (.carriers db _))

variable (options occasion) in
theorem ensures_finalizeCheckpoint_changes (progress : CheckpointProgress)
    (finalize : Option Finalize) (db : Database) :
    Ensures (finalizeCheckpoint progress finalize db) fun next =>
      Database.Changes options occasion db next := by
  cases progress with
  | partialState => exact ensures_ok .refl
  | complete => exact ensures_runFinalize_changes options occasion finalize db

/-- A recorded state is one in which a receipt may have a checkpoint. -/
theorem CheckpointProgress.live (progress : CheckpointProgress) : progress.receipt.state.Live := by
  cases progress with
  | partialState => exact .inl rfl
  | complete => exact .inr rfl

theorem CheckpointProgress.one_le_rank (progress : CheckpointProgress) :
    1 ≤ checkpointRank progress.receipt.state := by
  cases progress <;> decide

/-- A state that is at least as high as a recorded one is live. -/
theorem live_of_rank_le {state : ResponsesCheckpointState} (progress : CheckpointProgress)
    (rank : checkpointRank progress.receipt.state ≤ checkpointRank state) : state.Live := by
  have positive := Nat.le_trans progress.one_le_rank rank
  exact @Database.live_of_checkpointRank_lt .routeOnly state positive

variable (options) in
/-- The receipt of the transaction after it has been raised, if it had to be. -/
theorem raised_storeCheckpoint (progress : CheckpointProgress)
    (read : db.readReceipt key = some current) (open_ : current.checkpointState ≠ .expired) :
    ∃ raised : Database, ∃ receipt,
      raised = (if decide (checkpointRank current.checkpointState <
          checkpointRank progress.receipt.state) then
        db.setCheckpointState key progress.receipt.state else db) ∧
      Database.Changes options occasion db raised ∧
      raised.receipts.find? key = some receipt ∧ receipt.checkpointState.Live := by
  obtain ⟨row, found, rfl⟩ := Database.readReceipt_eq_some read
  by_cases higher : checkpointRank row.read.checkpointState < checkpointRank progress.receipt.state
  · refine ⟨_, { row with checkpointState := progress.receipt.state }, rfl, ?_, ?_,
      progress.live⟩
    · rw [if_pos (decide_eq_true higher)]
      have same := (Table.find?_eq_some.mp found).2
      rw [← same] at found ⊢
      exact .single (.raise db row _ found open_ higher)
    · rw [if_pos (decide_eq_true higher), Database.find?_setCheckpointState_self, found]
      rfl
  · refine ⟨_, row, rfl, ?_, ?_, live_of_rank_le progress (not_lt.mp higher)⟩
    · rw [if_neg (by simpa using higher)]
    · rw [if_neg (by simpa using higher)]
      exact found

theorem ensures_storeCheckpoint_changes (read : db.readReceipt key = some current)
    (open_ : current.checkpointState ≠ .expired) (counted : replay.Counted) :
    Ensures (storeCheckpoint options host canSkip key replay progress current db) fun answer =>
      Database.Changes options occasion db answer.1 := by
  obtain ⟨raised, receipt, same, changes, raisedFound, live⟩ :=
    raised_storeCheckpoint options progress read open_
  unfold storeCheckpoint
  simp only
  rw [← same]
  refine ensures_ite (fun _ => ensures_ok changes) fun _ => ensures_ite (fun _ => ?_) fun _ => ?_
  · refine (?_ : Ensures (raised.insertFirstCheckpoint key replay host.transaction) fun next =>
      Database.Changes options occasion db next).bind fun next inserted => ensures_ok inserted
    exact (Database.ensures_addCheckpoint_changes host.transaction raisedFound live counted).bind
      fun next inserted => ensures_ok ((changes.trans inserted).tail (.bump _))
  · exact (Database.ensures_upsertCheckpoint_changes host.checkpointWritten raisedFound live
      counted).bind fun next upserted => ensures_ok (changes.trans upserted)

theorem changes_checkpointTransaction (due : occasion = some ⟨ttlMs, host.transaction⟩)
    (found : db.readReceipt key = some existing) (counted : replay.Counted)
    (ran : checkpointTransaction options host ttlMs canSkip key owned replay progress finalize
      existing db = .ok (next, result)) : Database.Changes options occasion db next := by
  obtain ⟨expired, changed, bumped, expiredDb, stored, current, began, read, resulted, kept, done,
    undone⟩ := checkpointTransaction_eq_ok ran
  have first : Database.Changes options occasion db expiredDb := by
    have := changes_expireUnlessSkipped options canSkip due db
    rw [began] at this
    exact this
  have second : Database.Changes options occasion expiredDb stored := by
    unfold storeIfUsable at kept
    split at kept
    · next row _ usable =>
      obtain ⟨_, same, _, open_, _⟩ := transactionResult_eq_stored resulted.symm
      cases same
      exact ensures_storeCheckpoint_changes (read_of_current found began read) open_ counted _ kept
    · cases kept
      exact .refl
  have third := (first.trans second).trans (changes_settle options expired changed
    bumped stored)
  by_cases usable : result = .stored
  · exact third.trans (ensures_finalizeCheckpoint_changes options occasion progress finalize _ _
      (done usable))
  · rw [undone usable]
    exact third

/-! ## The way that writes afresh -/

/-- After a receipt has been written it is there, at least as high as asked for. -/
theorem ensures_upsertReceipt_found (accountIsActive : JsString → Bool) (ttlMs now : Int)
    (receipt : ResponsesReceiptRecord) (db : Database) :
    Ensures (db.upsertReceipt accountIsActive ttlMs now receipt) fun next =>
      ∃ row, next.1.receipts.find? (storedKey receipt.accountId receipt.responseId.trim) =
          some row ∧
        checkpointRank receipt.checkpointState.state ≤ checkpointRank row.checkpointState := by
  unfold Database.upsertReceipt
  refine ensures_bind fun _ _ => ensures_ite (fun _ => ensures_error) fun _ => ?_
  refine ensures_bind fun responseId trimmed => ?_
  obtain ⟨_, rfl⟩ := requireNonEmpty_eq_ok.mp trimmed
  simp only
  split
  · next existing read =>
    obtain ⟨row, found, rfl⟩ := Database.readReceipt_eq_some read
    refine ensures_ite (fun _ => ensures_error) fun _ => ?_
    refine ensures_ite (fun _ => ensures_error) fun _ => ?_
    refine ensures_ite (fun rank => ensures_ok ⟨row, found, rank⟩) fun _ => ?_
    refine ensures_ok ⟨{ row with checkpointState := receipt.checkpointState.state }, ?_,
      le_refl _⟩
    rw [Database.find?_setCheckpointState_self, found]
    rfl
  · refine ensures_bind fun next added => ensures_ok ?_
    obtain ⟨_, free, rfl⟩ := Database.addReceipt_eq_ok added
    exact ⟨_, Table.find?_insert_self free, le_refl _⟩

/-- The work that writes afresh: first the receipt, then the rest. -/
theorem ensures_freshCheckpoint (trimmed : responseId.trim = responseId)
    (counted : replay.Counted) (db : Database) :
    Ensures (freshCheckpoint options host ttlMs responseId ownership replay progress finalize db)
      fun answer => ∃ written row, Database.Changes options occasion db written ∧
        written.receipts.find? (storedKey ownership.accountId responseId) = some row ∧
        checkpointRank progress.receipt.state ≤ checkpointRank row.checkpointState ∧
        Database.Changes options occasion written answer.1 := by
  have wrote := (Database.ensures_upsertReceipt_changes options occasion host.accountIsActive
    ttlMs host.receiptWritten ⟨ownership, responseId, progress.receipt⟩ db).and
      (ensures_upsertReceipt_found _ _ _ _ _)
  refine wrote.bind fun (first, _) ⟨changes, row, found, rank⟩ => ?_
  rw [trimmed] at found
  have upserted : Ensures (upsertReplay options (storedKey ownership.accountId responseId) replay
      host.checkpointWritten first) fun answer =>
        Database.Changes options occasion first answer.1 :=
    ensures_ite (fun _ => ensures_ok .refl) fun _ =>
      Database.ensures_upsertCheckpoint_changes host.checkpointWritten found
        (live_of_rank_le progress rank) counted
  refine upserted.bind fun (second, _) changesAgain => ?_
  refine (ensures_finalizeCheckpoint_changes options occasion progress finalize second).bind
    fun last finalized => ensures_ok ⟨first, row, changes, found, rank, ?_⟩
  exact changesAgain.trans finalized

theorem ensures_freshCheckpoint_changes (trimmed : responseId.trim = responseId)
    (counted : replay.Counted) (db : Database) :
    Ensures (freshCheckpoint options host ttlMs responseId ownership replay progress finalize db)
      fun answer => Database.Changes options occasion db answer.1 :=
  (ensures_freshCheckpoint trimmed counted db).mono
    fun _ ⟨_, _, before, _, _, later⟩ => before.trans later

end Transaction

/-! ## Every way -/

theorem prepared_trim
    (prepared : prepareCheckpoint options host record ownership = .ok (responseId, replay)) :
    responseId.trim = responseId := by
  rw [(prepareCheckpoint_eq_ok prepared).1, JsString.trim_trim]

variable (options) in
/-- The promotion of a receipt raises it. -/
theorem change_promote {existing : ReceiptRow} (read : db.readReceipt key = some existing)
    (partly : existing.checkpointState = .partialState) :
    Database.Change options occasion db (db.setCheckpointState key .complete) := by
  obtain ⟨row, found, rfl⟩ := Database.readReceipt_eq_some read
  have same := (Table.find?_eq_some.mp found).2
  rw [← same] at found ⊢
  have partly : row.checkpointState = .partialState := partly
  refine .raise db row .complete found ?_ ?_
  · rw [partly]
    decide
  · rw [partly]
    decide

/-- `recordCheckpoint` takes the steps of the store, whichever way it goes. -/
theorem CheckpointPath.changes {answer : Answer Unit}
    (due : occasion = some ⟨store.ttlMs, host.transaction⟩)
    (path : CheckpointPath options host record ownership progress finalize store answer) :
    Database.Changes options occasion store.db answer.2.db := by
  cases path with
  | refused error memo => exact .refl
  | recorded responseId replay existing next prepared usable rank matching finalized =>
    exact ensures_finalizeCheckpoint_changes options occasion progress finalize store.db next
      finalized
  | promoted responseId replay existing next memo prepared usable complete partly matching
      finalized =>
    obtain ⟨found, _⟩ := usableReceipt_eq_some usable
    exact .head (change_promote options found partly)
      (ensures_runFinalize_changes options occasion finalize _ next finalized)
  | updated responseId replay existing next result memo canSkip prepared usable skipped evicting
      ran =>
    obtain ⟨found, _⟩ := usableReceipt_eq_some usable
    exact changes_checkpointTransaction due found (counted_of_prepareCheckpoint prepared) ran
  | fresh responseId replay next prepared unusable ran evicting =>
    exact ensures_mutation_changes (ensures_freshCheckpoint_changes (prepared_trim prepared)
      (counted_of_prepareCheckpoint prepared)) due store.db next ran

end GhcGateway.History
