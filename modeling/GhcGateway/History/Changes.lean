/-
# How the history changes

Whatever the store does to its database, it does in a few kinds of steps. `Change`
lists them, with what is known where each is taken: the receipts expire whose time
has come, checkpoints are evicted only from a store that is over one of its bounds, a
receipt is only ever raised, a checkpoint is added only to a receipt in a state that
may have one.

`Valid` is what every database the store works on satisfies, apart from the bounds:
the counters are ahead of every row, a checkpoint belongs to a live receipt and
counts what it holds.
-/

import GhcGateway.History.Extraction
import GhcGateway.History.Store

namespace GhcGateway.History

open Library

/-- A state in which a receipt may have a checkpoint. -/
def ResponsesCheckpointState.Live (state : ResponsesCheckpointState) : Prop :=
  state = .partialState ∨ state = .complete

/-- The columns of a checkpoint agree with its items. -/
structure CheckpointRow.Counted (row : CheckpointRow) : Prop where
  count : row.replayItemCount = row.items.length
  bytes : row.replayBytes = (row.items.map ReplayItemRow.itemBytes).sum

/-- When an expiry takes place: the time to live, and the clock at the start of the
transaction. -/
structure Occasion where
  ttlMs : Int
  now : Int

namespace Database

variable {state : ResponsesCheckpointState} {key other : ReceiptKey} {row : CheckpointRow}
  {replay : StoredReplay}

/-- The store is over one of its bounds. -/
def Overfull (options : HistoryOptions) (db : Database) : Prop :=
  options.maxResponses < db.responses ∨ options.maxStoredReplayBytes < db.storedReplayBytes

def replaceReplay (db : Database) (key : ReceiptKey) (replay : StoredReplay) : Database :=
  { db with
    checkpoints := db.checkpoints.update key
      (fun row => { row with
        replayFormatVersion := replay.formatVersion
        replayItemCount := replay.itemCount
        replayBytes := replay.bytes
        items := replay.items.map StoredReplayItem.row })
      (key_withReplay replay) }

/-- One step of the store in an operation that has its expiry, if any, on this occasion. -/
inductive Change (options : HistoryOptions) (occasion : Option Occasion) :
    Database → Database → Prop
  | bump (db : Database) : Change options occasion db db.bumpRevision
  | carriers (db : Database) (carriers : Conversion.CarrierTable) :
      Change options occasion db { db with carriers := carriers }
  | mark (db : Database) : Change options occasion db db.markUncertain
  | expire (db : Database) (ttlMs now : Int) (due : occasion = some ⟨ttlMs, now⟩) :
      Change options occasion db (db.expireReceipts ttlMs now).1
  | deleteLegacy (db : Database) (responseIds : List JsString) (marked : db.uncertain = true) :
      Change options occasion db (db.deleteLegacy responseIds)
  | evict (db : Database) (keys : List ReceiptKey) (overfull : db.Overfull options)
      (held : ∀ key ∈ keys, ∃ row ∈ db.checkpoints.rows, ReceiptKey.read row.key = key) :
      Change options occasion db (keys.foldl evictCheckpoint db)
  | deleteReceipts (db : Database) (condition : ReceiptKey → Bool)
      (marked : ∀ row ∈ db.receipts.rows, condition row.key = true → db.uncertain = true) :
      Change options occasion db (db.deleteReceipts condition)
  | raise (db : Database) (row : ReceiptRow) (state : ResponsesCheckpointState)
      (found : db.receipts.find? row.key = some row) (open_ : row.checkpointState ≠ .expired)
      (higher : checkpointRank row.checkpointState < checkpointRank state) :
      Change options occasion db (db.setCheckpointState row.key state)
  | addReceipt (db next : Database) (row : ReceiptRow) (added : db.addReceipt row = .ok next)
      (seq : row.insertionSeq = db.nextReceiptSeq) : Change options occasion db next
  | addCheckpoint (db next : Database) (row : CheckpointRow) (receipt : ReceiptRow)
      (added : db.addCheckpoint row = .ok next) (seq : row.insertionSeq = db.nextCheckpointSeq)
      (found : db.receipts.find? row.key = some receipt) (live : receipt.checkpointState.Live)
      (counted : row.Counted) : Change options occasion db next
  | replaceReplay (db : Database) (key : ReceiptKey) (replay : StoredReplay)
      (counted : replay.Counted) : Change options occasion db (db.replaceReplay key replay)

/-- Some steps of the store. -/
abbrev Changes (options : HistoryOptions) (occasion : Option Occasion) :
    Database → Database → Prop :=
  Relation.ReflTransGen (Change options occasion)

/-- What every database of the store satisfies, apart from the bounds. -/
structure Valid (db : Database) : Prop where
  receipts : db.receipts.Numbered ReceiptRow.insertionSeq db.nextReceiptSeq
  checkpoints : db.checkpoints.Numbered CheckpointRow.insertionSeq db.nextCheckpointSeq
  owned : ∀ row ∈ db.checkpoints.rows, ∃ receipt,
    db.receipts.find? row.key = some receipt ∧ receipt.checkpointState.Live
  counted : ∀ row ∈ db.checkpoints.rows, row.Counted

theorem valid_empty : Valid Database.empty where
  receipts := Table.numbered_empty _ _
  checkpoints := Table.numbered_empty _ _
  owned row member := by cases member
  counted row member := by cases member

/-! ## Every step keeps the database valid -/

variable {options : HistoryOptions} {occasion : Option Occasion} {db next : Database}

/-- What an operation on the database keeps, a loop of it keeps. -/
theorem foldl_keeps {ι : Type} {work : Database → ι → Database} {Kept : Database → Prop}
    (keeps : ∀ db item, Kept db → Kept (work db item)) (items : List ι) (kept : Kept db) :
    Kept (items.foldl work db) := by
  induction items generalizing db with
  | nil => exact kept
  | cons item items ih => exact ih (keeps db item kept)

theorem expireReceipts_eq (ttlMs now : Int) :
    (db.expireReceipts ttlMs now).1 =
      ((db.dueReceipts ttlMs now).map fun row => ReceiptKey.read row.key).foldl
        expireReceipt db := by
  unfold expireReceipts
  dsimp only
  split
  · next none => rw [none, List.foldl_nil]
  · rfl

theorem addReceipt_eq_ok {row : ReceiptRow} (added : db.addReceipt row = .ok next) :
    (∀ other ∈ db.receipts.rows, other.insertionSeq ≠ row.insertionSeq) ∧
      ∃ free : db.receipts.find? row.key = none,
        next = { db with
          receipts := db.receipts.insert row free
          nextReceiptSeq := db.nextReceiptSeq + 1 } := by
  unfold addReceipt at added
  split at added
  · cases added
  · next apart =>
    simp only [List.any_eq_true, decide_eq_true_eq, not_exists, not_and] at apart
    split at added
    · next free =>
      cases added
      exact ⟨apart, free, rfl⟩
    · cases added

theorem addCheckpoint_eq_ok (added : db.addCheckpoint row = .ok next) :
    (∀ other ∈ db.checkpoints.rows, other.insertionSeq ≠ row.insertionSeq) ∧
      ∃ free : db.checkpoints.find? row.key = none,
        next = { db with
          checkpoints := db.checkpoints.insert row free
          nextCheckpointSeq := db.nextCheckpointSeq + 1 } := by
  unfold addCheckpoint at added
  split at added
  · cases added
  · next apart =>
    rw [Bool.or_eq_true, Bool.or_eq_true, not_or, not_or] at apart
    split at added
    · next free =>
      cases added
      refine ⟨fun other member same => apart.1.1 ?_, free, rfl⟩
      exact List.any_eq_true.mpr ⟨other, member, decide_eq_true same⟩
    · cases added

theorem mem_deleteCheckpoint :
    row ∈ (db.deleteCheckpoint key).checkpoints.rows ↔
      row ∈ db.checkpoints.rows ∧ row.key ≠ key := by
  rw [deleteCheckpoint, Table.mem_delete, decide_eq_false_iff_not]

theorem find?_setCheckpointState_of_ne (apart : other ≠ key) :
    (db.setCheckpointState key state).receipts.find? other = db.receipts.find? other := by
  rw [setCheckpointState, Table.find?_update_of_ne apart]

theorem find?_setCheckpointState_self :
    (db.setCheckpointState key state).receipts.find? key =
      (db.receipts.find? key).map fun row => { row with checkpointState := state } := by
  rw [setCheckpointState, Table.find?_update_self]

theorem find?_resetCheckpointState_of_ne (apart : other ≠ key) :
    (db.resetCheckpointState key).receipts.find? other = db.receipts.find? other := by
  rw [resetCheckpointState, Table.find?_update_of_ne apart]

theorem Valid.expireReceipt (valid : db.Valid) (key : ReceiptKey) :
    (db.expireReceipt key).Valid where
  receipts := by
    apply valid.receipts.update
    all_goals exact fun _ => rfl
  checkpoints := valid.checkpoints.delete _
  owned row member := by
    obtain ⟨old, apart⟩ := mem_deleteCheckpoint.mp member
    obtain ⟨receipt, found, live⟩ := valid.owned row old
    exact ⟨receipt, (find?_setCheckpointState_of_ne apart).trans found, live⟩
  counted row member := valid.counted row (mem_deleteCheckpoint.mp member).1

theorem Valid.evictCheckpoint (valid : db.Valid) (key : ReceiptKey) :
    (db.evictCheckpoint key).Valid where
  receipts := by
    apply valid.receipts.update
    all_goals exact fun _ => rfl
  checkpoints := valid.checkpoints.delete _
  owned row member := by
    obtain ⟨old, apart⟩ := mem_deleteCheckpoint.mp member
    obtain ⟨receipt, found, live⟩ := valid.owned row old
    exact ⟨receipt, (find?_resetCheckpointState_of_ne apart).trans found, live⟩
  counted row member := valid.counted row (mem_deleteCheckpoint.mp member).1

theorem Valid.deleteReceipts (valid : db.Valid) (condition : ReceiptKey → Bool) :
    (db.deleteReceipts condition).Valid where
  receipts := valid.receipts.delete _
  checkpoints := valid.checkpoints.delete _
  owned row member := by
    obtain ⟨old, spared⟩ := Table.mem_delete.mp member
    obtain ⟨receipt, found, live⟩ := valid.owned row old
    have same := (Table.find?_eq_some.mp found).2
    refine ⟨receipt, Table.find?_delete_of_false found ?_, live⟩
    rw [same]
    exact spared
  counted row member := valid.counted row (Table.mem_delete.mp member).1

/-- A state that outranks another is live. -/
theorem live_of_checkpointRank_lt {low high : ResponsesCheckpointState}
    (higher : checkpointRank low < checkpointRank high) : high.Live := by
  cases high with
  | routeOnly => exact absurd higher (Nat.not_lt_zero _)
  | partialState => exact .inl rfl
  | complete => exact .inr rfl
  | expired => exact absurd higher (Nat.not_lt_zero _)

theorem Valid.setCheckpointState (valid : db.Valid) (key : ReceiptKey) (live : state.Live) :
    (db.setCheckpointState key state).Valid where
  receipts := by
    apply valid.receipts.update
    all_goals exact fun _ => rfl
  checkpoints := valid.checkpoints
  owned row member := by
    obtain ⟨receipt, found, receiptLive⟩ := valid.owned row member
    by_cases same : row.key = key
    · subst same
      refine ⟨{ receipt with checkpointState := state }, ?_, live⟩
      rw [find?_setCheckpointState_self, found]
      rfl
    · exact ⟨receipt, (find?_setCheckpointState_of_ne same).trans found, receiptLive⟩
  counted := valid.counted

theorem Valid.addReceipt (valid : db.Valid) {row : ReceiptRow}
    (added : db.addReceipt row = .ok next) (seq : row.insertionSeq = db.nextReceiptSeq) :
    next.Valid := by
  obtain ⟨-, free, rfl⟩ := addReceipt_eq_ok added
  refine ⟨valid.receipts.insert free seq, valid.checkpoints, ?_, valid.counted⟩
  intro checkpoint member
  obtain ⟨receipt, found, live⟩ := valid.owned checkpoint member
  have apart : row.key ≠ checkpoint.key := by
    intro same
    rw [same, found] at free
    cases free
  refine ⟨receipt, ?_, live⟩
  rw [Table.find?_insert_of_ne apart]
  exact found

theorem Valid.addCheckpoint (valid : db.Valid) {receipt : ReceiptRow}
    (added : db.addCheckpoint row = .ok next) (seq : row.insertionSeq = db.nextCheckpointSeq)
    (found : db.receipts.find? row.key = some receipt) (live : receipt.checkpointState.Live)
    (counted : row.Counted) : next.Valid := by
  obtain ⟨-, free, rfl⟩ := addCheckpoint_eq_ok added
  refine ⟨valid.receipts, valid.checkpoints.insert free seq, ?_, ?_⟩
  · intro checkpoint member
    rcases (Table.mem_insert free).mp member with old | rfl
    · exact valid.owned checkpoint old
    · exact ⟨receipt, found, live⟩
  · intro checkpoint member
    rcases (Table.mem_insert free).mp member with old | rfl
    · exact valid.counted checkpoint old
    · exact counted

theorem counted_of_replay (counted : replay.Counted) (row : CheckpointRow) :
    ({ row with
      replayFormatVersion := replay.formatVersion
      replayItemCount := replay.itemCount
      replayBytes := replay.bytes
      items := replay.items.map StoredReplayItem.row } : CheckpointRow).Counted where
  count := by rw [counted.count, List.length_map]
  bytes := by
    rw [counted.bytes, List.map_map]
    rfl

theorem mem_replaceReplay :
    row ∈ (db.replaceReplay key replay).checkpoints.rows ↔
      ∃ before ∈ db.checkpoints.rows, row =
        if before.key = key then
          { before with
            replayFormatVersion := replay.formatVersion
            replayItemCount := replay.itemCount
            replayBytes := replay.bytes
            items := replay.items.map StoredReplayItem.row }
        else before := by
  rw [replaceReplay, Table.mem_update]

theorem Valid.replaceReplay (valid : db.Valid) (key : ReceiptKey) (counted : replay.Counted) :
    (db.replaceReplay key replay).Valid where
  receipts := valid.receipts
  checkpoints := by
    apply valid.checkpoints.update
    all_goals exact fun _ => rfl
  owned row member := by
    obtain ⟨before, beforeMember, rfl⟩ := mem_replaceReplay.mp member
    split
    · exact valid.owned before beforeMember
    · exact valid.owned before beforeMember
  counted row member := by
    obtain ⟨before, beforeMember, rfl⟩ := mem_replaceReplay.mp member
    split
    · exact counted_of_replay counted before
    · exact valid.counted before beforeMember

/-- Every step keeps the database valid. -/
theorem Valid.change (valid : db.Valid) (change : Change options occasion db next) :
    next.Valid := by
  cases change with
  | bump => exact ⟨valid.receipts, valid.checkpoints, valid.owned, valid.counted⟩
  | carriers => exact ⟨valid.receipts, valid.checkpoints, valid.owned, valid.counted⟩
  | mark => exact ⟨valid.receipts, valid.checkpoints, valid.owned, valid.counted⟩
  | expire ttlMs now due =>
    rw [expireReceipts_eq]
    exact foldl_keeps (fun _ key kept => kept.expireReceipt key) _ valid
  | deleteLegacy ids => exact ⟨valid.receipts, valid.checkpoints, valid.owned, valid.counted⟩
  | evict keys => exact foldl_keeps (fun _ key kept => kept.evictCheckpoint key) keys valid
  | deleteReceipts condition => exact valid.deleteReceipts condition
  | raise row state found open_ higher =>
    exact valid.setCheckpointState row.key (live_of_checkpointRank_lt higher)
  | addReceipt _ row added seq => exact valid.addReceipt added seq
  | addCheckpoint _ row receipt added seq found live counted =>
    exact valid.addCheckpoint added seq found live counted
  | replaceReplay key replay counted => exact valid.replaceReplay key counted

theorem Valid.changes (valid : db.Valid) (changes : Changes options occasion db next) :
    next.Valid := by
  induction changes with
  | refl => exact valid
  | tail _ change ih => exact ih.change change

end Database

end GhcGateway.History
