/-
# The invariant of the history store

Two things hold of every database the store has worked on. It is `Valid`, which
every step keeps. And it is within its bounds, which single steps may leave: an
operation that may have added something ends with the evictions, which restore
them where they find the rows they select under the ids they read. The bound on
receipts can be restored because the receipts with a checkpoint are never too many.

From the invariant it follows that the database never rejects a row.
-/

import GhcGateway.History.CheckpointPaths

namespace GhcGateway.History

open Library Conversion HistoryStore

variable {work : Database → Except HistoryError (Database × Bool)} {receipt : ReceiptRow}
  {ttlMs now : Int} {operation : Operation} {expiredDb : Database} {changed : Bool}

namespace Database

open ReceiptKey

variable {options : HistoryOptions} {db next last : Database}
  {rows : List CheckpointRow} {key : ReceiptKey}

/-! ## Sizes -/

structure Shrinks (db next : Database) : Prop where
  receipts : next.receipts.size ≤ db.receipts.size
  responses : next.responses ≤ db.responses
  bytes : next.storedReplayBytes ≤ db.storedReplayBytes

theorem Shrinks.refl (db : Database) : Shrinks db db := ⟨le_refl _, le_refl _, le_refl _⟩

theorem Shrinks.trans (first : Shrinks db next) (second : Shrinks next last) : Shrinks db last where
  receipts := second.receipts.trans first.receipts
  responses := second.responses.trans first.responses
  bytes := second.bytes.trans first.bytes

theorem shrinks_foldl {ι : Type} {work : Database → ι → Database}
    (shrinks : ∀ db item, Shrinks db (work db item)) (items : List ι) (db : Database) :
    Shrinks db (items.foldl work db) := by
  induction items generalizing db with
  | nil => exact .refl db
  | cons item items ih => exact (shrinks db item).trans (ih _)

@[simp]
theorem size_setCheckpointState (db : Database) (key : ReceiptKey)
    (state : ResponsesCheckpointState) :
    (db.setCheckpointState key state).receipts.size = db.receipts.size := by
  rw [setCheckpointState, Table.size_update]

@[simp]
theorem size_resetCheckpointState (db : Database) (key : ReceiptKey) :
    (db.resetCheckpointState key).receipts.size = db.receipts.size := by
  rw [resetCheckpointState, Table.size_update]

theorem shrinks_markUncertain : Shrinks db db.markUncertain := ⟨le_refl _, le_refl _, le_refl _⟩

theorem shrinks_setCheckpointState (key : ReceiptKey) (state : ResponsesCheckpointState) :
    Shrinks db (db.setCheckpointState key state) where
  receipts := Nat.le_of_eq (size_setCheckpointState _ _ _)
  responses := le_refl _
  bytes := le_refl _

theorem shrinks_deleteCheckpoint (key : ReceiptKey) : Shrinks db (db.deleteCheckpoint key) where
  receipts := le_refl _
  responses := Nat.add_le_add_right (Table.size_delete_le _ _) _
  bytes := Table.total_delete_le _ _ _

theorem shrinks_expireReceipt (key : ReceiptKey) : Shrinks db (db.expireReceipt key) where
  receipts := Nat.le_of_eq (size_setCheckpointState _ _ _)
  responses := (shrinks_deleteCheckpoint key).responses
  bytes := (shrinks_deleteCheckpoint key).bytes

theorem shrinks_evictCheckpoint (key : ReceiptKey) : Shrinks db (db.evictCheckpoint key) where
  receipts := Nat.le_of_eq (size_resetCheckpointState _ _)
  responses := (shrinks_deleteCheckpoint key).responses
  bytes := (shrinks_deleteCheckpoint key).bytes

theorem shrinks_deleteReceipts (condition : ReceiptKey → Bool) (db : Database) :
    Shrinks db (db.deleteReceipts condition) where
  receipts := Table.size_delete_le _ _
  responses := Nat.add_le_add_right (Table.size_delete_le _ _) _
  bytes := Table.total_delete_le _ _ _

theorem shrinks_deleteLegacy (ids : List JsString) : Shrinks db (db.deleteLegacy ids) where
  receipts := le_refl _
  responses := Nat.add_le_add_left (Table.size_delete_le _ _) _
  bytes := le_refl _

theorem shrinks_expireReceipts (ttlMs now : Int) : Shrinks db (db.expireReceipts ttlMs now).1 := by
  rw [expireReceipts_eq]
  exact shrinks_foldl (fun _ key => shrinks_expireReceipt key) _ db

theorem shrinks_expireLegacy (ttlMs now : Int) : Shrinks db (db.expireLegacy ttlMs now).1 := by
  simp only [expireLegacy]
  split
  · exact .refl db
  · exact shrinks_markUncertain.trans (shrinks_deleteLegacy _)

theorem shrinks_evictLegacy (overflow : Nat) : Shrinks db (db.evictLegacy overflow).1 := by
  simp only [evictLegacy]
  split
  · exact .refl db
  · exact shrinks_markUncertain.trans (shrinks_deleteLegacy _)

theorem shrinks_evictAll (keys : List ReceiptKey) :
    Shrinks db (keys.foldl evictCheckpoint db) :=
  shrinks_foldl (fun _ key => shrinks_evictCheckpoint key) keys db

variable (options) in
theorem shrinks_evictCheckpointOverflow (db : Database) :
    Shrinks db (db.evictCheckpointOverflow options).1 :=
  ((shrinks_evictLegacy _).trans (shrinks_evictAll _)).trans (shrinks_evictAll _)

variable (options) in
theorem shrinks_evictReceiptOverflow (db : Database) :
    Shrinks db (db.evictReceiptOverflow options).1 := by
  apply shrinks_foldl
  intro db key
  exact shrinks_markUncertain.trans (shrinks_deleteReceipts _ _)

/-! ## What the evictions leave -/

/-- The ids of the rows that the evictions of checkpoints select are those that are read. -/
def CheckpointsAsBound (options : HistoryOptions) (db : Database) : Prop :=
  let overflow := db.responses - options.maxResponses
  let legacy := db.evictLegacy overflow
  let oldest := legacy.1.evictOldest (overflow - legacy.2)
  (∀ row ∈ db.oldestLegacy overflow, columnText row.responseId = row.responseId) ∧
    (∀ row ∈ legacy.1.oldestCheckpoints (overflow - legacy.2), read row.key = row.key) ∧
    ∀ row ∈ oldest.1.exceedingCheckpoints options, read row.key = row.key

instance (options : HistoryOptions) (db : Database) : Decidable (db.CheckpointsAsBound options) :=
  inferInstanceAs (Decidable (_ ∧ _ ∧ _))

/-- The same for all the evictions of a transaction. -/
def EvictsAsBound (options : HistoryOptions) (db : Database) : Prop :=
  db.CheckpointsAsBound options ∧
    ∀ row ∈ (db.evictCheckpointOverflow options).1.excessReceipts options,
      read row.key = row.key

instance (options : HistoryOptions) (db : Database) : Decidable (db.EvictsAsBound options) :=
  inferInstanceAs (Decidable (_ ∧ _))

theorem legacy_evictAll (keys : List ReceiptKey) (db : Database) :
    (keys.foldl evictCheckpoint db).legacy = db.legacy :=
  @foldl_keeps db _ evictCheckpoint (fun next => next.legacy = db.legacy)
    (fun _ _ kept => kept) keys rfl

/-- Rows whose keys are read as they are bound have the keys that are read. -/
theorem map_read (asBound : ∀ row ∈ rows, read row.key = row.key) :
    (rows.map fun row => read row.key) = rows.map CheckpointRow.key :=
  List.map_congr_left asBound

/-- The eviction of legacy responses stops at nothing but their number. -/
theorem count_evictLegacy (overflow : Nat) :
    (db.evictLegacy overflow).2 = min overflow db.legacy.size := by
  have length : (db.legacy.orderedBy LegacyRow.insertionSeq).length = db.legacy.size :=
    (db.legacy.perm_orderedBy _).length_eq
  have taken : ((db.oldestLegacy overflow).map fun row => columnText row.responseId).length =
      min overflow db.legacy.size := by
    rw [List.length_map, oldestLegacy, List.length_take, length]
  simp only [evictLegacy]
  split
  · next none =>
    rw [none] at taken
    exact taken
  · exact taken

/-- The eviction of legacy responses takes as many as it says, if it finds them under their
ids. -/
theorem responses_evictLegacy {overflow : Nat}
    (asBound : ∀ row ∈ db.oldestLegacy overflow, columnText row.responseId = row.responseId) :
    (db.evictLegacy overflow).1.responses + (db.evictLegacy overflow).2 = db.responses := by
  simp only [evictLegacy, List.map_congr_left asBound]
  split
  · rfl
  · have whole : (db.oldestLegacy overflow ++
        (db.legacy.orderedBy LegacyRow.insertionSeq).drop overflow).Perm db.legacy.rows := by
      rw [oldestLegacy, List.take_append_drop]
      exact db.legacy.perm_orderedBy _
    have size := Table.size_delete_mem whole fun row => decide_eq_true_iff
    have before : db.responses = db.checkpoints.size + db.legacy.size := rfl
    rw [before, ← size, List.length_map]
    exact Nat.add_assoc db.checkpoints.size (Table.size _) (List.length _)

/-- A prefix of the checkpoints in order of age is evicted as a whole, if it is found under
its keys. -/
theorem evictAll_oldest (oldest : rows <+: db.checkpoints.orderedBy CheckpointRow.insertionSeq)
    (asBound : ∀ row ∈ rows, read row.key = row.key) :
    ((rows.map fun row => read row.key).foldl evictCheckpoint db).checkpoints.size +
        rows.length = db.checkpoints.size ∧
      ((rows.map fun row => read row.key).foldl evictCheckpoint db).storedReplayBytes +
        Eviction.weighed CheckpointRow.replayBytes rows = db.storedReplayBytes := by
  obtain ⟨others, whole⟩ := oldest
  obtain ⟨condition, taken, deleted⟩ := Table.foldl_delete_key checkpoints
    (fun (db : Database) key => show (db.evictCheckpoint key).checkpoints = _ from rfl)
    (rows.map CheckpointRow.key) db
  have perm : (rows ++ others).Perm db.checkpoints.rows := by
    rw [whole]
    exact db.checkpoints.perm_orderedBy _
  unfold storedReplayBytes
  rw [map_read asBound, deleted]
  exact ⟨Table.size_delete_mem perm taken, Table.total_delete_mem perm taken _⟩

/-- After the eviction by count there are not too many responses. -/
theorem responses_evictOldest {mid : Database} {count : Nat}
    (evicted : db.evictLegacy (db.responses - options.maxResponses) = (mid, count))
    (legacyAsBound : ∀ row ∈ db.oldestLegacy (db.responses - options.maxResponses),
      columnText row.responseId = row.responseId)
    (asBound : ∀ row ∈ mid.oldestCheckpoints (db.responses - options.maxResponses - count),
      read row.key = row.key) :
    (mid.evictOldest (db.responses - options.maxResponses - count)).1.responses ≤
      options.maxResponses := by
  have taken := responses_evictLegacy legacyAsBound
  have legacy := @count_evictLegacy db (db.responses - options.maxResponses)
  rw [evicted] at taken legacy
  have same : (mid.evictOldest (db.responses - options.maxResponses - count)).1.legacy =
      mid.legacy := legacy_evictAll _ _
  have removed := (evictAll_oldest (List.take_prefix
    (db.responses - options.maxResponses - count)
    (mid.checkpoints.orderedBy CheckpointRow.insertionSeq)) asBound).1
  rw [List.length_take, (mid.checkpoints.perm_orderedBy _).length_eq] at removed
  have total : db.responses = db.checkpoints.size + db.legacy.size := rfl
  have midTotal : mid.responses = mid.checkpoints.size + mid.legacy.size := rfl
  have length : mid.checkpoints.rows.length = mid.checkpoints.size := rfl
  rw [length] at removed
  have after : (mid.evictOldest (db.responses - options.maxResponses - count)).1.responses =
      (mid.evictOldest (db.responses - options.maxResponses - count)).1.checkpoints.size +
        mid.legacy.size := by
    rw [← same]
    rfl
  have shrunk : (mid.evictOldest (db.responses - options.maxResponses - count)).1.checkpoints.size +
      min (db.responses - options.maxResponses - count) mid.checkpoints.size =
        mid.checkpoints.size := removed
  have kept : mid.checkpoints = db.checkpoints := by
    have := congrArg (fun pair => pair.1.checkpoints) evicted
    simp only [evictLegacy] at this
    split at this
    · exact this.symm
    · exact this.symm
  have keptSize : mid.checkpoints.size = db.checkpoints.size := by rw [kept]
  simp only at taken legacy
  omega

/-- After the eviction by size there are not too many bytes. -/
theorem bytes_evictBytes
    (asBound : ∀ row ∈ db.exceedingCheckpoints options, read row.key = row.key) :
    (db.evictBytes options).1.storedReplayBytes ≤ options.maxStoredReplayBytes := by
  have removed := (evictAll_oldest (Eviction.oldestExceeding_prefix
    CheckpointRow.replayBytes ((db.storedReplayBytes : Int) - options.maxStoredReplayBytes)
    (db.checkpoints.orderedBy CheckpointRow.insertionSeq)) asBound).2
  have whole : Eviction.weighed CheckpointRow.replayBytes
      (db.checkpoints.orderedBy CheckpointRow.insertionSeq) = db.storedReplayBytes :=
    Eviction.weighed_perm _ (db.checkpoints.perm_orderedBy _)
  have some : (db.storedReplayBytes : Int) - options.maxStoredReplayBytes ≤
      Eviction.weighed CheckpointRow.replayBytes
        (db.checkpoints.orderedBy CheckpointRow.insertionSeq) := by
    rw [whole]
    omega
  have enough := Eviction.le_weighed_oldestExceeding CheckpointRow.replayBytes some
  have after : (db.evictBytes options).1.storedReplayBytes + Eviction.weighed
      CheckpointRow.replayBytes (Eviction.oldestExceeding CheckpointRow.replayBytes
        ((db.storedReplayBytes : Int) - options.maxStoredReplayBytes)
        (db.checkpoints.orderedBy CheckpointRow.insertionSeq)) = db.storedReplayBytes := removed
  omega

/-- The eviction of checkpoints restores the bounds on them, if it finds the rows it has
selected. -/
theorem bounds_evictCheckpointOverflow (asBound : db.CheckpointsAsBound options) :
    (db.evictCheckpointOverflow options).1.responses ≤ options.maxResponses ∧
      (db.evictCheckpointOverflow options).1.storedReplayBytes ≤ options.maxStoredReplayBytes := by
  obtain ⟨legacyAsBound, oldestAsBound, exceedingAsBound⟩ := asBound
  cases evicted : db.evictLegacy (db.responses - options.maxResponses) with
  | mk mid count =>
    simp only [evicted] at oldestAsBound exceedingAsBound
    have bounded := responses_evictOldest evicted legacyAsBound oldestAsBound
    simp only [evictCheckpointOverflow, evicted]
    exact ⟨(shrinks_evictAll _).responses.trans bounded, bytes_evictBytes exceedingAsBound⟩

/-- The receipts with a checkpoint are at most as many as the checkpoints. -/
theorem length_withCheckpoint_le (db : Database) :
    (db.receipts.rows.filter fun row => (db.checkpoints.find? row.key).isSome).length ≤
      db.checkpoints.size := by
  have distinct : ((db.receipts.rows.filter fun row =>
      (db.checkpoints.find? row.key).isSome).map ReceiptRow.key).Nodup :=
    db.receipts.unique.sublist (List.filter_sublist.map _)
  have among : ((db.receipts.rows.filter fun row =>
      (db.checkpoints.find? row.key).isSome).map ReceiptRow.key) ⊆
        db.checkpoints.rows.map CheckpointRow.key := by
    intro key member
    obtain ⟨row, filtered, rfl⟩ := List.mem_map.mp member
    obtain ⟨checkpoint, found⟩ := Option.isSome_iff_exists.mp (List.mem_filter.mp filtered).2
    obtain ⟨checkpointMember, same⟩ := Table.find?_eq_some.mp found
    rw [← same]
    exact List.mem_map_of_mem checkpointMember
  have fewer := (distinct.subperm among).length_le
  rw [List.length_map, List.length_map] at fewer
  exact fewer

/-- The removable receipts are those without a checkpoint. -/
theorem perm_removableReceipts (db : Database) :
    db.removableReceipts.Perm
      (db.receipts.rows.filter fun row => !(db.checkpoints.find? row.key).isSome) := by
  have ordered := (db.receipts.perm_orderedBy ReceiptRow.insertionSeq).filter fun row =>
    (db.checkpoints.find? row.key).isNone
  have sorted := List.filter_append_perm (fun row : ReceiptRow => row.checkpointState = .expired)
    ((db.receipts.orderedBy ReceiptRow.insertionSeq).filter fun row =>
      (db.checkpoints.find? row.key).isNone)
  simp only [Option.not_isSome]
  refine List.Perm.trans ?_ (sorted.trans ordered)
  simp only [removableReceipts, ne_eq, decide_not]
  exact .refl _

/-- The eviction of receipts restores the bound on them, if the receipts with a
checkpoint are within it and it finds the rows it has selected. -/
theorem size_evictReceiptOverflow (few : db.checkpoints.size ≤ options.maxReceipts)
    (asBound : ∀ row ∈ db.excessReceipts options, read row.key = row.key) :
    (db.evictReceiptOverflow options).1.receipts.size ≤ options.maxReceipts := by
  have parts := List.filter_append_perm
    (fun row : ReceiptRow => (db.checkpoints.find? row.key).isSome) db.receipts.rows
  have whole : (db.removableReceipts.take (db.receipts.size - options.maxReceipts) ++
      (db.removableReceipts.drop (db.receipts.size - options.maxReceipts) ++
        db.receipts.rows.filter fun row => (db.checkpoints.find? row.key).isSome)).Perm
      db.receipts.rows := by
    rw [← List.append_assoc, List.take_append_drop]
    exact ((perm_removableReceipts db).append_right _).trans (List.perm_append_comm.trans parts)
  obtain ⟨condition, taken, deleted⟩ := Table.foldl_delete_key receipts
    (fun (db : Database) row =>
      show (db.markUncertain.deleteReceipts fun key => key = row).receipts = _ from rfl)
    ((db.excessReceipts options).map ReceiptRow.key) db
  have removed := Table.size_delete_mem whole taken
  have total := parts.length_eq
  rw [List.length_append, ← (perm_removableReceipts db).length_eq] at total
  have fewer := length_withCheckpoint_le db
  have length : db.receipts.rows.length = db.receipts.size := rfl
  have after : (db.evictReceiptOverflow options).1.receipts.size +
      (db.removableReceipts.take (db.receipts.size - options.maxReceipts)).length =
        db.receipts.size := by
    have keys : ((db.excessReceipts options).map fun row => read row.key) =
        (db.excessReceipts options).map ReceiptRow.key := List.map_congr_left asBound
    simp only [evictReceiptOverflow, keys, deleted]
    exact removed
  rw [List.length_take] at after
  omega

/-! ## The invariant -/

structure Sound (options : HistoryOptions) (db : Database) : Prop extends Valid db where
  maxResponses : db.responses ≤ options.maxResponses
  maxReceipts : db.receipts.size ≤ options.maxReceipts
  maxBytes : db.storedReplayBytes ≤ options.maxStoredReplayBytes

theorem sound_empty (options : HistoryOptions) : Sound options Database.empty where
  toValid := valid_empty
  maxResponses := Nat.zero_le _
  maxReceipts := Nat.zero_le _
  maxBytes := Nat.zero_le _

theorem Sound.shrinks (sound : db.Sound options) (valid : next.Valid) (shrinks : Shrinks db next) :
    next.Sound options where
  toValid := valid
  maxResponses := shrinks.responses.trans sound.maxResponses
  maxReceipts := shrinks.receipts.trans sound.maxReceipts
  maxBytes := shrinks.bytes.trans sound.maxBytes

/-- Nothing but the carriers has changed. -/
def SameHistory (db next : Database) : Prop := next = { db with carriers := next.carriers }

theorem SameHistory.refl (db : Database) : SameHistory db db := rfl

theorem SameHistory.sound (same : SameHistory db next) (sound : db.Sound options) :
    next.Sound options := by
  rw [same]
  exact ⟨⟨sound.receipts, sound.checkpoints, sound.owned, sound.counted⟩, sound.maxResponses,
    sound.maxReceipts, sound.maxBytes⟩

/-- A receipt without a live state has no checkpoint. -/
theorem Valid.checkpoint_eq_none (valid : db.Valid) (found : db.receipts.find? key = some receipt)
    (dead : ¬ receipt.checkpointState.Live) : db.checkpoints.find? key = none := by
  cases checkpoint : db.checkpoints.find? key with
  | none => rfl
  | some row =>
    obtain ⟨member, rfl⟩ := Table.find?_eq_some.mp checkpoint
    obtain ⟨owner, ownerFound, live⟩ := valid.owned row member
    rw [found] at ownerFound
    cases ownerFound
    exact absurd live dead

/-- A checkpoint is never rejected where there is none yet. -/
theorem addCheckpoint_returns
    (numbered : db.checkpoints.Numbered CheckpointRow.insertionSeq db.nextCheckpointSeq)
    (found : db.receipts.find? key = some receipt) (free : db.checkpoints.find? key = none)
    {replay : StoredReplay} (checked : ∀ item ∈ replay.items, item.row.Checked) (now : Int) :
    ∃ next, db.addCheckpoint (db.newCheckpoint key replay now) = .ok next := by
  have unused : (db.checkpoints.rows.any fun other =>
      other.insertionSeq = (db.newCheckpoint key replay now).insertionSeq) = false := by
    rw [List.any_eq_false]
    intro other member
    rw [decide_eq_true_iff]
    exact Nat.ne_of_lt (numbered.below other member)
  have parent : (db.receipts.find? (db.newCheckpoint key replay now).key).isNone = false := by
    have same : (db.newCheckpoint key replay now).key = key := rfl
    rw [same, found]
    rfl
  have items : ∀ item ∈ (db.newCheckpoint key replay now).items, item.Checked :=
    List.forall_mem_map.mpr checked
  unfold Database.addCheckpoint
  rw [unused, parent, decide_eq_false (not_not.mpr items)]
  split
  · next impossible => cases impossible
  · split
    · exact ⟨_, rfl⟩
    · next row taken =>
      have same : (db.newCheckpoint key replay now).key = key := rfl
      rw [same, free] at taken
      cases taken

/-! ## Statements that change nothing -/

theorem expireReceipts_of_false (unexpired : db.expireReceipts ttlMs now = (next, false)) :
    next = db := by
  simp only [expireReceipts] at unexpired
  split at unexpired
  · cases unexpired
    rfl
  · cases unexpired

theorem expireLegacy_of_false (unexpired : db.expireLegacy ttlMs now = (next, false)) :
    next = db := by
  simp only [expireLegacy] at unexpired
  split at unexpired
  · cases unexpired
    rfl
  · cases unexpired

/-- A receipt that was left alone. -/
theorem ensures_upsertReceipt_same (accountIsActive : JsString → Bool) (ttlMs now : Int)
    (receipt : ResponsesReceiptRecord) (db : Database) :
    Ensures (db.upsertReceipt accountIsActive ttlMs now receipt) fun next =>
      next.2 = false → next.1 = db := by
  unfold upsertReceipt
  refine ensures_bind fun _ _ => ensures_ite (fun _ => ensures_error) fun _ => ?_
  refine ensures_bind fun responseId _ => ?_
  simp only
  split
  · refine ensures_ite (fun _ => ensures_error) fun _ =>
      ensures_ite (fun _ => ensures_error) fun _ => ?_
    refine ensures_ite (fun _ => ensures_ok fun _ => rfl) fun _ => ensures_ok fun impossible => ?_
    cases impossible
  · refine ensures_bind fun next _ => ensures_ok fun impossible => ?_
    cases impossible

/-- A checkpoint that was left alone. -/
theorem ensures_upsertCheckpoint_same (key : ReceiptKey) (replay : StoredReplay) (now : Int)
    (db : Database) :
    Ensures (db.upsertCheckpoint options key replay now) fun next =>
      next.1.receipts = db.receipts ∧ (next.2 = false → next.1 = db) := by
  unfold upsertCheckpoint
  refine ensures_bind fun _ _ => ensures_ite (fun _ => ensures_ok ⟨rfl, fun _ => rfl⟩) fun _ => ?_
  split
  · refine ensures_ite (fun _ => ensures_ok ⟨rfl, fun _ => rfl⟩) fun _ => ?_
    refine ensures_bind fun next added => ensures_ok ⟨?_, fun impossible => by cases impossible⟩
    obtain ⟨_, free, rfl⟩ := addCheckpoint_eq_ok added
    rfl
  · refine ensures_ite (fun _ => ensures_error) fun _ => ?_
    exact ensures_ok ⟨rfl, fun impossible => by cases impossible⟩

end Database

/-! ## Transactions -/

variable {options : HistoryOptions} {host : HistoryHost}
  {ownership : ResponsesContinuationOwnership}
  {progress : CheckpointProgress} {finalize : Option Finalize} {db next : Database}
  {key : ReceiptKey} {replay : StoredReplay} {store : HistoryStore} {occasion : Option Occasion}

theorem ensures_runFinalize_same (finalize : Option Finalize) (db : Database) :
    Ensures (runFinalize finalize db) db.SameHistory := by
  unfold runFinalize
  split
  · exact ensures_ok (Database.SameHistory.refl db)
  · split
    · exact ensures_error
    · exact ensures_ok rfl

theorem ensures_finalizeCheckpoint_same (progress : CheckpointProgress)
    (finalize : Option Finalize) (db : Database) :
    Ensures (finalizeCheckpoint progress finalize db) db.SameHistory := by
  cases progress with
  | partialState => exact ensures_ok (Database.SameHistory.refl db)
  | complete => exact ensures_runFinalize_same finalize db

theorem ensures_freshCheckpoint_same (ttlMs : Int) (responseId : JsString) (db : Database) :
    Ensures (freshCheckpoint options host ttlMs responseId ownership replay progress finalize db)
      fun answer => answer.2 = false → db.SameHistory answer.1 := by
  refine (Database.ensures_upsertReceipt_same _ _ _ _ db).bind fun (first, receiptChanged) kept =>
    ?_
  have upserted : Ensures (upsertReplay options (storedKey ownership.accountId responseId) replay
      host.checkpointWritten first) fun answer => answer.2 = false → answer.1 = first :=
    ensures_ite (fun _ => ensures_ok fun _ => rfl) fun _ =>
      (Database.ensures_upsertCheckpoint_same _ _ _ first).mono fun _ holds => holds.2
  refine upserted.bind fun (second, checkpointChanged) keptAgain => ?_
  refine (ensures_finalizeCheckpoint_same progress finalize second).bind fun last same => ?_
  refine ensures_ok fun unchanged => ?_
  simp only [Bool.or_eq_false_iff] at unchanged
  have firstSame : first = db := kept unchanged.1
  have secondSame : second = first := keptAgain unchanged.2
  rw [← firstSame, ← secondSame]
  exact same

/-- A mutation without any flag raised has expired nothing. -/
theorem unchanged_of_flags {receiptsDb : Database} {receiptsExpired legacyExpired : Bool}
    (none : ¬ (receiptsExpired || legacyExpired || changed) = true)
    (receipts : db.expireReceipts ttlMs now = (receiptsDb, receiptsExpired))
    (legacy : receiptsDb.expireLegacy ttlMs now = (expiredDb, legacyExpired)) :
    expiredDb = db ∧ changed = false := by
  simp only [Bool.or_eq_true, not_or, Bool.not_eq_true] at none
  obtain ⟨⟨rfl, rfl⟩, unchanged⟩ := none
  rw [Database.expireLegacy_of_false legacy, Database.expireReceipts_of_false receipts]
  exact ⟨rfl, unchanged⟩

theorem shrinks_bumpRevision (db : Database) : Database.Shrinks db db.bumpRevision :=
  ⟨le_refl _, le_refl _, le_refl _⟩

/-- A mutation whose work adds nothing adds nothing. -/
theorem ensures_mutation_shrinks
    (shrinks : ∀ db, Ensures (work db) fun next => Database.Shrinks db next.1) (ttlMs now : Int)
    (db : Database) : Ensures (mutation options ttlMs now work db) (Database.Shrinks db) := by
  intro last ran
  obtain ⟨receiptsDb, expiredDb, next, _, _, _, receipts, legacy, worked, rfl⟩ := mutation_eq_ok ran
  have first : Database.Shrinks db receiptsDb := by
    have := @Database.shrinks_expireReceipts db ttlMs now
    rw [receipts] at this
    exact this
  have second : Database.Shrinks receiptsDb expiredDb := by
    have := @Database.shrinks_expireLegacy receiptsDb ttlMs now
    rw [legacy] at this
    exact this
  have third := (first.trans second).trans (shrinks _ _ worked)
  split
  · have evicted := (Database.shrinks_evictCheckpointOverflow options next).trans
      (Database.shrinks_evictReceiptOverflow options _)
    exact (third.trans evicted).trans (shrinks_bumpRevision _)
  · exact third

/-- A mutation keeps the invariant, if work that reports no change has made
none and the evictions find the rows they select. -/
theorem ensures_mutation_sound (fits : options.maxResponses ≤ options.maxReceipts)
    (changes : ∀ db, Ensures (work db) fun next =>
      Database.Changes options (some ⟨ttlMs, now⟩) db next.1)
    (same : ∀ db, Ensures (work db) fun next => next.2 = false → db.SameHistory next.1)
    (asBound : ∀ evicting ∈ mutationEvicting ttlMs now work db, evicting.EvictsAsBound options)
    (sound : db.Sound options) :
    Ensures (mutation options ttlMs now work db) (Database.Sound options) := by
  have whole := ensures_mutation_changes changes rfl db
  intro last ran
  have valid := sound.toValid.changes (whole last ran)
  obtain ⟨receiptsDb, expiredDb, next, receiptsExpired, legacyExpired, changed, receipts, legacy,
    worked, rfl⟩ := mutation_eq_ok ran
  by_cases some : (receiptsExpired || legacyExpired || changed) = true
  · rw [if_pos some] at valid ⊢
    have started : mutationEvicting ttlMs now work db = Option.some next := by
      simp only [mutationEvicting, receipts, legacy, worked, some, if_true]
    obtain ⟨checkpointsAsBound, receiptsAsBound⟩ := asBound next started
    have checkpoints := Database.bounds_evictCheckpointOverflow checkpointsAsBound
    have fewer := Database.shrinks_evictReceiptOverflow options
      (next.evictCheckpointOverflow options).1
    have few : (next.evictCheckpointOverflow options).1.checkpoints.size ≤ options.maxReceipts :=
      ((Nat.le_add_right _ _).trans checkpoints.1).trans fits
    exact ⟨valid, fewer.responses.trans checkpoints.1,
      Database.size_evictReceiptOverflow few receiptsAsBound, fewer.bytes.trans checkpoints.2⟩
  · rw [if_neg some]
    obtain ⟨expiredSame, workKept⟩ := unchanged_of_flags some receipts legacy
    rw [expiredSame] at worked
    exact (same db _ worked workKept).sound sound

variable (options) in
theorem changes_sweep (ttlMs now : Int) (db : Database) :
    Database.Changes options (some ⟨ttlMs, now⟩) db (sweep options ttlMs now db) :=
  ensures_mutation_changes (fun _ => ensures_ok .refl) rfl db _
    (mutation_nothing options ttlMs now db)

theorem sound_sweep (ttlMs now : Int) (sound : db.Sound options) :
    (sweep options ttlMs now db).Sound options :=
  sound.shrinks (sound.toValid.changes (changes_sweep options ttlMs now db))
    (ensures_mutation_shrinks (fun db => ensures_ok (.refl db)) ttlMs now db _
      (mutation_nothing options ttlMs now db))

section Transaction

variable {canSkip : Bool} {ttlMs : Int} {owned : Ownership} {existing : ReceiptRow}
  {result : TransactionResult} {expired : Bool}

/-- What the transaction of `recordCheckpoint` writes adds no receipt, and what it
reports as unchanged it has not touched. -/
theorem ensures_storeCheckpoint_size (current : ReceiptRow) (db : Database) :
    Ensures (storeCheckpoint options host canSkip key replay progress current db) fun answer =>
      answer.1.receipts.size = db.receipts.size ∧ (answer.2.1 = false → answer.1 = db) := by
  unfold storeCheckpoint
  simp only
  generalize raised : (if decide (checkpointRank current.checkpointState <
    checkpointRank progress.receipt.state) then
      db.setCheckpointState key progress.receipt.state else db) = middle
  have size : middle.receipts.size = db.receipts.size := by
    rw [← raised]
    split
    · exact Database.size_setCheckpointState _ _ _
    · rfl
  have kept : decide (checkpointRank current.checkpointState <
      checkpointRank progress.receipt.state) = false → middle = db := by
    intro unraised
    rw [← raised, unraised]
    rfl
  refine ensures_ite (fun _ => ensures_ok ⟨size, kept⟩) fun _ =>
    ensures_ite (fun _ => ?_) fun _ => ?_
  · refine ensures_bind fun next inserted => ensures_ok ⟨?_, fun impossible => by cases impossible⟩
    obtain ⟨added, ran, returned⟩ := bind_eq_ok.mp inserted
    cases returned
    obtain ⟨_, free, rfl⟩ := Database.addCheckpoint_eq_ok ran
    exact size
  · refine (Database.ensures_upsertCheckpoint_same _ _ _ middle).bind fun (next, _) holds => ?_
    refine ensures_ok ⟨?_, fun unchanged => ?_⟩
    · have receipts : next.receipts = middle.receipts := holds.1
      rw [receipts]
      exact size
    · simp only [Bool.or_eq_false_iff] at unchanged
      have second : next = middle := holds.2 unchanged.2
      rw [second]
      exact kept unchanged.1

/-- The end of the transaction restores the bounds, if there is anything to
restore. -/
theorem sound_settle {bumped : Bool} (valid : db.Valid)
    (receipts : db.receipts.size ≤ options.maxReceipts)
    (asBound : (expired || changed) = true → db.CheckpointsAsBound options)
    (unchanged : expired = false → changed = false → db.Sound options) :
    (settle options expired changed bumped db).Sound options := by
  have settled : (settle options expired changed bumped db).Valid :=
    valid.changes (@changes_settle options none expired changed bumped db)
  obtain ⟨first, second, firstIs, secondIs, whole⟩ := settle_eq options expired changed bumped db
  have rest : Database.Shrinks second.1 (settle options expired changed bumped db) := by
    rw [whole]
    split
    · exact shrinks_bumpRevision _
    · exact Database.Shrinks.refl _
  have fromFirst : Database.Shrinks first.1 second.1 := by
    rw [secondIs]
    split
    · exact Database.shrinks_evictReceiptOverflow options first.1
    · exact Database.Shrinks.refl first.1
  by_cases some : (expired || changed) = true
  · rw [if_pos some] at firstIs
    have bounds := Database.bounds_evictCheckpointOverflow (asBound some)
    have fewer := Database.shrinks_evictCheckpointOverflow options db
    rw [← firstIs] at bounds fewer
    have last := fromFirst.trans rest
    exact ⟨settled, last.responses.trans bounds.1,
      last.receipts.trans (fewer.receipts.trans receipts), last.bytes.trans bounds.2⟩
  · rw [if_neg some] at firstIs
    simp only [Bool.or_eq_true, not_or, Bool.not_eq_true] at some
    have sound := unchanged some.1 some.2
    subst firstIs
    exact sound.shrinks settled (fromFirst.trans rest)

/-- Nothing has expired where the flag says so. -/
theorem expireUnlessSkipped_of_false
    (began : expireUnlessSkipped canSkip ttlMs host.transaction db = (expiredDb, expired))
    (unexpired : expired = false) : expiredDb = db := by
  cases canSkip with
  | true =>
    cases began
    rfl
  | false =>
    cases receipts : db.expireReceipts ttlMs host.transaction with
    | mk receiptsDb receiptsExpired =>
      cases legacy : receiptsDb.expireLegacy ttlMs host.transaction with
      | mk legacyDb legacyExpired =>
        simp only [expireUnlessSkipped, receipts, legacy, Bool.false_eq_true, if_false,
          Prod.mk.injEq] at began
        obtain ⟨rfl, flags⟩ := began
        rw [unexpired, Bool.or_eq_false_iff] at flags
        obtain ⟨rfl, rfl⟩ := flags
        rw [Database.expireLegacy_of_false legacy, Database.expireReceipts_of_false receipts]

theorem shrinks_expireUnlessSkipped (canSkip : Bool) (ttlMs now : Int) (db : Database) :
    Database.Shrinks db (expireUnlessSkipped canSkip ttlMs now db).1 := by
  cases canSkip with
  | true => exact Database.Shrinks.refl db
  | false =>
    exact (Database.shrinks_expireReceipts ttlMs now).trans
      (Database.shrinks_expireLegacy ttlMs now)

/-- The transaction of `recordCheckpoint` keeps the invariant. -/
theorem sound_checkpointTransaction (sound : store.db.Sound options)
    (found : store.db.readReceipt key = some existing) (counted : replay.Counted)
    (asBound : ∀ evicting ∈ updateEvicting options host ownership progress store canSkip key replay
      existing, evicting.EvictsAsBound options)
    (ran : checkpointTransaction options host store.ttlMs canSkip key ownership.toOwnership replay
      progress finalize existing store.db = .ok (next, result)) : next.Sound options := by
  obtain ⟨expired, changed, bumped, expiredDb, stored, current, began, read, resulted, kept, done,
    undone⟩ := checkpointTransaction_eq_ok ran
  have first : Database.Changes options (some ⟨store.ttlMs, host.transaction⟩) store.db _ :=
    changes_expireUnlessSkipped options canSkip rfl store.db
  have fewer := shrinks_expireUnlessSkipped canSkip store.ttlMs host.transaction store.db
  rw [began] at first fewer
  have expiredSound := sound.shrinks (sound.toValid.changes first) fewer
  have evicting (some : (expired || changed) = true) : stored.EvictsAsBound options := by
    refine asBound stored ?_
    simp only [updateEvicting, began, ← read, ← resulted, kept, some, if_true, Option.mem_def]
  have storedFacts : stored.Valid ∧ stored.receipts.size ≤ options.maxReceipts ∧
      (changed = false → stored = expiredDb) := by
    unfold storeIfUsable at kept
    split at kept
    · obtain ⟨_, same, _, open_, _⟩ := transactionResult_eq_stored resulted.symm
      cases same
      have changes : Database.Changes options none expiredDb stored :=
        ensures_storeCheckpoint_changes (read_of_current found began read) open_ counted _ kept
      have sizes := ensures_storeCheckpoint_size _ expiredDb _ kept
      have size : stored.receipts.size = expiredDb.receipts.size := sizes.1
      refine ⟨expiredSound.toValid.changes changes, ?_, sizes.2⟩
      rw [size]
      exact expiredSound.maxReceipts
    · cases kept
      exact ⟨expiredSound.toValid, expiredSound.maxReceipts, fun _ => rfl⟩
  have settled : (settle options expired changed bumped stored).Sound options := by
    apply sound_settle storedFacts.1 storedFacts.2.1 fun some => (evicting some).1
    intro _ unchanged
    rw [storedFacts.2.2 unchanged]
    exact expiredSound
  by_cases usable : result = .stored
  · exact (ensures_finalizeCheckpoint_same progress finalize _ _ (done usable)).sound settled
  · rw [undone usable]
    exact settled

end Transaction

/-! ## Operations -/

variable {record : ResponsesHistoryRecord}

/-- `recordCheckpoint` keeps the invariant, whichever way it goes. -/
theorem CheckpointPath.sound {answer : Answer Unit}
    (path : CheckpointPath options host record ownership progress finalize store answer)
    (fits : options.maxResponses ≤ options.maxReceipts)
    (asBound : ∀ db ∈ checkpointEvicting options host record ownership progress finalize store,
      db.EvictsAsBound options) (sound : store.db.Sound options) : answer.2.db.Sound options := by
  cases path with
  | refused error memo => exact sound
  | recorded responseId replay existing next prepared usable rank matching finalized =>
    exact (ensures_finalizeCheckpoint_same progress finalize store.db next finalized).sound sound
  | promoted responseId replay existing next memo prepared usable complete partly matching
      finalized =>
    have same := ensures_runFinalize_same finalize _ next finalized
    obtain ⟨found, _⟩ := usableReceipt_eq_some usable
    have raised := sound.toValid.change (@change_promote options _ _ none _ found partly)
    exact same.sound (sound.shrinks raised (Database.shrinks_setCheckpointState _ _))
  | updated responseId replay existing next result memo canSkip prepared usable skipped evicting
      ran =>
    obtain ⟨found, _⟩ := usableReceipt_eq_some usable
    rw [evicting] at asBound
    exact sound_checkpointTransaction sound found (counted_of_prepareCheckpoint prepared) asBound
      ran
  | fresh responseId replay next prepared unusable ran evicting =>
    rw [evicting] at asBound
    exact ensures_mutation_sound fits (ensures_freshCheckpoint_changes (prepared_trim prepared)
      (counted_of_prepareCheckpoint prepared))
      (ensures_freshCheckpoint_same store.ttlMs responseId) asBound sound next ran

theorem ensures_upsertReceipt_sameHistory (accountIsActive : JsString → Bool) (ttlMs now : Int)
    (receipt : ResponsesReceiptRecord) (db : Database) :
    Ensures (db.upsertReceipt accountIsActive ttlMs now receipt) fun next =>
      next.2 = false → db.SameHistory next.1 := by
  refine (Database.ensures_upsertReceipt_same _ _ _ receipt db).mono fun next kept unchanged => ?_
  rw [kept unchanged]
  exact Database.SameHistory.refl db

/-- `clearAccount` deletes receipts, and remembers that it did. -/
theorem changes_deleteAccount (accountId : JsString) (db : Database) :
    Database.Changes options occasion db (deleteAccount accountId db).1 := by
  refine .head (.carriers db (db.carriers.delete fun row => row.binding.OfAccount accountId)) ?_
  simp only [deleteAccount]
  split
  · exact .head (.mark _)
      (.single (.deleteReceipts _ (fun key => key.1 = boundText accountId) fun _ _ _ => rfl))
  · next none =>
    refine .single (.deleteReceipts _ (fun key => key.1 = boundText accountId)
      fun row member taken => ?_)
    exact absurd (List.any_eq_true.mpr ⟨row, member, taken⟩) none

/-- Where `clearAccount` reports no change there was nothing of the account. -/
theorem same_deleteAccount {accountId : JsString} (valid : db.Valid)
    (unchanged : (deleteAccount accountId db).2 = false) :
    db.SameHistory (deleteAccount accountId db).1 := by
  simp only [deleteAccount, Bool.or_eq_false_iff] at unchanged ⊢
  have none := List.any_eq_false.mp unchanged.1
  have receipts : (db.receipts.delete fun row => row.key.1 = boundText accountId) = db.receipts :=
    Table.delete_eq_self fun row member => by simpa using none row member
  have checkpoints :
      (db.checkpoints.delete fun row => row.key.1 = boundText accountId) = db.checkpoints := by
    apply Table.delete_eq_self
    intro row member
    obtain ⟨receipt, found, _⟩ := valid.owned row member
    obtain ⟨receiptMember, same⟩ := Table.find?_eq_some.mp found
    rw [← same]
    simpa using none receipt receiptMember
  rw [unchanged.1]
  simp only [Bool.false_eq_true, if_false, Database.SameHistory, Database.deleteReceipts]
  rw [receipts, checkpoints]

theorem shrinks_deleteAccount (accountId : JsString) (db : Database) :
    Database.Shrinks db (deleteAccount accountId db).1 := by
  have deleted := Database.shrinks_deleteReceipts (fun key => key.1 = boundText accountId) db
  simp only [deleteAccount]
  split
  · exact ⟨deleted.receipts, deleted.responses, deleted.bytes⟩
  · exact ⟨deleted.receipts, deleted.responses, deleted.bytes⟩

variable (options host store) in
/-- What `resolve` does to the store is its expiry, if it gets that far. -/
theorem resolve_store (responseId accountId : JsString) :
    (store.resolve options host responseId accountId).2 = store ∨
      (store.resolve options host responseId accountId).2 =
        { store with db := sweep options store.ttlMs host.transaction store.db } := by
  unfold resolve
  split
  · exact .inl rfl
  · split
    · exact .inl rfl
    · exact .inl rfl
    · exact .inr rfl

variable (options host store) in
theorem recordReceipt_db (receipt : ResponsesReceiptRecord) :
    (store.recordReceipt options host receipt).2.db = store.db ∨
      mutation options store.ttlMs host.transaction
        (Database.upsertReceipt host.accountIsActive store.ttlMs host.receiptWritten receipt)
        store.db = .ok (store.recordReceipt options host receipt).2.db := by
  unfold recordReceipt
  split
  · exact .inl rfl
  · split
    · exact .inl rfl
    · next db ran => exact .inr ran

variable (options host store) in
theorem clearAccount_db (accountId : JsString) :
    (store.clearAccount options host accountId).2.db = store.db ∨
      mutation options store.ttlMs host.transaction (fun db => .ok (deleteAccount accountId db))
        store.db = .ok (store.clearAccount options host accountId).2.db := by
  unfold clearAccount
  simp only
  split
  · exact .inl rfl
  · next account named =>
    obtain ⟨_, rfl⟩ := requireNonEmpty_eq_ok.mp named
    unfold transact
    split
    · exact .inl rfl
    · next db ran => exact .inr ran

variable (store) in
/-- What `clear` leaves when it does not throw. -/
theorem clear_db (expectedRevision : Nat) :
    (store.clear expectedRevision).2.db = store.db ∨
      store.db.revision = expectedRevision ∧
        (store.clear expectedRevision).2.db =
          ({ store.db.deleteReceipts (fun _ => true) with
            carriers := Table.empty
            legacy := Table.empty
            uncertain := false } : Database).bumpRevision := by
  simp only [clear, transact]
  cases cleared : clearDatabase expectedRevision store.db with
  | error error => exact .inl rfl
  | ok db =>
    unfold clearDatabase at cleared
    split at cleared
    · cases cleared
    · next same =>
      split at cleared
      · cases cleared
        exact .inl rfl
      · cases cleared
        exact .inr ⟨not_not.mp same, rfl⟩

theorem valid_clear (valid : store.db.Valid) (expectedRevision : Nat) :
    (store.clear expectedRevision).2.db.Valid := by
  rcases clear_db store expectedRevision with same | ⟨_, cleared⟩
  · rw [same]
    exact valid
  · have emptied := valid.deleteReceipts fun _ => true
    rw [cleared]
    exact ⟨emptied.receipts, emptied.checkpoints, emptied.owned, emptied.counted⟩

/-- Every operation but `clear` takes the steps of the store, with its expiry on its
occasion. -/
theorem Operation.changes (kept : ∀ expectedRevision, operation ≠ .clear expectedRevision) :
    Database.Changes options (operation.occasion store) store.db
      (operation.after options store).db := by
  cases operation with
  | resolve host responseId accountId =>
    show Database.Changes options _ store.db (store.resolve options host responseId accountId).2.db
    rcases resolve_store options host store responseId accountId with same | swept
    · rw [same]
    · rw [swept]
      exact changes_sweep options store.ttlMs host.transaction store.db
  | enrich host => exact changes_sweep options store.ttlMs host.transaction store.db
  | recordReceipt host receipt =>
    show Database.Changes options _ store.db (store.recordReceipt options host receipt).2.db
    rcases recordReceipt_db options host store receipt with same | ran
    · rw [same]
    · exact ensures_mutation_changes
        (Database.ensures_upsertReceipt_changes options _ _ _ _ receipt) rfl _ _ ran
  | recordCheckpoint host record ownership progress finalize =>
    exact CheckpointPath.changes rfl path_recordCheckpoint
  | setTtlDays ttlDays => exact .refl
  | inspect => exact .refl
  | clear expectedRevision => exact absurd rfl (kept expectedRevision)
  | clearAccount host accountId =>
    show Database.Changes options _ store.db (store.clearAccount options host accountId).2.db
    rcases clearAccount_db options host store accountId with same | ran
    · rw [same]
    · exact ensures_mutation_changes (fun db => ensures_ok (changes_deleteAccount accountId db))
        rfl _ _ ran
  | reopen ttlDays now => exact changes_sweep options (ttlDays * 86400000) now store.db
  | carriers change => exact .single (.carriers store.db _)

theorem Operation.valid (operation : Operation) (valid : store.db.Valid) :
    (operation.after options store).db.Valid := by
  by_cases clears : ∃ expectedRevision, operation = .clear expectedRevision
  · obtain ⟨expectedRevision, rfl⟩ := clears
    exact valid_clear valid expectedRevision
  · refine valid.changes (Operation.changes ?_)
    intro expectedRevision same
    exact clears ⟨expectedRevision, same⟩

/-- The database that the evictions of an operation start from, if it adds something and
comes to them. -/
def Operation.evicting (options : HistoryOptions) (store : HistoryStore) :
    Operation → Option Database
  | .recordReceipt host receipt =>
    if host.abortedBefore then none
    else
      mutationEvicting store.ttlMs host.transaction
        (Database.upsertReceipt host.accountIsActive store.ttlMs host.receiptWritten receipt)
        store.db
  | .recordCheckpoint host record ownership progress finalize =>
    checkpointEvicting options host record ownership progress finalize store
  | _ => none

/-- Every operation keeps the invariant, if its evictions find the rows they select. -/
theorem Operation.sound (fits : options.maxResponses ≤ options.maxReceipts)
    (asBound : ∀ db ∈ operation.evicting options store, db.EvictsAsBound options)
    (sound : store.db.Sound options) : (operation.after options store).db.Sound options := by
  have valid : (operation.after options store).db.Valid := operation.valid sound.toValid
  cases operation with
  | resolve host responseId accountId =>
    show (store.resolve options host responseId accountId).2.db.Sound options
    rcases resolve_store options host store responseId accountId with same | swept
    · rw [same]
      exact sound
    · rw [swept]
      exact sound_sweep store.ttlMs host.transaction sound
  | enrich host => exact sound_sweep store.ttlMs host.transaction sound
  | recordReceipt host receipt =>
    show (store.recordReceipt options host receipt).2.db.Sound options
    by_cases aborted : host.abortedBefore = true
    · rw [HistoryStore.recordReceipt, if_pos aborted]
      exact sound
    · rcases recordReceipt_db options host store receipt with same | ran
      · rw [same]
        exact sound
      · rw [Operation.evicting, if_neg aborted] at asBound
        exact ensures_mutation_sound fits
          (Database.ensures_upsertReceipt_changes options _ _ _ _ receipt)
          (ensures_upsertReceipt_sameHistory _ _ _ receipt) asBound sound _ ran
  | recordCheckpoint host record ownership progress finalize =>
    exact CheckpointPath.sound path_recordCheckpoint fits asBound sound
  | setTtlDays ttlDays => exact sound
  | inspect => exact sound
  | clear expectedRevision =>
    show (store.clear expectedRevision).2.db.Sound options
    rcases clear_db store expectedRevision with same | ⟨_, cleared⟩
    · rw [same]
      exact sound
    · have valid := valid_clear sound.toValid expectedRevision
      have fewer := Database.shrinks_deleteReceipts (fun _ => true) store.db
      have responses : (store.db.deleteReceipts fun _ => true).checkpoints.size ≤
          options.maxResponses :=
        (Nat.le_add_right _ _).trans (fewer.responses.trans sound.maxResponses)
      rw [cleared] at valid ⊢
      exact ⟨valid, responses, fewer.receipts.trans sound.maxReceipts,
        fewer.bytes.trans sound.maxBytes⟩
  | clearAccount host accountId =>
    show (store.clearAccount options host accountId).2.db.Sound options
    rcases clearAccount_db options host store accountId with same | ran
    · rw [same]
      exact sound
    · exact sound.shrinks valid (ensures_mutation_shrinks
        (fun db => ensures_ok (shrinks_deleteAccount accountId db)) _ _ _ _ ran)
  | reopen ttlDays now => exact sound_sweep (ttlDays * 86400000) now sound
  | carriers change =>
    have same : store.db.SameHistory
        { store.db with carriers := change store.db.carriers } := rfl
    exact same.sound sound

/-- The database after the migrations of one that held legacy responses. -/
def Database.migrated (legacy : Table LegacyRow.responseId) : Database :=
  { Database.empty with legacy := legacy }

/-- The store opened on a migrated database, after some operations. -/
def reached (options : HistoryOptions) (legacy : Table LegacyRow.responseId) (ttlMs now : Int)
    (operations : List Operation) : HistoryStore :=
  after options operations (HistoryStore.start options ttlMs now (Database.migrated legacy))

variable (options) in
theorem valid_reached (legacy : Table LegacyRow.responseId) (ttlMs now : Int)
    (operations : List Operation) : (reached options legacy ttlMs now operations).db.Valid := by
  apply after_induction (fun store => store.db.Valid)
  · intro operation _ store valid
    exact operation.valid valid
  · have empty := Database.valid_empty
    have valid : (Database.migrated legacy).Valid :=
      ⟨empty.receipts, empty.checkpoints, empty.owned, empty.counted⟩
    exact valid.changes (changes_sweep options ttlMs now _)

/-- The first checkpoint of a receipt without one finds its place free. -/
theorem insertFirstCheckpoint_returns (valid : db.Valid)
    (found : db.receipts.find? key = some receipt)
    (routeOnly : receipt.checkpointState = .routeOnly) (state : ResponsesCheckpointState)
    (replay : StoredReplay) (now : Int) :
    db.checkpoints.find? key = none ∧
      ((∀ item ∈ replay.items, item.row.Checked) → ∃ next,
        (db.setCheckpointState key state).insertFirstCheckpoint key replay now = .ok next) := by
  have dead : ¬ receipt.checkpointState.Live := by
    rw [routeOnly]
    intro live
    cases live with
    | inl impossible => cases impossible
    | inr impossible => cases impossible
  have free := valid.checkpoint_eq_none found dead
  have raised : (db.setCheckpointState key state).receipts.find? key =
      some { receipt with checkpointState := state } := by
    rw [Database.find?_setCheckpointState_self, found]
    rfl
  have numbered : (db.setCheckpointState key state).checkpoints.Numbered CheckpointRow.insertionSeq
      (db.setCheckpointState key state).nextCheckpointSeq := valid.checkpoints
  refine ⟨free, fun checked => ?_⟩
  obtain ⟨next, added⟩ := Database.addCheckpoint_returns numbered raised free checked now
  refine ⟨next.bumpRevision, ?_⟩
  rw [Database.insertFirstCheckpoint, added]
  rfl

/-- Throughout a run the evictions find the rows they select. -/
def EvictionsAsBound (options : HistoryOptions) : List Operation → HistoryStore → Prop
  | [], _ => True
  | operation :: operations, store =>
    (∀ db ∈ operation.evicting options store, db.EvictsAsBound options) ∧
      EvictionsAsBound options operations (operation.after options store)

theorem Database.Sound.after {operations : List Operation}
    (sound : store.db.Sound options) (fits : options.maxResponses ≤ options.maxReceipts)
    (asBound : EvictionsAsBound options operations store) :
    (History.after options operations store).db.Sound options := by
  induction operations generalizing store with
  | nil => exact sound
  | cons operation operations ih => exact ih (Operation.sound fits asBound.1 sound) asBound.2

/-- Whatever is done to a store that was opened on an empty database, it keeps the
invariant, and the insertion of a first checkpoint never meets another one, as long as no
eviction selects a row whose ids are read otherwise than they are bound. -/
theorem sound_after (fits : options.maxResponses ≤ options.maxReceipts) (ttlMs now : Int)
    (operations : List Operation)
    (asBound : EvictionsAsBound options operations
      (HistoryStore.start options ttlMs now Database.empty)) :
    let db := (after options operations (HistoryStore.start options ttlMs now Database.empty)).db
    db.Sound options ∧
      ∀ key receipt, db.receipts.find? key = some receipt →
        receipt.checkpointState = .routeOnly → ∀ state replay written,
          db.checkpoints.find? key = none ∧
            ((∀ item ∈ replay.items, item.row.Checked) → ∃ next,
              (db.setCheckpointState key state).insertFirstCheckpoint key replay written =
                .ok next) := by
  have opened : (HistoryStore.start options ttlMs now Database.empty).db.Sound options :=
    sound_sweep ttlMs now (Database.sound_empty options)
  have sound := opened.after fits asBound
  refine ⟨sound, ?_⟩
  intro key receipt found routeOnly state replay written
  exact insertFirstCheckpoint_returns sound.toValid found routeOnly state replay written

/-- Limits that leave room for one response. -/
def HistoryOptions.single : HistoryOptions :=
  { HistoryOptions.defaults with maxResponses := 1, maxReceipts := 1 }

/-- A receipt of the response `"r"` for the account `"a"`, upstream of which
nothing is converted. -/
def nativeReceipt : ResponsesReceiptRecord where
  accountId := js "a"
  modelId := js "m"
  upstreamOrigin := js "https://u.test"
  owner := .native
  upstreamProtocol := .responses
  conversionVersion := none
  responseId := js "r"
  checkpointState := .routeOnly

def recordTwo (first second : JsString) : List Operation :=
  [.recordReceipt (.still 1) { nativeReceipt with responseId := first },
    .recordReceipt (.still 2) { nativeReceipt with responseId := second }]

/-- A receipt too many is evicted. -/
theorem sound_after_recordTwo :
    let db := (after .single (recordTwo (js "r") (js "s"))
      (HistoryStore.start .single 604800000 0 Database.empty)).db
    db.Sound .single ∧ db.receipts.rows.map ReceiptRow.key = [(js "a", js "s")] ∧
      db.uncertain = true := by
  have asBound : EvictionsAsBound .single (recordTwo (js "r") (js "s"))
      (HistoryStore.start .single 604800000 0 Database.empty) := by
    refine ⟨?_, ?_, trivial⟩
    · decide
    · decide
  exact ⟨(sound_after (by decide) 604800000 0 _ asBound).1, by decide, by decide⟩

/-- Two receipts whose ids are read alike up to a NUL are two too many to evict one. -/
theorem not_sound_after :
    ¬ ∀ options : HistoryOptions, options.maxResponses ≤ options.maxReceipts →
      ∀ ttlMs now operations,
        (after options operations
          (HistoryStore.start options ttlMs now Database.empty)).db.Sound options := by
  intro sound
  have bounded := (sound .single (by decide) 604800000 0
    (recordTwo (js "x" ++ 0 :: js "a") (js "x" ++ 0 :: js "b"))).maxReceipts
  exact absurd bounded (by decide)

end GhcGateway.History
