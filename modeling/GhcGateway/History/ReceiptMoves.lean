/-
# The states of a receipt

A receipt keeps its number, its key and its ownership for as long as it is there.
Its state moves up when a checkpoint is recorded, to `expired` when its time has
come, and down to `route_only` only when the store is over a bound and gives up the
receipt's checkpoint. Nothing leads out of `expired`.

The receipts of a run are told apart by their numbers: a receipt that was removed
and recorded again is another one.

A call that throws has changed nothing, or no more than its expiry does.
-/

import GhcGateway.History.Invariant

namespace GhcGateway.History

open Library Conversion HistoryStore

variable {options : HistoryOptions} {host : HistoryHost}
  {ownership : ResponsesContinuationOwnership}
  {progress : CheckpointProgress} {finalize : Option Finalize} {record : ResponsesHistoryRecord}
  {store : HistoryStore} {db next last : Database} {key : ReceiptKey} {replay : StoredReplay}
  {moved row : ReceiptRow} {before later : Database × ReceiptRow} {error : HistoryError}
  {operations : List Operation}

/-- What may happen to a receipt in one step of the store: it expires where its key is read
of a receipt whose time has come. -/
inductive ReceiptMove (options : HistoryOptions) (occasion : Option Occasion) (db : Database) :
    ReceiptRow → ReceiptRow → Prop
  | stay (row : ReceiptRow) : ReceiptMove options occasion db row row
  | raise (row : ReceiptRow) (state : ResponsesCheckpointState)
      (open_ : row.checkpointState ≠ .expired)
      (higher : checkpointRank row.checkpointState < checkpointRank state) :
      ReceiptMove options occasion db row { row with checkpointState := state }
  | expire (row due : ReceiptRow) (ttlMs now : Int) (when_ : occasion = some ⟨ttlMs, now⟩)
      (member : due ∈ db.dueReceipts ttlMs now) (read : ReceiptKey.read due.key = row.key) :
      ReceiptMove options occasion db row { row with checkpointState := .expired }
  | evict (row : ReceiptRow) (open_ : row.checkpointState ≠ .expired)
      (overfull : db.Overfull options)
      (held : ∃ checkpoint ∈ db.checkpoints.rows, ReceiptKey.read checkpoint.key = row.key) :
      ReceiptMove options occasion db row { row with checkpointState := .routeOnly }

/-- One step of the store on an occasion that occurs, and what it does to one receipt. -/
def ReceiptStep (options : HistoryOptions) (occurs : Option Occasion → Prop)
    (before later : Database × ReceiptRow) : Prop :=
  ∃ occasion, occurs occasion ∧ Database.Change options occasion before.1 later.1 ∧
    before.2 ∈ before.1.receipts.rows ∧ later.2 ∈ later.1.receipts.rows ∧
    ReceiptMove options occasion before.1 before.2 later.2

/-- Some steps of the store, and what they do to one receipt. -/
abbrev ReceiptSteps (options : HistoryOptions) (occurs : Option Occasion → Prop) :
    Database × ReceiptRow → Database × ReceiptRow → Prop :=
  Relation.ReflTransGen (ReceiptStep options occurs)

variable {occasion : Option Occasion} {occurs : Option Occasion → Prop}

theorem ReceiptMove.same (move : ReceiptMove options occasion db row moved) :
    moved.key = row.key ∧ moved.ownership = row.ownership ∧
      moved.insertionSeq = row.insertionSeq := by
  cases move with
  | stay => exact ⟨rfl, rfl, rfl⟩
  | raise state open_ higher => exact ⟨rfl, rfl, rfl⟩
  | expire due ttlMs now when_ member read => exact ⟨rfl, rfl, rfl⟩
  | evict open_ overfull held => exact ⟨rfl, rfl, rfl⟩

/-- Nothing leads out of `expired`. -/
theorem ReceiptMove.expired (move : ReceiptMove options occasion db row moved)
    (expired : row.checkpointState = .expired) : moved.checkpointState = .expired := by
  cases move with
  | stay => exact expired
  | raise state open_ higher => exact absurd expired open_
  | expire due ttlMs now when_ member read => rfl
  | evict open_ overfull held => exact absurd expired open_

/-- A receipt keeps its key, its ownership and its number. -/
theorem ReceiptSteps.same (steps : ReceiptSteps options occurs before later) :
    later.2.key = before.2.key ∧ later.2.ownership = before.2.ownership ∧
      later.2.insertionSeq = before.2.insertionSeq := by
  induction steps with
  | refl => exact ⟨rfl, rfl, rfl⟩
  | tail _ step ih =>
    obtain ⟨_, _, _, _, _, move⟩ := step
    obtain ⟨key, ownership, seq⟩ := move.same
    exact ⟨key.trans ih.1, ownership.trans ih.2.1, seq.trans ih.2.2⟩

theorem ReceiptSteps.expired (steps : ReceiptSteps options occurs before later)
    (expired : before.2.checkpointState = .expired) : later.2.checkpointState = .expired := by
  induction steps with
  | refl => exact expired
  | tail _ step ih =>
    obtain ⟨_, _, _, _, _, move⟩ := step
    exact move.expired ih

theorem ReceiptSteps.mono {fewer more : Option Occasion → Prop}
    (steps : ReceiptSteps options fewer before later)
    (within : ∀ occasion, fewer occasion → more occasion) :
    ReceiptSteps options more before later :=
  steps.lift id fun _ _ ⟨occasion, occurs, step⟩ => ⟨occasion, within occasion occurs, step⟩

/-! ## Every receipt comes from somewhere -/

namespace Database

variable {keys : List ReceiptKey}

theorem mem_setCheckpointState {state : ResponsesCheckpointState} :
    row ∈ (db.setCheckpointState key state).receipts.rows ↔
      ∃ before ∈ db.receipts.rows, row =
        if before.key = key then { before with checkpointState := state } else before := by
  rw [setCheckpointState, Table.mem_update]

theorem mem_expireAll (member : row ∈ (keys.foldl expireReceipt db).receipts.rows) :
    ∃ before ∈ db.receipts.rows, row = before ∨
      before.key ∈ keys ∧ row = { before with checkpointState := .expired } :=
  Table.mem_foldl_update receipts (fun row => { row with checkpointState := .expired })
    (fun _ => rfl) (fun _ _ => rfl) (fun _ => rfl) member

/-- An evicted checkpoint leaves its receipt at `route_only`, an expired one alone. -/
theorem mem_evictAll (member : row ∈ (keys.foldl evictCheckpoint db).receipts.rows) :
    ∃ before ∈ db.receipts.rows, row = before ∨ before.key ∈ keys ∧ row =
      { before with
        checkpointState := if before.checkpointState = .expired then .expired else .routeOnly } :=
  Table.mem_foldl_update receipts
    (fun row => { row with
      checkpointState := if row.checkpointState = .expired then .expired else .routeOnly })
    (fun _ => rfl) (fun _ _ => rfl)
    (fun row => by by_cases expired : row.checkpointState = .expired <;> simp [expired]) member

/-- After a step every receipt that is not new has moved there. -/
theorem Change.receipt (change : Change options occasion db next)
    (member : moved ∈ next.receipts.rows) (old : moved.insertionSeq < db.nextReceiptSeq) :
    ∃ row ∈ db.receipts.rows, ReceiptMove options occasion db row moved := by
  cases change with
  | bump => exact ⟨moved, member, .stay moved⟩
  | carriers => exact ⟨moved, member, .stay moved⟩
  | mark => exact ⟨moved, member, .stay moved⟩
  | expire ttlMs now when_ =>
    rw [expireReceipts_eq] at member
    obtain ⟨row, rowMember, moved⟩ := mem_expireAll member
    refine ⟨row, rowMember, ?_⟩
    rcases moved with rfl | ⟨selected, rfl⟩
    · exact .stay _
    · obtain ⟨due, dueMember, read⟩ := List.mem_map.mp selected
      exact .expire row due ttlMs now when_ dueMember read
  | deleteLegacy ids => exact ⟨moved, member, .stay moved⟩
  | evict keys overfull held =>
    obtain ⟨row, rowMember, moved⟩ := mem_evictAll member
    refine ⟨row, rowMember, ?_⟩
    rcases moved with rfl | ⟨selected, rfl⟩
    · exact .stay _
    · by_cases expired : row.checkpointState = .expired
      · rw [if_pos expired, ← expired]
        exact .stay row
      · rw [if_neg expired]
        exact .evict row expired overfull (held row.key selected)
  | deleteReceipts condition marked => exact ⟨moved, (Table.mem_delete.mp member).1, .stay moved⟩
  | raise row state found open_ higher =>
    obtain ⟨before, beforeMember, rfl⟩ := mem_setCheckpointState.mp member
    refine ⟨before, beforeMember, ?_⟩
    split
    · next same =>
      obtain rfl := Table.eq_of_key_eq beforeMember (Table.find?_eq_some.mp found).1 same
      exact .raise before state open_ higher
    · exact .stay before
  | addReceipt _ row added seq =>
    obtain ⟨_, free, rfl⟩ := addReceipt_eq_ok added
    rcases (Table.mem_insert free).mp member with known | rfl
    · exact ⟨moved, known, .stay moved⟩
    · rw [seq] at old
      exact absurd old (lt_irrefl _)
  | addCheckpoint _ row receipt added =>
    obtain ⟨_, free, rfl⟩ := addCheckpoint_eq_ok added
    exact ⟨moved, member, .stay moved⟩
  | replaceReplay key replay counted => exact ⟨moved, member, .stay moved⟩

theorem Change.nextReceiptSeq_le (change : Change options occasion db next) :
    db.nextReceiptSeq ≤ next.nextReceiptSeq := by
  cases change with
  | expire ttlMs now when_ =>
    rw [expireReceipts_eq]
    exact @foldl_keeps db _ expireReceipt (fun next => db.nextReceiptSeq ≤ next.nextReceiptSeq)
      (fun _ _ kept => kept) _ (le_refl _)
  | evict keys overfull held =>
    exact @foldl_keeps db _ evictCheckpoint (fun next => db.nextReceiptSeq ≤ next.nextReceiptSeq)
      (fun _ _ kept => kept) _ (le_refl _)
  | addReceipt _ row added seq =>
    obtain ⟨_, free, rfl⟩ := addReceipt_eq_ok added
    exact Nat.le_succ _
  | addCheckpoint _ row receipt added =>
    obtain ⟨_, free, rfl⟩ := addCheckpoint_eq_ok added
    exact le_refl _
  | _ => exact le_refl _

theorem Changes.nextReceiptSeq_le (changes : Changes options occasion db next) :
    db.nextReceiptSeq ≤ next.nextReceiptSeq := by
  induction changes with
  | refl => exact le_refl _
  | tail _ change ih => exact ih.trans change.nextReceiptSeq_le

/-- After some steps every receipt that is not new has moved there. -/
theorem Changes.receipt (changes : Changes options occasion db last)
    (member : moved ∈ last.receipts.rows) (old : moved.insertionSeq < db.nextReceiptSeq) :
    ∃ row ∈ db.receipts.rows, ReceiptSteps options (· = occasion) (db, row) (last, moved) := by
  induction changes generalizing moved with
  | refl => exact ⟨moved, member, .refl⟩
  | tail before change ih =>
    have numbered := old.trans_le (Changes.nextReceiptSeq_le before)
    obtain ⟨middle, middleMember, move⟩ := change.receipt member numbered
    rw [move.same.2.2] at old
    obtain ⟨row, rowMember, steps⟩ := ih middleMember old
    exact ⟨row, rowMember,
      steps.tail ⟨occasion, rfl, change, middleMember, member, move⟩⟩

end Database

/-! ## Operations -/

theorem Operation.nextReceiptSeq_le (operation : Operation) :
    store.db.nextReceiptSeq ≤ (operation.after options store).db.nextReceiptSeq := by
  by_cases clears : ∃ expectedRevision, operation = .clear expectedRevision
  · obtain ⟨expectedRevision, rfl⟩ := clears
    show store.db.nextReceiptSeq ≤ (store.clear expectedRevision).2.db.nextReceiptSeq
    rcases clear_db store expectedRevision with same | ⟨_, cleared⟩
    · rw [same]
    · rw [cleared]
      exact le_refl _
  · refine Database.Changes.nextReceiptSeq_le (Operation.changes ?_)
    intro expectedRevision same
    exact clears ⟨expectedRevision, same⟩

/-- After an operation every receipt that is not new has moved there. -/
theorem Operation.receipt (operation : Operation)
    (member : moved ∈ (operation.after options store).db.receipts.rows)
    (old : moved.insertionSeq < store.db.nextReceiptSeq) :
    ∃ row ∈ store.db.receipts.rows, ReceiptSteps options (· = operation.occasion store)
      (store.db, row) ((operation.after options store).db, moved) := by
  by_cases clears : ∃ expectedRevision, operation = .clear expectedRevision
  · obtain ⟨expectedRevision, rfl⟩ := clears
    have cleared : (Operation.after options store (.clear expectedRevision)).db =
        (store.clear expectedRevision).2.db := rfl
    rw [cleared] at member ⊢
    rcases clear_db store expectedRevision with same | ⟨_, emptied⟩
    · rw [same] at member ⊢
      exact ⟨moved, member, .refl⟩
    · rw [emptied] at member
      have gone : moved ∈ (store.db.deleteReceipts fun _ => true).receipts.rows := member
      cases (Table.mem_delete.mp gone).2
  · refine Database.Changes.receipt (Operation.changes ?_) member old
    intro expectedRevision same
    exact clears ⟨expectedRevision, same⟩

/-- An operation of the run has this occasion. -/
def Occurs (options : HistoryOptions) (operations : List Operation) (store : HistoryStore)
    (occasion : Option Occasion) : Prop :=
  ∃ before operation later, operations = before ++ operation :: later ∧
    occasion = operation.occasion (after options before store)

theorem occurs_of_tail {operation : Operation}
    (occurs : Occurs options operations (operation.after options store) occasion) :
    Occurs options (operation :: operations) store occasion := by
  obtain ⟨before, other, later, rfl, same⟩ := occurs
  exact ⟨operation :: before, other, later, rfl, same⟩

/-- After a run every receipt that is not new has moved there. -/
theorem receipt_of_run (member : moved ∈ (after options operations store).db.receipts.rows)
    (old : moved.insertionSeq < store.db.nextReceiptSeq) :
    ∃ row ∈ store.db.receipts.rows, ReceiptSteps options (Occurs options operations store)
      (store.db, row) ((after options operations store).db, moved) := by
  induction operations generalizing store with
  | nil => exact ⟨moved, member, .refl⟩
  | cons operation operations ih =>
    obtain ⟨middle, middleMember, later⟩ :=
      ih member (old.trans_le (Operation.nextReceiptSeq_le operation))
    have known : middle.insertionSeq < store.db.nextReceiptSeq := by
      rw [← later.same.2.2]
      exact old
    obtain ⟨row, rowMember, first⟩ := operation.receipt middleMember known
    refine ⟨row, rowMember, .trans (first.mono ?_) (later.mono fun _ => occurs_of_tail)⟩
    intro occasion same
    exact ⟨[], operation, operations, rfl, same⟩

/-- Throughout a run a receipt keeps its key and its ownership, stays expired once it
is, and moves as `ReceiptMove` says. -/
theorem receipt_after (valid : store.db.Valid) (operations : List Operation)
    (member : row ∈ store.db.receipts.rows)
    (movedMember : moved ∈ (after options operations store).db.receipts.rows)
    (same : moved.insertionSeq = row.insertionSeq) :
    moved.key = row.key ∧ moved.ownership = row.ownership ∧
      (row.checkpointState = .expired → moved.checkpointState = .expired) ∧
      ReceiptSteps options (Occurs options operations store) (store.db, row)
        ((after options operations store).db, moved) := by
  have old : moved.insertionSeq < store.db.nextReceiptSeq := by
    rw [same]
    exact valid.receipts.below row member
  obtain ⟨start, startMember, steps⟩ := receipt_of_run movedMember old
  obtain rfl := List.inj_on_of_nodup_map valid.receipts.apart startMember member
    (steps.same.2.2.symm.trans same)
  exact ⟨steps.same.1, steps.same.2.1, steps.expired, steps⟩

/-! ## Calls that throw -/

theorem throwIfAborted_eq_error {α : Type} {aborted : Bool} {value : α}
    (thrown : throwIfAborted aborted (.ok value) = .error error) : error = .aborted := by
  unfold throwIfAborted at thrown
  split at thrown
  · cases thrown
    rfl
  · cases thrown

/-- The end of a transaction that wrote nothing is the end of the expiry. -/
theorem settle_of_unchanged {canSkip expired : Bool} {ttlMs now : Int} {expiredDb : Database}
    (began : expireUnlessSkipped canSkip ttlMs now db = (expiredDb, expired)) :
    settle options expired false false expiredDb = db ∨
      settle options expired false false expiredDb = sweep options ttlMs now db := by
  cases canSkip with
  | true =>
    cases began
    exact .inl rfl
  | false =>
    right
    cases receipts : db.expireReceipts ttlMs now with
    | mk receiptsDb receiptsExpired =>
      cases legacy : receiptsDb.expireLegacy ttlMs now with
      | mk legacyDb legacyExpired =>
        simp only [expireUnlessSkipped, receipts, legacy, Bool.false_eq_true, if_false] at began
        cases began
        simp only [sweep, settle, receipts, legacy]
        cases receiptsExpired <;> cases legacyExpired <;> rfl

/-- A call of `recordCheckpoint` that throws has at most expired what was due. -/
theorem CheckpointPath.db_of_error {answer : Answer Unit}
    (path : CheckpointPath options host record ownership progress finalize store answer)
    (thrown : answer.1 = .error error) (unaborted : error ≠ .aborted) :
    answer.2.db = store.db ∨
      answer.2.db = sweep options store.ttlMs host.transaction store.db := by
  cases path with
  | refused error memo => exact .inl rfl
  | recorded => cases thrown
  | promoted => exact absurd (throwIfAborted_eq_error thrown) unaborted
  | updated responseId replay existing next result memo canSkip prepared usable skipped evicting
      ran =>
    obtain ⟨expired, changed, bumped, expiredDb, stored, current, began, _, _, kept, _, undone⟩ :=
      checkpointTransaction_eq_ok ran
    have unusable : result ≠ .stored := by
      rintro rfl
      exact unaborted (throwIfAborted_eq_error thrown)
    have untouched : stored = expiredDb ∧ changed = false ∧ bumped = false := by
      unfold storeIfUsable at kept
      split at kept
      · exact absurd rfl unusable
      · cases kept
        exact ⟨rfl, rfl, rfl⟩
    obtain ⟨rfl, rfl, rfl⟩ := untouched
    show next = store.db ∨ next = _
    rw [undone unusable]
    exact settle_of_unchanged began
  | fresh => exact absurd (throwIfAborted_eq_error thrown) unaborted

theorem recordReceipt_of_error {receipt : ResponsesReceiptRecord}
    (thrown : (store.recordReceipt options host receipt).1 = .error error)
    (unaborted : error = .aborted → host.abortedBefore = true) :
    (store.recordReceipt options host receipt).2 = store := by
  unfold recordReceipt at thrown ⊢
  split
  · rfl
  · next started =>
    rw [if_neg started] at thrown
    split
    · rfl
    · next db ran =>
      rw [ran] at thrown
      exact absurd (unaborted (throwIfAborted_eq_error thrown)) started

theorem recordCheckpoint_of_error
    (thrown : (store.recordCheckpoint options host record ownership progress finalize).1 =
      .error error) (unaborted : error = .aborted → host.abortedBefore = true) :
    (store.recordCheckpoint options host record ownership progress finalize).2.db = store.db ∨
      (store.recordCheckpoint options host record ownership progress finalize).2.db =
        sweep options store.ttlMs host.transaction store.db := by
  by_cases aborted : host.abortedBefore = true
  · left
    rw [HistoryStore.recordCheckpoint, if_pos aborted]
  · exact CheckpointPath.db_of_error path_recordCheckpoint thrown (mt unaborted aborted)

/-! ## Runs -/

/-- The ownership of a conversation that is converted for a chat upstream. -/
def convertedOwnership : ResponsesContinuationOwnership where
  accountId := js "a"
  modelId := js "m"
  upstreamOrigin := js "https://u.test"
  owner := .converted
  upstreamProtocol := .chat
  conversionVersion := some (js "responses-chat-v2")

/-- The store after the checkpoint of a response has been recorded as partial. -/
def partlyRecorded : HistoryStore :=
  reached .defaults Table.empty 1000 0
    [.recordCheckpoint (.still 0) ⟨js "r", .items []⟩ convertedOwnership .partialState none]

/-- The receipt it holds. -/
def partialReceipt : ReceiptRow :=
  ⟨(js "a", js "r"), convertedOwnership.toOwnership, .partialState, 1, 0, 1000⟩

end GhcGateway.History
