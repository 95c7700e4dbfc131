/-
# The revision

What `inspect` shows of the store changes only together with the revision, which
never goes back. So an administrator who clears the store with the revision of what
was last shown clears what was shown.

Nearly every operation bumps the revision itself whenever it has done anything; the
promotion of a receipt and the finalize callbacks do not, and change nothing that is
shown.
-/

import GhcGateway.History.Invariant

namespace GhcGateway.History

open Library Conversion HistoryStore

variable {options : HistoryOptions} {host : HistoryHost}
  {ownership : ResponsesContinuationOwnership}
  {progress : CheckpointProgress} {finalize : Option Finalize} {record : ResponsesHistoryRecord}
  {store : HistoryStore} {db next last : Database} {key : ReceiptKey} {replay : StoredReplay}
  {occasion : Option Occasion} {expectedRevision : Nat}

namespace Database

/-- What is shown of the two databases is the same. -/
structure SeenAs (db next : Database) : Prop where
  created : next.checkpoints.rows.map CheckpointRow.createdAtMs =
    db.checkpoints.rows.map CheckpointRow.createdAtMs
  receipts : next.receipts.size = db.receipts.size
  legacy : next.legacy = db.legacy
  uncertain : next.uncertain = db.uncertain

theorem SeenAs.refl (db : Database) : SeenAs db db := ⟨rfl, rfl, rfl, rfl⟩

theorem SeenAs.trans (first : SeenAs db next) (second : SeenAs next last) : SeenAs db last where
  created := second.created.trans first.created
  receipts := second.receipts.trans first.receipts
  legacy := second.legacy.trans first.legacy
  uncertain := second.uncertain.trans first.uncertain

/-- The revision has not gone back, and where it has stayed nothing that is shown
has changed. -/
structure Observed (db next : Database) : Prop where
  revision : db.revision ≤ next.revision
  seen : next.revision = db.revision → SeenAs db next

theorem Observed.refl (db : Database) : Observed db db := ⟨le_refl _, fun _ => .refl db⟩

theorem Observed.trans (first : Observed db next) (second : Observed next last) :
    Observed db last where
  revision := first.revision.trans second.revision
  seen same := by
    have nextSame : next.revision = db.revision :=
      Nat.le_antisymm (same ▸ second.revision) first.revision
    exact (first.seen nextSame).trans (second.seen (same.trans nextSame.symm))

/-- With a higher revision anything may have changed. -/
theorem Observed.of_lt (higher : db.revision < next.revision) : Observed db next where
  revision := Nat.le_of_lt higher
  seen same := absurd same (Nat.ne_of_gt higher)

theorem SameHistory.observed (same : SameHistory db next) : Observed db next := by
  rw [same]
  exact ⟨le_refl _, fun _ => ⟨rfl, rfl, rfl, rfl⟩⟩

/-! ## No step lowers the revision -/

theorem Change.revision_le (change : Change options occasion db next) :
    db.revision ≤ next.revision := by
  cases change with
  | bump => exact Nat.le_succ _
  | expire ttlMs now due =>
    rw [expireReceipts_eq]
    exact @foldl_keeps db _ expireReceipt (fun next => db.revision ≤ next.revision)
      (fun _ _ kept => kept) _ (le_refl _)
  | evict keys overfull held =>
    exact @foldl_keeps db _ evictCheckpoint (fun next => db.revision ≤ next.revision)
      (fun _ _ kept => kept) _ (le_refl _)
  | addReceipt _ row added seq =>
    obtain ⟨_, free, rfl⟩ := addReceipt_eq_ok added
    exact le_refl _
  | addCheckpoint _ row receipt added =>
    obtain ⟨_, free, rfl⟩ := addCheckpoint_eq_ok added
    exact le_refl _
  | _ => exact le_refl _

theorem Changes.revision_le (changes : Changes options occasion db next) :
    db.revision ≤ next.revision := by
  induction changes with
  | refl => exact le_refl _
  | tail _ change ih => exact ih.trans change.revision_le

/-- Steps that end with a bump raise the revision. -/
theorem Changes.observed_bump (changes : Changes options occasion db next) :
    Observed db next.bumpRevision :=
  .of_lt (Nat.lt_succ_of_le changes.revision_le)

theorem observed_setCheckpointState (key : ReceiptKey) (state : ResponsesCheckpointState)
    (db : Database) : Observed db (db.setCheckpointState key state) where
  revision := le_refl _
  seen _ := ⟨rfl, size_setCheckpointState db key state, rfl, rfl⟩

end Database

/-! ## Transactions -/

theorem ensures_mutation_observed {work : Database → Except HistoryError (Database × Bool)}
    {ttlMs now : Int}
    (changes : ∀ db, Ensures (work db) fun next =>
      Database.Changes options (some ⟨ttlMs, now⟩) db next.1)
    (same : ∀ db, db.Valid → Ensures (work db) fun next =>
      next.2 = false → db.SameHistory next.1) (valid : db.Valid) :
    Ensures (mutation options ttlMs now work db) db.Observed := by
  intro last ran
  obtain ⟨receiptsDb, expiredDb, next, receiptsExpired, legacyExpired, changed, receipts, legacy,
    worked, rfl⟩ := mutation_eq_ok ran
  by_cases some : (receiptsExpired || legacyExpired || changed) = true
  · rw [if_pos some]
    have first : Database.Changes options (Option.some ⟨ttlMs, now⟩) db
        (db.expireReceipts ttlMs now).1 := .single (.expire db ttlMs now rfl)
    have second : Database.Changes options (Option.some ⟨ttlMs, now⟩) receiptsDb _ :=
      Database.changes_expireLegacy options ttlMs now receiptsDb
    rw [receipts] at first
    rw [legacy] at second
    have third := (first.trans second).trans (changes _ _ worked)
    have fourth := third.trans (Database.changes_evictCheckpointOverflow options next)
    exact Database.Changes.observed_bump
      (fourth.trans (Database.changes_evictReceiptOverflow options _))
  · rw [if_neg some]
    obtain ⟨expiredSame, workKept⟩ := unchanged_of_flags some receipts legacy
    rw [expiredSame] at worked
    exact (same db valid _ worked workKept).observed

section Transaction

variable {canSkip : Bool} {ttlMs : Int} {owned : Ownership} {existing : ReceiptRow}
  {result : TransactionResult}

/-- Where the transaction is told that the revision has been bumped, it has. -/
theorem ensures_storeCheckpoint_bumped (current : ReceiptRow) (db : Database) :
    Ensures (storeCheckpoint options host canSkip key replay progress current db) fun answer =>
      answer.2.2 = true → db.revision < answer.1.revision := by
  unfold storeCheckpoint
  simp only
  generalize raised : (if decide (checkpointRank current.checkpointState <
    checkpointRank progress.receipt.state) then
      db.setCheckpointState key progress.receipt.state else db) = middle
  have revision : middle.revision = db.revision := by
    rw [← raised]
    split
    · rfl
    · rfl
  refine ensures_ite (fun _ => ensures_ok fun impossible => by cases impossible) fun _ => ?_
  refine ensures_ite (fun _ => ?_) fun _ => ?_
  · refine ensures_bind fun next inserted => ensures_ok fun _ => ?_
    obtain ⟨added, ran, returned⟩ := bind_eq_ok.mp inserted
    cases returned
    obtain ⟨_, free, rfl⟩ := Database.addCheckpoint_eq_ok ran
    show db.revision < middle.revision + 1
    rw [revision]
    exact Nat.lt_succ_self _
  · exact ensures_bind fun _ _ => ensures_ok fun impossible => by cases impossible

/-- The end of the transaction bumps the revision, unless that has been done or
nothing has happened. -/
theorem observed_settle {expired changed bumped : Bool} {expiredDb stored : Database}
    (began : Database.Changes options occasion db expiredDb)
    (wrote : Database.Changes options occasion expiredDb stored)
    (unexpired : expired = false → expiredDb = db)
    (unchanged : changed = false → stored = expiredDb)
    (higher : bumped = true → expiredDb.revision < stored.revision) :
    db.Observed (settle options expired changed bumped stored) := by
  have settled : Database.Changes options occasion stored _ :=
    changes_settle options expired changed bumped stored
  cases bumped with
  | true =>
    apply Database.Observed.of_lt
    calc db.revision ≤ expiredDb.revision := began.revision_le
      _ < stored.revision := higher rfl
      _ ≤ (settle options expired changed true stored).revision := settled.revision_le
  | false =>
    obtain ⟨first, second, firstIs, secondIs, whole⟩ :=
      settle_eq options expired changed false stored
    cases flags : (expired || changed) with
    | true =>
      rw [whole, if_pos (by rw [flags]; rfl)]
      have evicted : Database.Changes options occasion stored second.1 := by
        rw [secondIs, firstIs, if_pos flags]
        split
        · exact (Database.changes_evictCheckpointOverflow options stored).trans
            (Database.changes_evictReceiptOverflow options _)
        · exact Database.changes_evictCheckpointOverflow options stored
      exact Database.Changes.observed_bump ((began.trans wrote).trans evicted)
    | false =>
      obtain ⟨rfl, rfl⟩ := Bool.or_eq_false_iff.mp flags
      have same : stored = db := (unchanged rfl).trans (unexpired rfl)
      rw [same]
      exact Database.Observed.refl db

/-- The transaction of `recordCheckpoint` changes nothing that is shown without
bumping the revision. -/
theorem observed_checkpointTransaction (found : db.readReceipt key = some existing)
    (counted : replay.Counted)
    (ran : checkpointTransaction options host ttlMs canSkip key owned replay progress finalize
      existing db = .ok (next, result)) : db.Observed next := by
  obtain ⟨expired, changed, bumped, expiredDb, stored, current, began, read, resulted, kept, done,
    undone⟩ := checkpointTransaction_eq_ok ran
  have first : Database.Changes options (some ⟨ttlMs, host.transaction⟩) db _ :=
    changes_expireUnlessSkipped options canSkip rfl db
  rw [began] at first
  have wrote : Database.Changes options (some ⟨ttlMs, host.transaction⟩) expiredDb stored ∧
      (changed = false → stored = expiredDb) ∧
      (bumped = true → expiredDb.revision < stored.revision) := by
    unfold storeIfUsable at kept
    split at kept
    · obtain ⟨_, same, _, open_, _⟩ := transactionResult_eq_stored resulted.symm
      cases same
      exact ⟨ensures_storeCheckpoint_changes (read_of_current found began read) open_
        counted _ kept,
        (ensures_storeCheckpoint_size _ expiredDb _ kept).2,
        ensures_storeCheckpoint_bumped _ expiredDb _ kept⟩
    · cases kept
      exact ⟨.refl, fun _ => rfl, fun impossible => by cases impossible⟩
  have settled := observed_settle first wrote.1 (expireUnlessSkipped_of_false began) wrote.2.1
    wrote.2.2
  by_cases usable : result = .stored
  · exact settled.trans
      (ensures_finalizeCheckpoint_same progress finalize _ _ (done usable)).observed
  · rw [undone usable]
    exact settled

end Transaction

/-! ## Operations -/

theorem CheckpointPath.observed {answer : Answer Unit}
    (path : CheckpointPath options host record ownership progress finalize store answer)
    (valid : store.db.Valid) : store.db.Observed answer.2.db := by
  cases path with
  | refused error memo => exact Database.Observed.refl store.db
  | recorded responseId replay existing next prepared usable rank matching finalized =>
    exact (ensures_finalizeCheckpoint_same progress finalize store.db next finalized).observed
  | promoted responseId replay existing next memo prepared usable complete partly matching
      finalized =>
    exact (Database.observed_setCheckpointState _ _ _).trans
      (ensures_runFinalize_same finalize _ next finalized).observed
  | updated responseId replay existing next result memo canSkip prepared usable skipped evicting
      ran =>
    exact observed_checkpointTransaction (usableReceipt_eq_some usable).1
      (counted_of_prepareCheckpoint prepared) ran
  | fresh responseId replay next prepared unusable ran evicting =>
    exact ensures_mutation_observed (ensures_freshCheckpoint_changes (prepared_trim prepared)
      (counted_of_prepareCheckpoint prepared))
      (fun db _ => ensures_freshCheckpoint_same store.ttlMs responseId db) valid next ran

theorem observed_sweep (ttlMs now : Int) (valid : db.Valid) :
    db.Observed (sweep options ttlMs now db) :=
  ensures_mutation_observed (fun _ => ensures_ok .refl)
    (fun db _ => ensures_ok fun _ => Database.SameHistory.refl db) valid _
    (mutation_nothing options ttlMs now db)

/-- No operation changes what is shown without raising the revision. -/
theorem Operation.observed (operation : Operation) (valid : store.db.Valid) :
    store.db.Observed (operation.after options store).db := by
  cases operation with
  | resolve host responseId accountId =>
    show store.db.Observed (store.resolve options host responseId accountId).2.db
    rcases resolve_store options host store responseId accountId with same | swept
    · rw [same]
      exact Database.Observed.refl store.db
    · rw [swept]
      exact observed_sweep store.ttlMs host.transaction valid
  | enrich host => exact observed_sweep store.ttlMs host.transaction valid
  | recordReceipt host receipt =>
    show store.db.Observed (store.recordReceipt options host receipt).2.db
    rcases recordReceipt_db options host store receipt with same | ran
    · rw [same]
      exact Database.Observed.refl store.db
    · exact ensures_mutation_observed
        (Database.ensures_upsertReceipt_changes options _ _ _ _ receipt)
        (fun db _ => ensures_upsertReceipt_sameHistory _ _ _ receipt db) valid _ ran
  | recordCheckpoint host record ownership progress finalize =>
    exact CheckpointPath.observed path_recordCheckpoint valid
  | setTtlDays ttlDays => exact Database.Observed.refl store.db
  | inspect => exact Database.Observed.refl store.db
  | clear expectedRevision =>
    show store.db.Observed (store.clear expectedRevision).2.db
    rcases clear_db store expectedRevision with same | ⟨_, cleared⟩
    · rw [same]
      exact Database.Observed.refl store.db
    · rw [cleared]
      exact Database.Observed.of_lt (Nat.lt_succ_self _)
  | clearAccount host accountId =>
    show store.db.Observed (store.clearAccount options host accountId).2.db
    rcases clearAccount_db options host store accountId with same | ran
    · rw [same]
      exact Database.Observed.refl store.db
    · exact ensures_mutation_observed
        (fun db => ensures_ok (changes_deleteAccount accountId db))
        (fun db valid => ensures_ok (same_deleteAccount valid)) valid _ ran
  | reopen ttlDays now => exact observed_sweep (ttlDays * 86400000) now valid
  | carriers change =>
    have same : store.db.SameHistory
        { store.db with carriers := change store.db.carriers } := rfl
    exact same.observed

variable (options) in
theorem observed_after (operations : List Operation) (valid : store.db.Valid) :
    store.db.Observed (after options operations store).db := by
  have both : (after options operations store).db.Valid ∧
      store.db.Observed (after options operations store).db := by
    apply after_induction fun later => later.db.Valid ∧ store.db.Observed later.db
    · intro operation _ later holds
      exact ⟨operation.valid holds.1, holds.2.trans (operation.observed holds.1)⟩
    · exact ⟨valid, Database.Observed.refl store.db⟩
  exact both.2

structure SameInspection (first second : ResponsesHistoryInspection) : Prop where
  count : second.count = first.count
  receiptCount : second.receiptCount = first.receiptCount
  legacyCount : second.legacyCount = first.legacyCount
  untrackedContinuationBlocked :
    second.untrackedContinuationBlocked = first.untrackedContinuationBlocked
  oldestAt : second.oldestAt = first.oldestAt
  newestAt : second.newestAt = first.newestAt

theorem Database.SeenAs.inspect {first second : HistoryStore}
    (seen : first.db.SeenAs second.db) : SameInspection first.inspect second.inspect where
  count := by
    have size := congrArg List.length seen.created
    rw [List.length_map, List.length_map] at size
    simp only [HistoryStore.inspect, seen.legacy, Table.size]
    rw [size]
  receiptCount := seen.receipts
  legacyCount := by simp only [HistoryStore.inspect, seen.legacy]
  untrackedContinuationBlocked := seen.uncertain
  oldestAt := by simp only [HistoryStore.inspect, seen.legacy, seen.created]
  newestAt := by simp only [HistoryStore.inspect, seen.legacy, seen.created]

/-- `clear` succeeds only at the revision it expects. -/
theorem revision_of_clear {inspection : ResponsesHistoryInspection}
    (cleared : (store.clear expectedRevision).1 = .ok inspection) :
    store.db.revision = expectedRevision := by
  by_contra other
  have refused : clearDatabase expectedRevision store.db = .error .revisionConflict := by
    rw [clearDatabase, if_pos other]
  simp only [clear, transact, refused] at cleared
  cases cleared

/-- A `clear` that throws leaves the database alone. -/
theorem clear_of_error {error : HistoryError}
    (thrown : (store.clear expectedRevision).1 = .error error) :
    (store.clear expectedRevision).2.db = store.db := by
  simp only [clear, transact] at thrown ⊢
  cases ran : clearDatabase expectedRevision store.db with
  | error error => rfl
  | ok db =>
    rw [ran] at thrown
    cases thrown

/-- Two inspections of one store with the same revision show the same, whatever was
done between them. So `clear` with the revision of an inspection succeeds only if
nothing that was shown has changed, and changes nothing if it fails. -/
theorem inspect_of_revision (options : HistoryOptions) (legacy : Table LegacyRow.responseId)
    (ttlMs now : Int) (operations more : List Operation) :
    let first := reached options legacy ttlMs now operations
    let second := after options more first
    (second.inspect.revision = first.inspect.revision →
      SameInspection first.inspect second.inspect) ∧
      (∀ inspection, (second.clear first.inspect.revision).1 = .ok inspection →
        SameInspection first.inspect second.inspect) ∧
      ∀ expectedRevision error, (second.clear expectedRevision).1 = .error error →
        (second.clear expectedRevision).2.db = second.db := by
  have valid := valid_reached options legacy ttlMs now operations
  have observed := observed_after options more valid
  refine ⟨?_, ?_, ?_⟩
  · intro same
    exact (observed.seen same).inspect
  · intro inspection cleared
    exact (observed.seen (revision_of_clear cleared)).inspect
  · intro expectedRevision error thrown
    exact clear_of_error thrown

/-- A change of the time to live shows nothing else. -/
theorem inspect_of_revision_setTtlDays :
    let first := reached .defaults Table.empty 1000 0 [.recordReceipt (.still 1)
      ⟨⟨⟨js "m", js "https://u.test", .native, .responses, none⟩, js "a"⟩, js "r", .routeOnly⟩]
    SameInspection first.inspect (after .defaults [.setTtlDays 7] first).inspect :=
  (inspect_of_revision .defaults Table.empty 1000 0 _ [.setTtlDays 7]).1 rfl

end GhcGateway.History
