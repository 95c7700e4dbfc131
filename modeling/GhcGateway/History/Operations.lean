/-
# Runs of the history store

An operation is one call of the store by the gateway, a reopening of its database,
or a change of the carriers by the carrier store, which shares the database. The
limits are the same whenever the store is opened.

Every operation but `clear` takes the steps of `Changes`. The statements come
first, then the transactions, then the operations.
-/

import GhcGateway.History.Changes

namespace GhcGateway.History

open Library Conversion

variable {work : Database → Except HistoryError (Database × Bool)} {db : Database} {ttlMs now : Int}

/-- What is done to the store. Of `enrich` it is only its expiry that touches the
store. -/
inductive Operation
  | resolve (host : HistoryHost) (responseId accountId : JsString)
  | enrich (host : HistoryHost)
  | recordReceipt (host : HistoryHost) (receipt : ResponsesReceiptRecord)
  | recordCheckpoint (host : HistoryHost) (record : ResponsesHistoryRecord)
      (ownership : ResponsesContinuationOwnership) (progress : CheckpointProgress)
      (finalize : Option Finalize)
  | setTtlDays (ttlDays : Int)
  | inspect
  | clear (expectedRevision : Nat)
  | clearAccount (host : HistoryHost) (accountId : JsString)
  | reopen (ttlDays now : Int)
  | carriers (change : CarrierTable → CarrierTable)

/-- What an operation answers when it does not throw. -/
inductive Outcome
  | returned
  | resolved (resolution : ResponsesContinuationResolution)
  | inspected (inspection : ResponsesHistoryInspection)
  deriving DecidableEq

def outcome {α : Type} (wrap : α → Outcome) (answer : Answer α) : Answer Outcome :=
  (answer.1.map wrap, answer.2)

def Operation.run (options : HistoryOptions) (store : HistoryStore) : Operation → Answer Outcome
  | .resolve host responseId accountId =>
    outcome .resolved (store.resolve options host responseId accountId)
  | .enrich host =>
    (.ok .returned, { store with db := sweep options store.ttlMs host.transaction store.db })
  | .recordReceipt host receipt =>
    outcome (fun _ => .returned) (store.recordReceipt options host receipt)
  | .recordCheckpoint host record ownership progress finalize =>
    outcome (fun _ => .returned)
      (store.recordCheckpoint options host record ownership progress finalize)
  | .setTtlDays ttlDays => (.ok .returned, store.setTtlDays ttlDays)
  | .inspect => (.ok (.inspected store.inspect), store)
  | .clear expectedRevision => outcome .inspected (store.clear expectedRevision)
  | .clearAccount host accountId =>
    outcome (fun _ => .returned) (store.clearAccount options host accountId)
  | .reopen ttlDays now =>
    (.ok .returned, HistoryStore.start options (ttlDays * 86400000) now store.db)
  | .carriers change =>
    (.ok .returned, { store with db := { store.db with carriers := change store.db.carriers } })

def Operation.after (options : HistoryOptions) (store : HistoryStore) (operation : Operation) :
    HistoryStore := (operation.run options store).2

def after (options : HistoryOptions) (operations : List Operation) (store : HistoryStore) :
    HistoryStore := operations.foldl (Operation.after options) store

/-- When the operation expires what is due, if it does. -/
def Operation.occasion (store : HistoryStore) : Operation → Option Occasion
  | .resolve host _ _ => some ⟨store.ttlMs, host.transaction⟩
  | .enrich host => some ⟨store.ttlMs, host.transaction⟩
  | .recordReceipt host _ => some ⟨store.ttlMs, host.transaction⟩
  | .recordCheckpoint host _ _ _ _ => some ⟨store.ttlMs, host.transaction⟩
  | .setTtlDays _ => none
  | .inspect => none
  | .clear _ => none
  | .clearAccount host _ => some ⟨store.ttlMs, host.transaction⟩
  | .reopen ttlDays now => some ⟨ttlDays * 86400000, now⟩
  | .carriers _ => none

/-- What every operation preserves, a run preserves. -/
theorem after_induction {options : HistoryOptions} (invariant : HistoryStore → Prop)
    {operations : List Operation}
    (preserved : ∀ operation ∈ operations, ∀ store, invariant store →
      invariant (operation.after options store))
    {store : HistoryStore} (start : invariant store) :
    invariant (after options operations store) := by
  induction operations generalizing store with
  | nil => exact start
  | cons operation operations ih =>
    apply ih
    · intro other member
      exact preserved other (List.mem_cons_of_mem _ member)
    · exact preserved operation List.mem_cons_self store start

namespace Database

variable {options : HistoryOptions} {occasion : Option Occasion}
  {key : ReceiptKey} {replay : StoredReplay} {receipt : ReceiptRow}

/-! ## Statements -/

/-- A receipt is read from its row. -/
theorem readReceipt_eq_some {existing : ReceiptRow} (read : db.readReceipt key = some existing) :
    ∃ row, db.receipts.find? key = some row ∧ row.read = existing := Option.map_eq_some_iff.mp read

/-- A loop of steps. -/
theorem changes_foldl {ι : Type} {work : Database → ι → Database}
    (changes : ∀ db item, Changes options occasion db (work db item)) (items : List ι)
    (db : Database) : Changes options occasion db (items.foldl work db) := by
  induction items generalizing db with
  | nil => exact .refl
  | cons item items ih => exact (changes db item).trans (ih _)

variable (options) in
theorem changes_expireLegacy (ttlMs now : Int) (db : Database) :
    Changes options occasion db (db.expireLegacy ttlMs now).1 := by
  simp only [expireLegacy]
  split
  · exact .refl
  · exact .head (.mark db) (.single (.deleteLegacy _ _ rfl))

theorem changes_evictLegacy (overflow : Nat) (db : Database) :
    Changes options occasion db (db.evictLegacy overflow).1 := by
  simp only [evictLegacy]
  split
  · exact .refl
  · exact .head (.mark db) (.single (.deleteLegacy _ _ rfl))

/-- Some checkpoints that are there are evicted, if the store is over a bound where any
are. -/
theorem changes_evictAll {rows : List CheckpointRow}
    (there : ∀ row ∈ rows, row ∈ db.checkpoints.rows) (overfull : rows ≠ [] → db.Overfull options) :
    Changes options occasion db
      ((rows.map fun row => ReceiptKey.read row.key).foldl evictCheckpoint db) := by
  by_cases none : rows = []
  · rw [none]
    exact .refl
  · refine .single (.evict db _ (overfull none) fun key member => ?_)
    obtain ⟨row, rowMember, rfl⟩ := List.mem_map.mp member
    exact ⟨row, there row rowMember, rfl⟩

/-- Checkpoints are evicted by count only where there are too many responses. -/
theorem changes_evictOldest {overflow : Nat}
    (excess : overflow ≤ db.responses - options.maxResponses) :
    Changes options occasion db (db.evictOldest overflow).1 := by
  apply changes_evictAll
  · intro row member
    exact (db.checkpoints.perm_orderedBy _).mem_iff.mp (List.mem_of_mem_take member)
  · intro some
    have positive : overflow ≠ 0 := by
      rintro rfl
      exact some (List.take_zero)
    exact .inl (by omega)

/-- Checkpoints are evicted by size only where there are too many bytes. -/
theorem changes_evictBytes (db : Database) :
    Changes options occasion db (db.evictBytes options).1 := by
  apply changes_evictAll
  · intro row member
    have ordered := (Eviction.oldestExceeding_prefix _ _ _).mem member
    exact (db.checkpoints.perm_orderedBy _).mem_iff.mp ordered
  · intro some
    have positive := Eviction.pos_of_oldestExceeding_ne_nil _ some
    exact .inr (by omega)

/-- The eviction of legacy responses takes no more than it says. -/
theorem responses_evictLegacy_le (overflow : Nat) (db : Database) :
    db.responses ≤ (db.evictLegacy overflow).1.responses + (db.evictLegacy overflow).2 := by
  simp only [evictLegacy]
  split
  · exact le_refl _
  · have size := Table.size_le_size_delete_mem db.legacy fun row =>
      @decide_eq_true_iff (row.responseId ∈
        (db.oldestLegacy overflow).map fun row => columnText row.responseId) _
    simp only [responses, deleteLegacy, markUncertain]
    omega

variable (options) in
theorem changes_evictCheckpointOverflow (db : Database) :
    Changes options occasion db (db.evictCheckpointOverflow options).1 := by
  have taken := responses_evictLegacy_le (db.responses - options.maxResponses) db
  have legacy : Changes options occasion db
      (db.evictLegacy (db.responses - options.maxResponses)).1 := changes_evictLegacy _ db
  simp only [evictCheckpointOverflow]
  generalize db.evictLegacy (db.responses - options.maxResponses) = first at taken legacy ⊢
  obtain ⟨mid, count⟩ := first
  have oldest : Changes options occasion mid
      (mid.evictOldest (db.responses - options.maxResponses - count)).1 := by
    apply changes_evictOldest
    simp only at taken
    omega
  exact (legacy.trans oldest).trans (changes_evictBytes _)

variable (options) in
theorem changes_evictReceiptOverflow (db : Database) :
    Changes options occasion db (db.evictReceiptOverflow options).1 := by
  apply changes_foldl
  intro db key
  exact .head (.mark db) (.single (.deleteReceipts _ _ fun _ _ _ => rfl))

/-! ## Writes -/

variable (options occasion) in
/-- The receipt to be written is added, or raised, or left alone. -/
theorem ensures_upsertReceipt_changes (accountIsActive : JsString → Bool) (ttlMs now : Int)
    (receipt : ResponsesReceiptRecord) (db : Database) :
    Ensures (db.upsertReceipt accountIsActive ttlMs now receipt) fun next =>
      Changes options occasion db next.1 := by
  unfold upsertReceipt
  refine ensures_bind fun _ _ => ensures_ite (fun _ => ensures_error) fun _ => ?_
  refine ensures_bind fun responseId _ => ?_
  simp only
  split
  · next existing read =>
    obtain ⟨row, found, rfl⟩ := readReceipt_eq_some read
    have same := (Table.find?_eq_some.mp found).2
    refine ensures_ite (fun _ => ensures_error) fun _ => ?_
    refine ensures_ite (fun _ => ensures_error) fun open_ => ?_
    refine ensures_ite (fun _ => ensures_ok .refl) fun higher => ?_
    rw [← same]
    rw [← same] at found
    exact ensures_ok (.single (.raise db row _ found open_ (not_le.mp higher)))
  · exact ensures_bind fun next added => ensures_ok (.single (.addReceipt db next _ added rfl))

/-- The first checkpoint of a receipt that may have one is added. -/
theorem ensures_addCheckpoint_changes (now : Int) (found : db.receipts.find? key = some receipt)
    (live : receipt.checkpointState.Live) (counted : replay.Counted) :
    Ensures (db.addCheckpoint (db.newCheckpoint key replay now)) fun next =>
      Changes options occasion db next := by
  intro next added
  exact .single (.addCheckpoint db next _ receipt added rfl found live
    (counted_of_replay counted (db.newCheckpoint key replay now)))

theorem ensures_upsertCheckpoint_changes (now : Int) (found : db.receipts.find? key = some receipt)
    (live : receipt.checkpointState.Live) (counted : replay.Counted) :
    Ensures (db.upsertCheckpoint options key replay now) fun next =>
      Changes options occasion db next.1 := by
  unfold upsertCheckpoint
  refine ensures_bind fun matching _ => ensures_ite (fun _ => ensures_ok .refl) fun _ => ?_
  split
  · refine ensures_ite (fun _ => ensures_ok .refl) fun _ => ?_
    exact (ensures_addCheckpoint_changes now found live counted).bind fun next changes =>
      ensures_ok changes
  · refine ensures_ite (fun _ => ensures_error) fun _ => ?_
    exact ensures_ok (.single (.replaceReplay db key replay counted))

end Database

/-! ## Transactions -/

variable {options : HistoryOptions} {occasion : Option Occasion}

/-- A mutation taken apart: the expiry, the work, and the evictions if anything has
changed. -/
theorem mutation_eq_ok {last : Database} (ran : mutation options ttlMs now work db = .ok last) :
    ∃ (receiptsDb expiredDb next : Database) (receiptsExpired legacyExpired changed : Bool),
      db.expireReceipts ttlMs now = (receiptsDb, receiptsExpired) ∧
      receiptsDb.expireLegacy ttlMs now = (expiredDb, legacyExpired) ∧
      work expiredDb = .ok (next, changed) ∧
      last = if receiptsExpired || legacyExpired || changed then
          ((next.evictCheckpointOverflow options).1.evictReceiptOverflow options).1.bumpRevision
        else next := by
  unfold mutation at ran
  cases receipts : db.expireReceipts ttlMs now with
  | mk receiptsDb receiptsExpired =>
    cases legacy : receiptsDb.expireLegacy ttlMs now with
    | mk expiredDb legacyExpired =>
      rw [receipts] at ran
      simp only [legacy] at ran
      obtain ⟨⟨next, changed⟩, worked, returned⟩ := bind_eq_ok.mp ran
      refine ⟨receiptsDb, expiredDb, next, receiptsExpired, legacyExpired, changed, rfl, legacy,
        worked, ?_⟩
      simp only at returned
      split at returned
      · next some =>
        cases returned
        rw [if_pos some]
      · next none =>
        cases returned
        rw [if_neg none]

/-- The database that the evictions of a mutation start from, if it comes to them. -/
def mutationEvicting (ttlMs now : Int) (work : Database → Except HistoryError (Database × Bool))
    (db : Database) : Option Database :=
  let (db, receiptsExpired) := db.expireReceipts ttlMs now
  let (db, legacyExpired) := db.expireLegacy ttlMs now
  match work db with
  | .error _ => none
  | .ok (db, changed) => if receiptsExpired || legacyExpired || changed then some db else none

theorem ensures_mutation_changes
    (changes : ∀ db, Ensures (work db) fun next => Database.Changes options occasion db next.1)
    (due : occasion = some ⟨ttlMs, now⟩) (db : Database) :
    Ensures (mutation options ttlMs now work db) fun next =>
      Database.Changes options occasion db next := by
  intro last ran
  obtain ⟨receiptsDb, expiredDb, next, _, _, _, receipts, legacy, worked, rfl⟩ := mutation_eq_ok ran
  have first : Database.Changes options occasion db (db.expireReceipts ttlMs now).1 :=
    .single (.expire db ttlMs now due)
  have second : Database.Changes options occasion receiptsDb _ :=
    Database.changes_expireLegacy options ttlMs now receiptsDb
  rw [receipts] at first
  rw [legacy] at second
  have third := changes _ _ worked
  split
  · have fourth : Database.Changes options occasion next _ :=
      Database.changes_evictCheckpointOverflow options next
    have fifth : Database.Changes options occasion (next.evictCheckpointOverflow options).1 _ :=
      Database.changes_evictReceiptOverflow options (next.evictCheckpointOverflow options).1
    exact ((((first.trans second).trans third).trans fourth).trans fifth).tail (.bump _)
  · exact (first.trans second).trans third

end GhcGateway.History
