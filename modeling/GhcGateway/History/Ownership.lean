/-
# Ownership of responses

Once a receipt of a response has been recorded the store never again takes the
response for an unknown one, until it is cleared: what removes a receipt sets the
marker of uncertainty first. The resolver of continuations does not tell an
unknown response from one that is known but not the caller's to continue; it is
the store alone that keeps them apart.

A receipt itself goes through its states by the moves of `ReceiptMove`, and a call
that throws changes the database by its expiry at most.
-/

import GhcGateway.History.Invariant

namespace GhcGateway.History

open Library Conversion HistoryStore

variable {options : HistoryOptions} {host : HistoryHost}
  {ownership : ResponsesContinuationOwnership}
  {progress : CheckpointProgress} {finalize : Option Finalize} {record : ResponsesHistoryRecord}
  {store : HistoryStore} {db next : Database} {key : ReceiptKey} {replay : StoredReplay}
  {responseId : JsString} {occasion : Option Occasion} {accountId : JsString}

/-! ## Known responses -/

namespace Database

/-- A receipt of the response is there. -/
def Holds (db : Database) (responseId : JsString) : Prop :=
  ∃ row ∈ db.receipts.rows, row.key.2 = boundText responseId

/-- A receipt of the response is there, or the store knows that it has dropped
some. -/
def Knows (db : Database) (responseId : JsString) : Prop :=
  db.uncertain = true ∨ db.Holds responseId

theorem knows_of_find? {receipt : ReceiptRow}
    (found : db.receipts.find? (storedKey accountId responseId) = some receipt) :
    db.Knows responseId := by
  obtain ⟨member, same⟩ := Table.find?_eq_some.mp found
  exact .inr ⟨receipt, member, congrArg Prod.snd same⟩

theorem knows_of_readReceipt {existing : ReceiptRow}
    (read : db.readReceipt (storedKey accountId responseId) = some existing) :
    db.Knows responseId := by
  obtain ⟨row, found, _⟩ := readReceipt_eq_some read
  exact knows_of_find? found

/-- While the keys of the receipts stay, none is forgotten. -/
theorem Knows.of_keys (known : db.Knows responseId)
    (keys : next.receipts.rows.map ReceiptRow.key = db.receipts.rows.map ReceiptRow.key)
    (uncertain : next.uncertain = db.uncertain) : next.Knows responseId := by
  rcases known with marked | ⟨row, member, same⟩
  · exact .inl (uncertain.trans marked)
  · have kept : row.key ∈ next.receipts.rows.map ReceiptRow.key := by
      rw [keys]
      exact List.mem_map_of_mem member
    obtain ⟨other, otherMember, otherSame⟩ := List.mem_map.mp kept
    exact .inr ⟨other, otherMember, by rw [otherSame, same]⟩

theorem keys_setCheckpointState (db : Database) (key : ReceiptKey)
    (state : ResponsesCheckpointState) :
    (db.setCheckpointState key state).receipts.rows.map ReceiptRow.key =
      db.receipts.rows.map ReceiptRow.key :=
  Table.map_update_of_keeps fun _ => rfl

theorem keys_resetCheckpointState (db : Database) (key : ReceiptKey) :
    (db.resetCheckpointState key).receipts.rows.map ReceiptRow.key =
      db.receipts.rows.map ReceiptRow.key :=
  Table.map_update_of_keeps fun _ => rfl

/-- No step of the store forgets a response. -/
theorem Knows.change (known : db.Knows responseId) (change : Change options occasion db next) :
    next.Knows responseId := by
  cases change with
  | bump => exact known
  | carriers => exact known
  | mark => exact .inl rfl
  | expire ttlMs now due =>
    rw [expireReceipts_eq]
    refine @foldl_keeps db _ expireReceipt (fun next => next.Knows responseId) ?_ _ known
    intro db key known
    exact known.of_keys (keys_setCheckpointState (db.deleteCheckpoint key) key .expired) rfl
  | deleteLegacy ids => exact known
  | evict keys =>
    refine @foldl_keeps db _ evictCheckpoint (fun next => next.Knows responseId) ?_ keys known
    intro db key known
    exact known.of_keys (keys_resetCheckpointState (db.deleteCheckpoint key) key) rfl
  | deleteReceipts condition marked =>
    rcases known with uncertain | ⟨row, member, same⟩
    · exact .inl uncertain
    · cases taken : condition row.key with
      | true => exact .inl (marked row member taken)
      | false => exact .inr ⟨row, Table.mem_delete.mpr ⟨member, taken⟩, same⟩
  | raise row state found open_ higher =>
    exact known.of_keys (keys_setCheckpointState _ row.key state) rfl
  | addReceipt _ row added seq =>
    obtain ⟨_, free, rfl⟩ := addReceipt_eq_ok added
    rcases known with uncertain | ⟨other, member, same⟩
    · exact .inl uncertain
    · exact .inr ⟨other, (Table.mem_insert free).mpr (.inl member), same⟩
  | addCheckpoint _ row receipt added =>
    obtain ⟨_, free, rfl⟩ := addCheckpoint_eq_ok added
    exact known
  | replaceReplay key replay counted => exact known

theorem Knows.changes (known : db.Knows responseId) (changes : Changes options occasion db next) :
    next.Knows responseId := by
  induction changes with
  | refl => exact known
  | tail _ change ih => exact ih.change change

end Database

/-- A response the store knows is never resolved as an unknown one. -/
theorem resolution_ne_none (known : db.Knows responseId) :
    resolution options db responseId accountId ≠ .ok .none := by
  intro answered
  unfold resolution at answered
  split at answered
  · obtain ⟨_, _, rest⟩ := bind_eq_ok.mp answered
    split at rest
    · cases rest
    · obtain ⟨_, _, returned⟩ := bind_eq_ok.mp rest
      cases returned
  · simp only at answered
    split at answered
    · cases answered
    · next unowned =>
      split at answered
      · cases answered
      · split at answered
        · cases answered
        · next certain =>
          rcases known with marked | ⟨row, member, same⟩
          · exact certain marked
          · exact unowned (List.any_eq_true.mpr ⟨row, member, decide_eq_true same⟩)

theorem resolve_ne_none (known : store.db.Knows responseId) :
    (store.resolve options host responseId accountId).1 ≠ .ok .none := by
  unfold resolve
  split
  · intro impossible
    cases impossible
  · split
    · intro impossible
      cases impossible
    · intro impossible
      cases impossible
    · next id account named _ =>
      obtain ⟨_, rfl⟩ := requireNonEmpty_eq_ok.mp named
      have swept := known.changes (changes_sweep options store.ttlMs host.transaction store.db)
      unfold throwIfAborted
      simp only
      split
      · intro impossible
        cases impossible
      · exact resolution_ne_none swept

/-! ## Recorded receipts -/

/-- The operation records a receipt of the response. Ids are stored without the
white space around them. -/
def Operation.Records (responseId : JsString) : Operation → Prop
  | .recordReceipt _ receipt => receipt.responseId.trim = responseId
  | .recordCheckpoint _ record _ _ _ => record.responseId.trim = responseId
  | _ => False

/-- What the work of a mutation makes known stays known. -/
theorem knows_of_mutation {ttlMs now : Int} {work : Database →
    Except HistoryError (Database × Bool)}
    (worked : ∀ db, Ensures (work db) fun answer => answer.1.Knows responseId)
    (ran : mutation options ttlMs now work db = .ok next) : next.Knows responseId := by
  obtain ⟨_, expiredDb, middle, _, _, _, _, _, returned, rfl⟩ := mutation_eq_ok ran
  have known : middle.Knows responseId := worked expiredDb _ returned
  split
  · have evicted : Database.Changes options none middle _ :=
      (Database.changes_evictCheckpointOverflow options middle).trans
        (Database.changes_evictReceiptOverflow options _)
    exact known.changes (evicted.tail (.bump _))
  · exact known

theorem CheckpointPath.knows {answer : Answer Unit}
    (path : CheckpointPath options host record ownership progress finalize store answer)
    (returned : answer.1 = .ok ()) : answer.2.db.Knows record.responseId.trim := by
  have changes := path.changes rfl
  cases path with
  | refused error memo => cases returned
  | recorded responseId replay existing next prepared usable rank matching finalized =>
    rw [← (prepareCheckpoint_eq_ok prepared).1]
    exact (Database.knows_of_readReceipt (usableReceipt_eq_some usable).1).changes changes
  | promoted responseId replay existing next memo prepared usable complete partly matching
      finalized =>
    rw [← (prepareCheckpoint_eq_ok prepared).1]
    exact (Database.knows_of_readReceipt (usableReceipt_eq_some usable).1).changes changes
  | updated responseId replay existing next result memo canSkip prepared usable skipped evicting
      ran =>
    rw [← (prepareCheckpoint_eq_ok prepared).1]
    exact (Database.knows_of_readReceipt (usableReceipt_eq_some usable).1).changes changes
  | fresh responseId replay next prepared unusable ran evicting =>
    rw [← (prepareCheckpoint_eq_ok prepared).1]
    refine knows_of_mutation (fun db => ?_) ran
    refine (@ensures_freshCheckpoint options _ _ _ _ _ none _ _ (prepared_trim prepared)
      (counted_of_prepareCheckpoint prepared) db).mono fun written kept => ?_
    obtain ⟨_, row, _, found, _, later⟩ := kept
    exact (Database.knows_of_find? found).changes later

/-- After an operation that records a receipt of it the store knows the
response. -/
theorem knows_of_records {operation : Operation} (records : operation.Records responseId)
    (returned : (operation.run options store).1 = .ok .returned) :
    (operation.after options store).db.Knows responseId := by
  cases operation with
  | recordReceipt host receipt =>
    cases records
    simp only [Operation.after, Operation.run, outcome] at returned ⊢
    unfold recordReceipt at returned ⊢
    split at returned
    · cases returned
    · next unaborted =>
      rw [if_neg unaborted]
      split at returned
      · cases returned
      · next db ran =>
        refine knows_of_mutation (fun db => ?_) ran
        refine (ensures_upsertReceipt_found _ _ _ receipt db).mono fun written kept => ?_
        obtain ⟨row, found, _⟩ := kept
        exact Database.knows_of_find? found
  | recordCheckpoint host record ownership progress finalize =>
    cases records
    refine CheckpointPath.knows path_recordCheckpoint ?_
    simp only [Operation.run, outcome] at returned
    cases answered : (store.recordCheckpoint options host record ownership progress finalize).1 with
    | error error =>
      rw [answered] at returned
      cases returned
    | ok value => rfl
  | resolve => cases records
  | enrich => cases records
  | setTtlDays => cases records
  | inspect => cases records
  | clear => cases records
  | clearAccount => cases records
  | reopen => cases records
  | carriers => cases records

/-- The operation has recorded a receipt of the response and returned, or leaves one that is
there, however it ends. -/
def Operation.Leaves (options : HistoryOptions) (store : HistoryStore) (operation : Operation)
    (responseId : JsString) : Prop :=
  operation.Records responseId ∧ (operation.run options store).1 = .ok .returned ∨
    (operation.after options store).db.Holds responseId

/-- Once a receipt of a response has been recorded, and until the store is cleared,
the response is never resolved as unknown, for any account. -/
theorem resolve_ne_none_after {operation : Operation}
    (recorded : operation.Leaves options store responseId) (operations : List Operation)
    (uncleared : ∀ later ∈ operations, ∀ expectedRevision, later ≠ .clear expectedRevision)
    (host : HistoryHost) (accountId : JsString) :
    ((after options operations (operation.after options store)).resolve options host responseId
      accountId).1 ≠ .ok .none := by
  apply resolve_ne_none
  apply after_induction (fun store => store.db.Knows responseId)
  · intro later member store known
    exact known.changes (Operation.changes (uncleared later member))
  · rcases recorded with ⟨records, returned⟩ | held
    · exact knows_of_records records returned
    · exact .inr held

/-! ## The resolver of continuations -/

inductive ResolvedResponsesContinuation
  | none
  | owned (receipt : ResponsesRouteReceipt)
  deriving DecidableEq

def isUnrestorableHistory : HistoryError → Bool
  | .continuation _ _ => true
  | _ => false

/-- `resolveResponsesContinuation`. What it throws wraps the error given here. -/
def resolveResponsesContinuation (options : HistoryOptions) (host : HistoryHost)
    (previousResponseId : Option JsString) (accountId : JsString) (store : HistoryStore) :
    Answer ResolvedResponsesContinuation :=
  match previousResponseId with
  | none => (.ok .none, store)
  | some responseId =>
    let (resolution, store) := store.resolve options host responseId accountId
    match resolution with
    | .ok (.owned receipt) => (.ok (.owned receipt), store)
    | .ok _ => (.ok .none, store)
    | .error error =>
      if host.abortedBefore || host.abortedAfter || !isUnrestorableHistory error then
        (.error error, store)
      else (.ok .none, store)

/-- The account's own receipt, a day after it was recorded with a time to live of
one day: the store says that it has expired, and the resolver that there is
nothing. -/
theorem resolveResponsesContinuation_of_expired :
    let store := HistoryStore.start .defaults 86400000 0 Database.empty
    let recorded := Operation.after .defaults store (.recordReceipt (.still 0) nativeReceipt)
    (Operation.run .defaults store (.recordReceipt (.still 0) nativeReceipt)).1 = .ok .returned ∧
      (recorded.resolve .defaults (.still 86400000) (js "r") (js "a")).1 = .ok .expired ∧
      (resolveResponsesContinuation .defaults (.still 86400000) (some (js "r")) (js "a")
        recorded).1 = .ok .none := by
  decide

/-- The response is still known when the account of its receipt has been cleared, also where
the recording has noticed only after its commit that the request was aborted. -/
theorem resolve_ne_none_after_clearAccount :
    let record := Operation.recordReceipt { HistoryHost.still 0 with abortedAfter := true }
      nativeReceipt
    let store := HistoryStore.start .defaults 86400000 0 Database.empty
    (record.run .defaults store).1 = .error .aborted ∧
      ((after .defaults [.clearAccount (.still 1) (js "a")]
        (record.after .defaults store)).resolve .defaults (.still 2) (js "r") (js "b")).1 ≠
          .ok .none := by
  refine ⟨by decide, resolve_ne_none_after (.inr ?_) _ (by simp) (.still 2) (js "b")⟩
  exact ⟨⟨(js "a", js "r"), nativeReceipt.toOwnership, .routeOnly, 1, 0, 86400000⟩,
    by decide, by decide⟩

end GhcGateway.History
