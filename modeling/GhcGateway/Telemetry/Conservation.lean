/-
# What the telemetry recorder keeps count of

Every request and every event that was recorded is in the database, has been deleted from
it by the cleanup, is pending, or is counted as dropped. The exception is a flush that
fails after it has moved the counters to the database: the transaction takes the move
back, and the counters of the recorder stay zero.
-/

import GhcGateway.Telemetry.Recorder

namespace GhcGateway.Telemetry

open Library Transaction TelemetryRecorder

variable {Metadata SafeMetadata : Type}
  {transaction next : Transaction SafeMetadata} {invariant : Transaction SafeMetadata → Prop}
  {change : Database → Database} {observing : Bool} {α : Type}

/-! ## A transaction -/

/-- The requests that were ever written to the buckets, those of `removedRequests` included. -/
def Database.writtenRequests (database : Database) : Nat :=
  database.usageBuckets.total UsageBucket.requestCount + database.removedRequests

def Database.writtenEvents (database : Database) : Nat :=
  database.operationalEvents.size + database.removedEvents

def Pending.eventCount (item : Pending SafeMetadata) : Nat := if item.isEvent then 1 else 0

/-- The requests of some members of the queue. -/
def pendingRequests (items : List (Pending SafeMetadata)) : Nat :=
  (items.map Pending.requestCount).sum

/-- The events of some members of the queue. -/
def pendingEvents (items : List (Pending SafeMetadata)) : Nat := (items.map Pending.eventCount).sum

theorem writtenRequests_upsertUsage (database : Database) (excluded : UsageBucket) :
    (database.upsertUsage excluded).writtenRequests =
      database.writtenRequests + excluded.requestCount := by
  unfold Database.upsertUsage
  split
  case isTrue free =>
    show (database.usageBuckets.insert excluded free).total _ + database.removedRequests = _
    rw [Table.total_insert, Nat.add_right_comm]
    rfl
  case isFalse taken =>
    show (database.usageBuckets.update excluded.key (Database.addBucket excluded)
      (Database.key_addBucket excluded)).total UsageBucket.requestCount +
        database.removedRequests = _
    have adds : ∀ row : UsageBucket, (Database.addBucket excluded row).requestCount =
        row.requestCount + excluded.requestCount := fun _ => rfl
    rw [Table.total_update_of_adds taken adds, Nat.add_right_comm]
    rfl

/-- An upsert is about the buckets only. -/
theorem upsertUsage_others (database : Database) (excluded : UsageBucket) :
    (database.upsertUsage excluded).writtenEvents = database.writtenEvents ∧
    (database.upsertUsage excluded).droppedUsageUpdates = database.droppedUsageUpdates ∧
    (database.upsertUsage excluded).droppedOperationalEvents =
      database.droppedOperationalEvents := by
  unfold Database.upsertUsage
  split
  · exact ⟨rfl, rfl, rfl⟩
  · exact ⟨rfl, rfl, rfl⟩

theorem writtenEvents_insertEvent (database : Database) (occurredAtMs : Int)
    (kind : OperationalEventKind) (severity : Severity) (metadataJson : JsString) :
    (database.insertEvent occurredAtMs kind severity metadataJson).writtenEvents =
      database.writtenEvents + 1 := by
  show (database.operationalEvents.insert
    ⟨database.nextEventId, occurredAtMs, kind, severity, metadataJson⟩
    database.free_nextEventId).size + database.removedEvents = _
  rw [Table.size_insert, Nat.add_right_comm]
  rfl

theorem writtenRequests_deleteUsage (database : Database) (condition : UsageBucket → Bool) :
    (database.deleteUsage condition).writtenRequests = database.writtenRequests := by
  have less := database.usageBuckets.total_delete_le condition UsageBucket.requestCount
  show _ + (database.removedRequests + (_ - _)) = _ + database.removedRequests
  show (database.usageBuckets.delete condition).total UsageBucket.requestCount + _ = _
  omega

theorem writtenEvents_deleteEvents (database : Database) (condition : EventRow → Bool) :
    (database.deleteEvents condition).writtenEvents = database.writtenEvents := by
  have less := database.operationalEvents.size_delete_le condition
  show _ + (database.removedEvents + (_ - _)) = _ + database.removedEvents
  show (database.operationalEvents.delete condition).size + _ = _
  omega

/-- What is counted in a transaction: what is written, and what is dropped. -/
structure Counts where
  requests : Nat
  events : Nat
  droppedUsage : Nat
  droppedEvents : Nat

/-- The counts of a transaction, the counters of the recorder included. -/
def Transaction.counts (transaction : Transaction SafeMetadata) : Counts where
  requests := transaction.database.writtenRequests
  events := transaction.database.writtenEvents
  droppedUsage := transaction.droppedUsage + transaction.database.droppedUsageUpdates
  droppedEvents := transaction.droppedEvents + transaction.database.droppedOperationalEvents

/-- The counts after some members of the queue have been written. -/
def Counts.add (counts : Counts) (items : List (Pending SafeMetadata)) : Counts :=
  { counts with
    requests := counts.requests + pendingRequests items
    events := counts.events + pendingEvents items }

theorem statement_eq_ok (returned : statement transaction = .ok ⟨⟩ next) :
    next = { transaction with failsAfter := next.failsAfter } := by
  unfold statement at returned
  split at returned
  case h_1 =>
    cases returned
    rfl
  case h_2 => cases returned
  case h_3 =>
    cases returned
    rfl

theorem statement_eq_error {error : SqliteError}
    (thrown : statement transaction = .error error next) : next = transaction := by
  unfold statement at thrown
  split at thrown
  case h_1 => cases thrown
  case h_2 =>
    cases thrown
    rfl
  case h_3 => cases thrown

theorem execute_eq_ok (returned : execute change transaction = .ok ⟨⟩ next) :
    next =
      { transaction with
        database := change transaction.database
        failsAfter := next.failsAfter } := by
  rw [execute] at returned
  obtain ⟨_, middle, ran, modified⟩ := attempt_bind_eq_ok.mp returned
  rw [statement_eq_ok ran] at modified
  cases modified
  rfl

/-- A statement that fails changes nothing. -/
theorem keeps_statement (keeps : ∀ transaction failsAfter, invariant transaction →
      invariant { transaction with failsAfter }) : Keeps invariant statement fun _ => True := by
  intro transaction kept
  cases ran : statement transaction with
  | ok value next =>
    rw [statement_eq_ok ran]
    exact ⟨trivial, keeps _ _ kept⟩
  | error error next =>
    rw [statement_eq_error ran]
    exact kept

theorem keeps_execute (keeps : ∀ transaction failsAfter, invariant transaction →
      invariant { transaction with failsAfter }) (changes : ∀ transaction, invariant transaction →
      invariant { transaction with database := change transaction.database }) :
    Keeps invariant (execute change) fun _ => True :=
  (keeps_statement keeps).bind fun _ _ => Keeps.modify changes

theorem keeps_query {ask : Database → α} (keeps : ∀ transaction failsAfter, invariant transaction →
      invariant { transaction with failsAfter }) : Keeps invariant (query ask) fun _ => True := by
  have reads : Keeps invariant (get : InTransaction SafeMetadata (Transaction SafeMetadata))
      fun _ => True := Keeps.get fun _ _ => trivial
  exact (keeps_statement keeps).bind fun _ _ => reads.bind fun _ _ => Keeps.pure trivial

/-- The counts, and the counters of the recorder by themselves. -/
def CountsTo (counts : Counts) (droppedUsage droppedEvents : Nat)
    (transaction : Transaction SafeMetadata) : Prop :=
  transaction.counts = counts ∧ transaction.droppedUsage = droppedUsage ∧
    transaction.droppedEvents = droppedEvents

section Cleanup

variable {counts : Counts} {droppedUsage droppedEvents : Nat}

theorem keeps_deleteUsage (condition : Database → UsageBucket → Bool) :
    Keeps (@CountsTo SafeMetadata counts droppedUsage droppedEvents)
      (execute fun database => database.deleteUsage (condition database)) fun _ => True := by
  refine keeps_execute (fun _ _ kept => kept) fun transaction ⟨same, counters⟩ => ⟨?_, counters⟩
  rw [← same, Transaction.counts, Transaction.counts, writtenRequests_deleteUsage]
  rfl

theorem keeps_deleteEvents (condition : Database → EventRow → Bool) :
    Keeps (@CountsTo SafeMetadata counts droppedUsage droppedEvents)
      (execute fun database => database.deleteEvents (condition database)) fun _ => True := by
  refine keeps_execute (fun _ _ kept => kept) fun transaction ⟨same, counters⟩ => ⟨?_, counters⟩
  rw [← same, Transaction.counts, Transaction.counts, writtenEvents_deleteEvents]
  rfl

/-- The cleanup moves nothing that is counted, and leaves the counters of the recorder. -/
theorem keeps_cleanup (limits : RecorderLimits) (usageRetentionMs eventRetentionMs now : Int) :
    Keeps (@CountsTo SafeMetadata counts droppedUsage droppedEvents)
      (cleanup limits usageRetentionMs eventRetentionMs now) fun _ => True := by
  have capsUsage : Keeps (@CountsTo SafeMetadata counts droppedUsage droppedEvents)
      (capUsage limits.usageRowCap) fun _ => True :=
    (keeps_query fun _ _ kept => kept).bind fun _ _ =>
      Keeps.ite (fun _ => keeps_deleteUsage _) fun _ => Keeps.pure trivial
  have capsEvents : Keeps (@CountsTo SafeMetadata counts droppedUsage droppedEvents)
      (capEvents limits.eventRowCap) fun _ => True :=
    (keeps_query fun _ _ kept => kept).bind fun _ _ =>
      Keeps.ite (fun _ => keeps_deleteEvents _) fun _ => Keeps.pure trivial
  exact (keeps_deleteUsage _).bind fun _ _ => capsUsage.bind fun _ _ =>
    (keeps_deleteEvents _).bind fun _ _ => capsEvents

end Cleanup

/-! ## A flush -/

theorem Counts.add_cons (counts : Counts) (item : Pending SafeMetadata)
    (items : List (Pending SafeMetadata)) :
    (counts.add [item]).add items = counts.add (item :: items) := by
  simp only [Counts.add, pendingRequests, pendingEvents, List.map_cons, List.map_nil, List.sum_cons,
    List.sum_nil, Nat.add_zero, Nat.add_assoc]

theorem write_eq_ok {item : Pending SafeMetadata}
    (returned : write observing item transaction = .ok ⟨⟩ next) :
    CountsTo (transaction.counts.add [item]) transaction.droppedUsage transaction.droppedEvents
      next := by
  cases item with
  | usage seq key update latencySumMs latencyMaxMs =>
    rw [write] at returned
    rw [execute_eq_ok returned]
    have others := upsertUsage_others transaction.database
      (Database.bucketOf update latencySumMs latencyMaxMs)
    refine ⟨?_, rfl, rfl⟩
    simp only [Transaction.counts, Counts.add, writtenRequests_upsertUsage, others]
    rfl
  | event seq occurredAtMs severity json kind observerKind observerMetadata =>
    rw [write, Transaction.insertEvent] at returned
    obtain ⟨_, middle, ran, modified⟩ := attempt_bind_eq_ok.mp returned
    rw [statement_eq_ok ran] at modified
    cases modified
    refine ⟨?_, rfl, rfl⟩
    simp only [Transaction.counts, Counts.add, writtenEvents_insertEvent]
    rfl

/-- A batch that is written adds what is in it to what is written. -/
theorem writeAll_eq_ok (items : List (Pending SafeMetadata)) :
    ∀ {transaction next : Transaction SafeMetadata},
      writeAll observing items transaction = .ok ⟨⟩ next →
      CountsTo (transaction.counts.add items) transaction.droppedUsage transaction.droppedEvents
        next := by
  induction items with
  | nil =>
    intro transaction next returned
    cases returned
    exact ⟨rfl, rfl, rfl⟩
  | cons item items ih =>
    intro transaction next returned
    rw [writeAll] at returned
    obtain ⟨_, middle, first, rest⟩ := attempt_bind_eq_ok.mp returned
    obtain ⟨counts, usage, events⟩ := write_eq_ok first
    have after := ih rest
    rw [counts, usage, events, Counts.add_cons] at after
    exact after

/-- The statements of a batch are as many as its members, and none touches the counters of
the recorder. -/
theorem writeAll_of_failsAfter {observing : Bool} (items : List (Pending SafeMetadata)) :
    ∀ {transaction : Transaction SafeMetadata} {count : Nat},
      transaction.failsAfter = some count →
      (∃ next, next.droppedUsage = transaction.droppedUsage ∧
        next.droppedEvents = transaction.droppedEvents ∧
        (count < items.length ∧ writeAll observing items transaction = .error .failed next ∨
          items.length ≤ count ∧ writeAll observing items transaction = .ok ⟨⟩ next ∧
            next.failsAfter = some (count - items.length))) := by
  induction items with
  | nil =>
    intro transaction count fails
    exact ⟨transaction, rfl, rfl, .inr ⟨Nat.zero_le _, rfl, fails⟩⟩
  | cons item items ih =>
    intro transaction count fails
    cases count with
    | zero =>
      have failed : write observing item transaction = .error .failed transaction := by
        have stopped : statement transaction = .error .failed transaction := by
          rw [statement, fails]
        cases item with
        | usage seq key update latencySumMs latencyMaxMs => exact attempt_bind_of_error stopped
        | event seq occurredAtMs severity json kind observerKind observerMetadata =>
          exact attempt_bind_of_error stopped
      refine ⟨transaction, rfl, rfl, .inl ⟨Nat.succ_pos _, ?_⟩⟩
      rw [writeAll]
      exact attempt_bind_of_error failed
    | succ count =>
      have went : statement transaction = .ok ⟨⟩ { transaction with failsAfter := some count } := by
        rw [statement, fails]
      have written : ∃ middle, write observing item transaction = .ok ⟨⟩ middle ∧
          middle.droppedUsage = transaction.droppedUsage ∧
          middle.droppedEvents = transaction.droppedEvents ∧ middle.failsAfter = some count := by
        cases item with
        | usage seq key update latencySumMs latencyMaxMs =>
          exact ⟨_, attempt_bind_of_ok went, rfl, rfl, rfl⟩
        | event seq occurredAtMs severity json kind observerKind observerMetadata =>
          exact ⟨_, attempt_bind_of_ok went, rfl, rfl, rfl⟩
      obtain ⟨middle, first, usage, events, left⟩ := written
      obtain ⟨next, nextUsage, nextEvents, rest⟩ := @ih middle count left
      refine ⟨next, nextUsage.trans usage, nextEvents.trans events, ?_⟩
      rw [writeAll, attempt_bind_of_ok first, List.length_cons]
      rcases rest with ⟨early, failed⟩ | ⟨enough, returned, later⟩
      · exact .inl ⟨Nat.succ_lt_succ early, failed⟩
      · refine .inr ⟨Nat.succ_le_succ enough, returned, ?_⟩
        rw [later, Nat.add_sub_add_right]

/-- The move of the counters keeps what is dropped, below the maximum. -/
theorem persistDrops_eq_ok {now : Int}
    (usageFits : transaction.counts.droppedUsage ≤ maxSafeInteger)
    (eventsFit : transaction.counts.droppedEvents ≤ maxSafeInteger)
    (returned : persistDrops now transaction = .ok ⟨⟩ next) :
    CountsTo transaction.counts 0 0 next := by
  have returned : (if transaction.droppedUsage = 0 ∧ transaction.droppedEvents = 0 then pure ⟨⟩
      else moveDrops now transaction.droppedUsage transaction.droppedEvents) transaction =
      .ok ⟨⟩ next := returned
  split at returned
  case isTrue none =>
    cases returned
    exact ⟨rfl, none⟩
  case isFalse =>
    rw [moveDrops] at returned
    obtain ⟨_, middle, ran, modified⟩ := attempt_bind_eq_ok.mp returned
    rw [execute_eq_ok ran] at modified
    cases modified
    have usageFits : transaction.droppedUsage + transaction.database.droppedUsageUpdates ≤
        maxSafeInteger := usageFits
    have eventsFit : transaction.droppedEvents + transaction.database.droppedOperationalEvents ≤
        maxSafeInteger := eventsFit
    refine ⟨?_, rfl, rfl⟩
    simp only [Transaction.counts, Database.persistDrops, Nat.zero_add]
    rw [Nat.min_eq_left (by omega), Nat.min_eq_left (by omega), Nat.add_comm,
      Nat.add_comm transaction.database.droppedOperationalEvents]
    rfl

/-- Where the statement of the counters fails they are kept; after it they are zero. -/
theorem persistDrops_of_failsAfter {now : Int} {transaction : Transaction SafeMetadata}
    {count : Nat} (fails : transaction.failsAfter = some count) :
    (∃ next, persistDrops now transaction = .ok ⟨⟩ next ∧ next.droppedUsage = 0 ∧
        next.droppedEvents = 0 ∧ next.failsAfter ≠ none ∧
        (0 < count ∨ transaction.droppedUsage = 0 ∧ transaction.droppedEvents = 0)) ∨
      count = 0 ∧ persistDrops now transaction = .error .failed transaction := by
  have unfolded : persistDrops now transaction =
      (if transaction.droppedUsage = 0 ∧ transaction.droppedEvents = 0 then pure ⟨⟩
      else moveDrops now transaction.droppedUsage transaction.droppedEvents) transaction := rfl
  rw [unfolded]
  by_cases none : transaction.droppedUsage = 0 ∧ transaction.droppedEvents = 0
  · rw [if_pos none]
    exact .inl ⟨transaction, rfl, none.1, none.2, by rw [fails]; nofun, .inr none⟩
  · rw [if_neg none, moveDrops]
    cases count with
    | zero =>
      have stopped : statement transaction = .error .failed transaction := by rw [statement, fails]
      exact .inr ⟨rfl, attempt_bind_of_error (attempt_bind_of_error stopped)⟩
    | succ count =>
      have went : statement transaction = .ok ⟨⟩ { transaction with failsAfter := some count } := by
        rw [statement, fails]
      exact .inl ⟨_, attempt_bind_of_ok (attempt_bind_of_ok went), rfl, rfl, nofun,
        .inl (Nat.succ_pos _)⟩

theorem commit_eq_ok (returned : commit transaction = .ok ⟨⟩ next) :
    next = transaction ∧ transaction.failsAfter = none := by
  unfold commit at returned
  split at returned
  case h_1 none =>
    cases returned
    exact ⟨rfl, none⟩
  case h_2 => cases returned

/-- A transaction that is to fail does not come to its end. -/
theorem keeps_failing_cleanup (limits : RecorderLimits) (usage events now : Int) :
    Keeps (fun transaction : Transaction SafeMetadata => transaction.failsAfter ≠ none)
      (cleanup limits usage events now) fun _ => True := by
  have runs : Keeps (fun transaction : Transaction SafeMetadata => transaction.failsAfter ≠ none)
      statement fun _ => True := by
    intro transaction fails
    obtain ⟨count, isCount⟩ := Option.ne_none_iff_exists'.mp fails
    cases count with
    | zero =>
      have stopped : statement transaction = .error .failed transaction := by
        rw [statement, isCount]
      rw [stopped]
      exact fails
    | succ count =>
      have went : statement transaction = .ok ⟨⟩ { transaction with failsAfter := some count } := by
        rw [statement, isCount]
      rw [went]
      exact ⟨trivial, nofun⟩
  have writes : ∀ change : Database → Database,
      Keeps (fun transaction : Transaction SafeMetadata => transaction.failsAfter ≠ none)
        (execute change) fun _ => True := fun change =>
    runs.bind fun _ _ => Keeps.modify fun _ fails => fails
  have reads : ∀ ask : Database → Nat,
      Keeps (fun transaction : Transaction SafeMetadata => transaction.failsAfter ≠ none)
        (query ask) fun _ => True := by
    intro ask
    have gets : Keeps (fun transaction : Transaction SafeMetadata => transaction.failsAfter ≠ none)
        (get : InTransaction SafeMetadata (Transaction SafeMetadata)) fun _ => True :=
      Keeps.get fun _ _ => trivial
    exact runs.bind fun _ _ => gets.bind fun _ _ => Keeps.pure trivial
  have capsUsage : Keeps
      (fun transaction : Transaction SafeMetadata => transaction.failsAfter ≠ none)
      (capUsage limits.usageRowCap) fun _ => True :=
    (reads _).bind fun _ _ => Keeps.ite (fun _ => writes _) fun _ => Keeps.pure trivial
  have capsEvents : Keeps
      (fun transaction : Transaction SafeMetadata => transaction.failsAfter ≠ none)
      (capEvents limits.eventRowCap) fun _ => True :=
    (reads _).bind fun _ _ => Keeps.ite (fun _ => writes _) fun _ => Keeps.pure trivial
  exact (writes _).bind fun _ _ => capsUsage.bind fun _ _ => (writes _).bind fun _ _ => capsEvents

section Flush

variable {limits : RecorderLimits} {recorder : TelemetryRecorder SafeMetadata} {now : Int}
  {batch : List (Pending SafeMetadata)} {transaction done : Transaction SafeMetadata}

/-- A transaction that commits writes the batch and loses nothing. -/
theorem transaction_eq_ok (usageFits : transaction.counts.droppedUsage ≤ maxSafeInteger)
    (eventsFit : transaction.counts.droppedEvents ≤ maxSafeInteger)
    (returned : recorder.transaction limits now batch transaction = .ok ⟨⟩ done) :
    done.counts = transaction.counts.add batch := by
  rw [TelemetryRecorder.transaction] at returned
  obtain ⟨_, written, wrote, returned⟩ := attempt_bind_eq_ok.mp returned
  obtain ⟨_, moved, persisted, returned⟩ := attempt_bind_eq_ok.mp returned
  obtain ⟨_, cleaned, cleans, committed⟩ := attempt_bind_eq_ok.mp returned
  have counts := (writeAll_eq_ok batch wrote).1
  have drops := persistDrops_eq_ok (counts ▸ usageFits) (counts ▸ eventsFit) persisted
  have kept := (keeps_cleanup limits _ _ now).of_ok drops cleans
  rw [(commit_eq_ok committed).1, kept.2.1, counts]

/-- A transaction that fails keeps the counters of the recorder up to the statement that
moves them. -/
theorem transaction_of_failsAfter {count : Nat} (fails : transaction.failsAfter = some count) :
    ∃ done, recorder.transaction limits now batch transaction = .error .failed done ∧
      (done.droppedUsage = transaction.droppedUsage ∧
          done.droppedEvents = transaction.droppedEvents ↔
        count ≤ batch.length ∨ transaction.droppedUsage = 0 ∧ transaction.droppedEvents = 0) := by
  obtain ⟨written, usage, events, outcome⟩ :=
    @writeAll_of_failsAfter SafeMetadata recorder.observing batch transaction count fails
  rw [TelemetryRecorder.transaction]
  rcases outcome with ⟨early, failed⟩ | ⟨enough, wrote, left⟩
  · exact ⟨written, attempt_bind_of_error failed,
      iff_of_true ⟨usage, events⟩ (.inl (Nat.le_of_lt early))⟩
  rw [attempt_bind_of_ok wrote]
  rcases @persistDrops_of_failsAfter SafeMetadata now written _ left with
    ⟨moved, persisted, noUsage, noEvents, still, reason⟩ | ⟨exact_, failed⟩
  · rw [attempt_bind_of_ok persisted]
    -- the counters are zero from here on, whatever fails
    have zero := @keeps_cleanup SafeMetadata moved.counts 0 0 limits recorder.usageRetentionMs
      recorder.eventRetentionMs now moved ⟨rfl, noUsage, noEvents⟩
    have failing := @keeps_failing_cleanup SafeMetadata limits recorder.usageRetentionMs
      recorder.eventRetentionMs now moved still
    have lost : ∀ final : Transaction SafeMetadata, final.droppedUsage = 0 →
        final.droppedEvents = 0 →
        (final.droppedUsage = transaction.droppedUsage ∧
            final.droppedEvents = transaction.droppedEvents ↔
          count ≤ batch.length ∨ transaction.droppedUsage = 0 ∧ transaction.droppedEvents = 0) := by
      intro final isZero areZero
      rw [isZero, areZero]
      constructor
      · rintro ⟨noneUsage, noneEvents⟩
        exact .inr ⟨noneUsage.symm, noneEvents.symm⟩
      · rintro (early | ⟨noneUsage, noneEvents⟩)
        · rcases reason with later | ⟨noneUsage, noneEvents⟩
          · omega
          · exact ⟨(usage ▸ noneUsage).symm, (events ▸ noneEvents).symm⟩
        · exact ⟨noneUsage.symm, noneEvents.symm⟩
    cases cleans : cleanup limits recorder.usageRetentionMs recorder.eventRetentionMs now moved with
    | error error failed =>
      rw [cleans] at zero
      cases error
      exact ⟨failed, attempt_bind_of_error cleans, lost failed zero.2.1 zero.2.2⟩
    | ok _ cleaned =>
      rw [cleans] at zero failing
      have refused : commit cleaned = .error .failed cleaned := by
        unfold commit
        split
        case h_1 none => exact absurd none failing.2
        case h_2 => rfl
      refine ⟨cleaned, ?_, lost cleaned zero.2.2.1 zero.2.2.2⟩
      rw [attempt_bind_of_ok cleans, refused]
  · refine ⟨written, attempt_bind_of_error failed, iff_of_true ⟨usage, events⟩ (.inl ?_)⟩
    omega

end Flush

section Commit

/-- A statement of a transaction that is not to fail. -/
theorem returns_statement : Returns
    (fun transaction : Transaction SafeMetadata => transaction.failsAfter = none) statement := by
  intro transaction none
  refine ⟨⟨⟩, transaction, ?_, none⟩
  rw [statement, none]

theorem returns_execute (change : Database → Database) : Returns
    (fun transaction : Transaction SafeMetadata => transaction.failsAfter = none)
    (execute change) :=
  returns_statement.bind fun _ => Returns.modify fun _ none => none

theorem returns_query (ask : Database → Nat) : Returns
    (fun transaction : Transaction SafeMetadata => transaction.failsAfter = none) (query ask) :=
  returns_statement.bind fun _ => Returns.get.bind fun _ => Returns.pure

theorem returns_writeAll (observing : Bool) (items : List (Pending SafeMetadata)) : Returns
    (fun transaction : Transaction SafeMetadata => transaction.failsAfter = none)
    (writeAll observing items) := by
  induction items with
  | nil => exact Returns.pure
  | cons item items ih =>
    refine Returns.bind ?_ fun _ => ih
    cases item with
    | usage seq key update latencySumMs latencyMaxMs =>
      rw [write]
      exact returns_execute _
    | event seq occurredAtMs severity json kind observerKind observerMetadata =>
      exact returns_statement.bind fun _ => Returns.modify fun _ none => none

/-- A transaction that is not to fail commits. -/
theorem returns_transaction (limits : RecorderLimits) (recorder : TelemetryRecorder SafeMetadata)
    (now : Int) (batch : List (Pending SafeMetadata)) : Returns
    (fun transaction : Transaction SafeMetadata => transaction.failsAfter = none)
    (recorder.transaction limits now batch) := by
  have drops : Returns
      (fun transaction : Transaction SafeMetadata => transaction.failsAfter = none)
      (persistDrops now) :=
    Returns.get.bind fun _ => Returns.ite Returns.pure <|
      (returns_execute _).bind fun _ => Returns.modify fun _ none => none
  have cleans : Returns
      (fun transaction : Transaction SafeMetadata => transaction.failsAfter = none)
      (cleanup limits recorder.usageRetentionMs recorder.eventRetentionMs now) :=
    (returns_execute _).bind fun _ =>
      ((returns_query _).bind fun _ => Returns.ite (returns_execute _) Returns.pure).bind fun _ =>
      (returns_execute _).bind fun _ =>
      (returns_query _).bind fun _ => Returns.ite (returns_execute _) Returns.pure
  refine (returns_writeAll _ _).bind fun _ => drops.bind fun _ => cleans.bind fun _ => ?_
  intro transaction none
  refine ⟨⟨⟩, transaction, ?_, none⟩
  rw [commit, none]

end Commit

/-! ## The queue -/

/-- The first member that satisfies a condition is taken out. -/
theorem sum_eraseIdx_findIdx {condition : α → Bool} {taken : α} (weight : α → Nat) (items : List α)
    (found : items.find? condition = some taken) :
    ((items.eraseIdx (items.findIdx condition)).map weight).sum + weight taken =
      (items.map weight).sum := by
  induction items with
  | nil => cases found
  | cons item items ih =>
    rw [List.find?_cons] at found
    rw [List.findIdx_cons]
    cases holds : condition item with
    | true =>
      rw [holds] at found
      cases found
      simp [Nat.add_comm]
    | false =>
      rw [holds] at found
      have rest := ih found
      simp only [cond_false, List.eraseIdx_cons_succ, List.map_cons, List.sum_cons]
      omega

/-- The first member that satisfies a condition is changed. -/
theorem sum_modify_findIdx {condition : α → Bool} {change : α → α} (weight : α → Nat)
    (items : List α) (added : Nat)
    (adds : ∀ item, condition item = true → weight (change item) = weight item + added)
    (found : items.any condition = true) :
    ((items.modify (items.findIdx condition) change).map weight).sum =
      (items.map weight).sum + added := by
  induction items with
  | nil => cases found
  | cons item items ih =>
    rw [List.any_cons] at found
    rw [List.findIdx_cons]
    cases holds : condition item with
    | true =>
      simp only [cond_true, List.modify_zero_cons, List.map_cons, List.sum_cons, adds item holds]
      omega
    | false =>
      rw [holds, Bool.false_or] at found
      simp only [cond_false, List.modify_succ_cons, List.map_cons, List.sum_cons, ih found]
      omega

theorem pendingRequests_append (items more : List (Pending SafeMetadata)) :
    pendingRequests (items ++ more) = pendingRequests items + pendingRequests more := by
  rw [pendingRequests, List.map_append, List.sum_append]
  rfl

theorem pendingEvents_append (items more : List (Pending SafeMetadata)) :
    pendingEvents (items ++ more) = pendingEvents items + pendingEvents more := by
  rw [pendingEvents, List.map_append, List.sum_append]
  rfl

section Queue

variable (limits : RecorderLimits) (recorder : TelemetryRecorder SafeMetadata)

theorem pending_pushUsage (update : UsageUpdate) :
    pendingRequests (recorder.pushUsage update).pending =
        pendingRequests recorder.pending + update.requestCount ∧
      pendingEvents (recorder.pushUsage update).pending = pendingEvents recorder.pending :=
  ⟨pendingRequests_append _ _, pendingEvents_append _ _⟩

/-- An update is merged, added, or counted as dropped; what makes room for it is counted. -/
theorem counts_recordUsage (update : UsageUpdate)
    (fits : recorder.droppedUsage + pendingRequests recorder.pending + update.requestCount ≤
      maxSafeInteger) :
    (recorder.recordUsage limits update).droppedUsage +
          pendingRequests (recorder.recordUsage limits update).pending =
        recorder.droppedUsage + pendingRequests recorder.pending + update.requestCount ∧
      (recorder.recordUsage limits update).droppedEvents = recorder.droppedEvents ∧
      pendingEvents (recorder.recordUsage limits update).pending =
        pendingEvents recorder.pending := by
  unfold TelemetryRecorder.recordUsage
  split
  case isTrue found =>
    have merged : ∀ item : Pending SafeMetadata, Pending.hasKey (usageKey update) item = true →
        (Pending.merge update item).requestCount = item.requestCount + update.requestCount := by
      intro item isUsage
      cases item with
      | usage seq key existing latencySumMs latencyMaxMs => rfl
      | event => cases isUsage
    have kept : ∀ item : Pending SafeMetadata, Pending.hasKey (usageKey update) item = true →
        (Pending.merge update item).eventCount = item.eventCount + 0 := by
      intro item isUsage
      cases item with
      | usage seq key existing latencySumMs latencyMaxMs => rfl
      | event => cases isUsage
    have requests := sum_modify_findIdx Pending.requestCount _ _ merged found
    have events := sum_modify_findIdx Pending.eventCount _ _ kept found
    exact ⟨by rw [pendingRequests, requests, ← Nat.add_assoc]; rfl, rfl, events⟩
  case isFalse =>
    split
    · obtain ⟨requests, events⟩ := pending_pushUsage recorder update
      exact ⟨by rw [requests, ← Nat.add_assoc]; rfl, rfl, events⟩
    · split
      case h_1 =>
        refine ⟨?_, rfl, rfl⟩
        show saturate (recorder.droppedUsage + update.requestCount) + _ = _
        rw [saturate, Nat.min_eq_left (by omega), Nat.add_right_comm]
      case h_2 evicted found =>
        have requests := sum_eraseIdx_findIdx Pending.requestCount _ found
        have events := sum_eraseIdx_findIdx Pending.eventCount _ found
        have isUsage : evicted.eventCount = 0 := by
          have usage := List.find?_some found
          rw [Pending.eventCount, Pending.isEvent, usage]
          rfl
        have requests : pendingRequests (recorder.pending.eraseIdx _) + evicted.requestCount =
          pendingRequests recorder.pending := requests
        refine ⟨?_, rfl, ?_⟩
        · rw [(pending_pushUsage _ update).1]
          show saturate (recorder.droppedUsage + evicted.requestCount) +
            (pendingRequests (recorder.pending.eraseIdx (recorder.pending.findIdx Pending.isUsage))
              +
              update.requestCount) = _
          rw [saturate, Nat.min_eq_left (by omega)]
          omega
        · rw [(pending_pushUsage _ update).2]
          rw [isUsage, Nat.add_zero] at events
          exact events

theorem pendingEvent_counts (sanitizer : Sanitizer Metadata SafeMetadata) (seq : Nat)
    (input : OperationalEventInput Metadata) :
    (pendingEvent sanitizer seq input).eventCount = 1 ∧
      (pendingEvent sanitizer seq input).requestCount = 0 := by
  unfold pendingEvent
  split
  · exact ⟨rfl, rfl⟩
  · exact ⟨rfl, rfl⟩

theorem pending_pushEvent (sanitizer : Sanitizer Metadata SafeMetadata)
    (input : OperationalEventInput Metadata) :
    pendingEvents (recorder.pushEvent sanitizer input).pending =
        pendingEvents recorder.pending + 1 ∧
      pendingRequests (recorder.pushEvent sanitizer input).pending =
        pendingRequests recorder.pending := by
  obtain ⟨one, none⟩ := pendingEvent_counts sanitizer (recorder.seq + 1) input
  constructor
  · refine (pendingEvents_append _ _).trans ?_
    rw [pendingEvents, pendingEvents, List.map_singleton, List.sum_singleton, one]
  · refine (pendingRequests_append _ _).trans ?_
    rw [pendingRequests, pendingRequests, List.map_singleton, List.sum_singleton, none,
      Nat.add_zero]

/-- An event is added or counted as dropped; what makes room for it is counted. -/
theorem counts_recordEvent (sanitizer : Sanitizer Metadata SafeMetadata)
    (input : OperationalEventInput Metadata) (fits : recorder.droppedEvents + 1 ≤ maxSafeInteger) :
    (recorder.recordEvent sanitizer limits input).droppedEvents +
          pendingEvents (recorder.recordEvent sanitizer limits input).pending =
        recorder.droppedEvents + pendingEvents recorder.pending + 1 ∧
      (recorder.recordEvent sanitizer limits input).droppedUsage = recorder.droppedUsage ∧
      pendingRequests (recorder.recordEvent sanitizer limits input).pending =
        pendingRequests recorder.pending := by
  unfold TelemetryRecorder.recordEvent
  split
  · obtain ⟨events, requests⟩ := pending_pushEvent recorder sanitizer input
    exact ⟨by rw [events, ← Nat.add_assoc]; rfl, rfl, requests⟩
  · split
    case isTrue found =>
      obtain ⟨evicted, isFirst⟩ := List.find?_isSome.mpr (List.any_eq_true.mp found) |>
        Option.isSome_iff_exists.mp
      have events := sum_eraseIdx_findIdx Pending.eventCount _ isFirst
      have requests := sum_eraseIdx_findIdx Pending.requestCount _ isFirst
      have isEvent := List.find?_some isFirst
      have one : evicted.eventCount = 1 := by rw [Pending.eventCount, isEvent]; rfl
      have none : evicted.requestCount = 0 := by
        cases evicted with
        | usage => cases isEvent
        | event => rfl
      rw [one] at events
      rw [none, Nat.add_zero] at requests
      have events : pendingEvents (recorder.pending.eraseIdx _) + 1 =
        pendingEvents recorder.pending := events
      refine ⟨?_, rfl, ?_⟩
      · rw [(pending_pushEvent _ sanitizer input).1]
        show saturate (recorder.droppedEvents + 1) +
          (pendingEvents (recorder.pending.eraseIdx (recorder.pending.findIdx Pending.isEvent)) +
            1) = _
        rw [saturate, Nat.min_eq_left fits]
        omega
      · rw [(pending_pushEvent _ sanitizer input).2]
        exact requests
    case isFalse =>
      refine ⟨?_, rfl, rfl⟩
      show saturate (recorder.droppedEvents + 1) + pendingEvents recorder.pending = _
      rw [saturate, Nat.min_eq_left fits]
      omega

end Queue

/-! ## Runs -/

/-- A recorder with its database, and what has been recorded with it. -/
structure Recording (SafeMetadata : Type) where
  recorder : TelemetryRecorder SafeMetadata
  database : Database
  recordedRequests : Nat
  recordedEvents : Nat

inductive Action (Metadata : Type)
  | recordUsage (update : UsageUpdate)
  | recordEvent (input : OperationalEventInput Metadata)
  | flush (aborted : Bool) (maxMutations : Option Nat) (now : Int) (failsAfter : Option Nat)
  | setObserver (isSet : Bool)
  | setRetentionDays (usageRetentionDays eventRetentionDays : Int)

def Recording.after (sanitizer : Sanitizer Metadata SafeMetadata) (limits : RecorderLimits)
    (recording : Recording SafeMetadata) : Action Metadata → Recording SafeMetadata
  | .recordUsage update =>
    { recording with
      recorder := recording.recorder.recordUsage limits update
      recordedRequests := recording.recordedRequests + update.requestCount }
  | .recordEvent input =>
    { recording with
      recorder := recording.recorder.recordEvent sanitizer limits input
      recordedEvents := recording.recordedEvents + 1 }
  | .flush aborted maxMutations now failsAfter =>
    let flushed :=
      recording.recorder.flush limits recording.database aborted maxMutations now failsAfter
    { recording with recorder := flushed.recorder, database := flushed.database }
  | .setObserver isSet =>
    { recording with recorder := { recording.recorder with observing := isSet } }
  | .setRetentionDays usageRetentionDays eventRetentionDays =>
    { recording with
      recorder :=
        { recording.recorder with
          usageRetentionMs := usageRetentionDays * 24 * 60 * 60 * 1000
          eventRetentionMs := eventRetentionDays * 24 * 60 * 60 * 1000 } }

/-- The calls on a recorder, one after the other. -/
def recordings (sanitizer : Sanitizer Metadata SafeMetadata) (limits : RecorderLimits) :
    Concurrent (Recording SafeMetadata) (Action Metadata) :=
  ⟨fun recording action => some (recording.after sanitizer limits action)⟩

/-- A flush that fails does so before it has moved the counters, or they are zero. -/
def KeepsCounters (recorder : TelemetryRecorder SafeMetadata) (maxMutations : Option Nat)
    (count : Nat) : Prop :=
  count ≤ (recorder.pending.take (recorder.batchSize maxMutations)).length ∨
    recorder.droppedUsage = 0 ∧ recorder.droppedEvents = 0

def Action.KeepsCounters (recording : Recording SafeMetadata) : Action Metadata → Prop
  | .flush false maxMutations _ (some count) =>
    Telemetry.KeepsCounters recording.recorder maxMutations count
  | _ => True

/-- What was recorded since `start` is written, pending or counted as dropped. -/
structure Balanced (start : Database) (recording : Recording SafeMetadata) : Prop where
  requests : recording.recordedRequests + (start.writtenRequests + start.droppedUsageUpdates) =
    recording.database.writtenRequests + pendingRequests recording.recorder.pending +
      (recording.recorder.droppedUsage + recording.database.droppedUsageUpdates)
  events : recording.recordedEvents + (start.writtenEvents + start.droppedOperationalEvents) =
    recording.database.writtenEvents + pendingEvents recording.recorder.pending +
      (recording.recorder.droppedEvents + recording.database.droppedOperationalEvents)
  requestsGrow : start.writtenRequests ≤ recording.database.writtenRequests
  eventsGrow : start.writtenEvents ≤ recording.database.writtenEvents

/-- Neither counter has come to the maximum, whatever is dropped. -/
def Unsaturated (start : Database) (recording : Recording SafeMetadata) : Prop :=
  recording.recordedRequests + start.droppedUsageUpdates ≤ maxSafeInteger ∧
    recording.recordedEvents + start.droppedOperationalEvents ≤ maxSafeInteger

instance (start : Database) (recording : Recording SafeMetadata) :
    Decidable (Unsaturated start recording) := by
  unfold Unsaturated
  infer_instance

section Run

variable {limits : RecorderLimits} {start : Database} {recording : Recording SafeMetadata}
  {sanitizer : Sanitizer Metadata SafeMetadata} {action : Action Metadata}

/-- A failing flush throws, keeps the queue and the database, and keeps the counters of the
recorder exactly where `KeepsCounters` says so. -/
theorem flush_of_failsAfter (recorder : TelemetryRecorder SafeMetadata) (database : Database)
    (maxMutations : Option Nat) (now : Int) (count : Nat) :
    (recorder.flush limits database false maxMutations now (some count)).thrown = true ∧
      (recorder.flush limits database false maxMutations now (some count)).recorder.pending =
        recorder.pending ∧
      (recorder.flush limits database false maxMutations now (some count)).database = database ∧
      ((recorder.flush limits database false maxMutations now (some count)).recorder.droppedUsage =
            recorder.droppedUsage ∧
          (recorder.flush limits database false maxMutations now
            (some count)).recorder.droppedEvents =
            recorder.droppedEvents ↔
        KeepsCounters recorder maxMutations count) := by
  obtain ⟨done, failed, counters⟩ := @transaction_of_failsAfter SafeMetadata limits recorder now
    (recorder.pending.take (recorder.batchSize maxMutations))
    ⟨database, recorder.droppedUsage, recorder.droppedEvents, [], some count⟩ count rfl
  unfold TelemetryRecorder.flush
  rw [if_neg Bool.false_ne_true]
  dsimp only
  rw [failed]
  exact ⟨rfl, List.take_append_drop _ _, rfl, counters⟩

/-- A flush that commits moves its batch from the queue to the database. -/
theorem flush_of_commit {recorder : TelemetryRecorder SafeMetadata} {database : Database}
    (usageFits : recorder.droppedUsage + database.droppedUsageUpdates ≤ maxSafeInteger)
    (eventsFit : recorder.droppedEvents + database.droppedOperationalEvents ≤ maxSafeInteger)
    (maxMutations : Option Nat) (now : Int) :
    let flushed := recorder.flush limits database false maxMutations now none
    flushed.database.writtenRequests + pendingRequests flushed.recorder.pending =
        database.writtenRequests + pendingRequests recorder.pending ∧
      flushed.database.writtenEvents + pendingEvents flushed.recorder.pending =
        database.writtenEvents + pendingEvents recorder.pending ∧
      database.writtenRequests ≤ flushed.database.writtenRequests ∧
      database.writtenEvents ≤ flushed.database.writtenEvents ∧
      flushed.recorder.droppedUsage + flushed.database.droppedUsageUpdates =
        recorder.droppedUsage + database.droppedUsageUpdates ∧
      flushed.recorder.droppedEvents + flushed.database.droppedOperationalEvents =
        recorder.droppedEvents + database.droppedOperationalEvents := by
  obtain ⟨_, done, returned, -⟩ := returns_transaction limits recorder now
    (recorder.pending.take (recorder.batchSize maxMutations))
    ⟨database, recorder.droppedUsage, recorder.droppedEvents, [], none⟩ rfl
  have counts := @transaction_eq_ok SafeMetadata limits recorder now
    (recorder.pending.take (recorder.batchSize maxMutations))
    ⟨database, recorder.droppedUsage, recorder.droppedEvents, [], none⟩ done usageFits eventsFit
    returned
  have isSplit := List.take_append_drop (recorder.batchSize maxMutations) recorder.pending
  have requests := pendingRequests_append (recorder.pending.take (recorder.batchSize maxMutations))
    (recorder.pending.drop (recorder.batchSize maxMutations))
  have events := pendingEvents_append (recorder.pending.take (recorder.batchSize maxMutations))
    (recorder.pending.drop (recorder.batchSize maxMutations))
  rw [isSplit] at requests events
  obtain ⟨written, inserted, usage, dropped⟩ := Counts.mk.inj counts
  have unfolded : recorder.flush limits database false maxMutations now none =
      { recorder :=
          { recorder with
            pending := recorder.pending.drop (recorder.batchSize maxMutations)
            droppedUsage := done.droppedUsage
            droppedEvents := done.droppedEvents }
        database := done.database
        observed := done.recordedEvents
        thrown := false } := by
    unfold TelemetryRecorder.flush
    rw [if_neg Bool.false_ne_true]
    dsimp only
    rw [returned]
  rw [unfolded]
  have written : done.database.writtenRequests = database.writtenRequests +
    pendingRequests (recorder.pending.take (recorder.batchSize maxMutations)) := written
  have inserted : done.database.writtenEvents = database.writtenEvents +
    pendingEvents (recorder.pending.take (recorder.batchSize maxMutations)) := inserted
  refine ⟨?_, ?_, ?_, ?_, usage, dropped⟩
  · show done.database.writtenRequests + pendingRequests (recorder.pending.drop _) = _
    omega
  · show done.database.writtenEvents + pendingEvents (recorder.pending.drop _) = _
    omega
  · exact written ▸ Nat.le_add_right _ _
  · exact inserted ▸ Nat.le_add_right _ _

/-- One call keeps the balance. -/
theorem Balanced.step (balanced : Balanced start recording) (keeps : action.KeepsCounters recording)
    (below : Unsaturated start (recording.after sanitizer limits action)) :
    Balanced start (recording.after sanitizer limits action) := by
  obtain ⟨requests, events, requestsGrow, eventsGrow⟩ := balanced
  obtain ⟨requestsBelow, eventsBelow⟩ := below
  cases action with
  | recordUsage update =>
    have requestsBelow : recording.recordedRequests + update.requestCount +
      start.droppedUsageUpdates ≤ maxSafeInteger := requestsBelow
    obtain ⟨usage, droppedEvents, pendingSame⟩ :=
      counts_recordUsage limits recording.recorder update (by omega)
    refine ⟨?_, ?_, requestsGrow, eventsGrow⟩
    · show recording.recordedRequests + update.requestCount +
          (start.writtenRequests + start.droppedUsageUpdates) = recording.database.writtenRequests +
        pendingRequests (recording.recorder.recordUsage limits update).pending +
        ((recording.recorder.recordUsage limits update).droppedUsage +
          recording.database.droppedUsageUpdates)
      omega
    · show _ = recording.database.writtenEvents +
        pendingEvents (recording.recorder.recordUsage limits update).pending +
        ((recording.recorder.recordUsage limits update).droppedEvents + _)
      rw [pendingSame, droppedEvents]
      exact events
  | recordEvent input =>
    have eventsBelow : recording.recordedEvents + 1 + start.droppedOperationalEvents ≤
      maxSafeInteger := eventsBelow
    obtain ⟨dropped, usage, pendingSame⟩ :=
      counts_recordEvent limits recording.recorder sanitizer input (by omega)
    refine ⟨?_, ?_, requestsGrow, eventsGrow⟩
    · show _ = recording.database.writtenRequests +
        pendingRequests (recording.recorder.recordEvent sanitizer limits input).pending +
        ((recording.recorder.recordEvent sanitizer limits input).droppedUsage + _)
      rw [pendingSame, usage]
      exact requests
    · show recording.recordedEvents + 1 +
          (start.writtenEvents + start.droppedOperationalEvents) =
            recording.database.writtenEvents +
        pendingEvents (recording.recorder.recordEvent sanitizer limits input).pending +
        ((recording.recorder.recordEvent sanitizer limits input).droppedEvents +
          recording.database.droppedOperationalEvents)
      omega
  | flush aborted maxMutations now failsAfter =>
    have requestsBelow : recording.recordedRequests + start.droppedUsageUpdates ≤
      maxSafeInteger := requestsBelow
    have eventsBelow : recording.recordedEvents + start.droppedOperationalEvents ≤
      maxSafeInteger := eventsBelow
    cases aborted with
    | true => exact ⟨requests, events, requestsGrow, eventsGrow⟩
    | false =>
      cases failsAfter with
      | some count =>
        obtain ⟨-, pending, database, counters⟩ :=
          @flush_of_failsAfter SafeMetadata limits recording.recorder recording.database
            maxMutations now count
        obtain ⟨usage, dropped⟩ := counters.mpr keeps
        refine ⟨?_, ?_, ?_, ?_⟩
        · show _ = Database.writtenRequests (Flushed.database _) +
            pendingRequests (Flushed.recorder _).pending +
            ((Flushed.recorder _).droppedUsage + (Flushed.database _).droppedUsageUpdates)
          rw [pending, database, usage]
          exact requests
        · show _ = Database.writtenEvents (Flushed.database _) +
            pendingEvents (Flushed.recorder _).pending +
            ((Flushed.recorder _).droppedEvents + (Flushed.database _).droppedOperationalEvents)
          rw [pending, database, dropped]
          exact events
        · show _ ≤ Database.writtenRequests (Flushed.database _)
          rw [database]
          exact requestsGrow
        · show _ ≤ Database.writtenEvents (Flushed.database _)
          rw [database]
          exact eventsGrow
      | none =>
        obtain ⟨written, inserted, writtenGrow, insertedGrow, usage, dropped⟩ :=
          @flush_of_commit SafeMetadata limits recording.recorder recording.database (by omega)
            (by omega) maxMutations now
        refine ⟨?_, ?_, requestsGrow.trans writtenGrow, eventsGrow.trans insertedGrow⟩
        · show _ = Database.writtenRequests (Flushed.database _) +
            pendingRequests (Flushed.recorder _).pending +
            ((Flushed.recorder _).droppedUsage + (Flushed.database _).droppedUsageUpdates)
          rw [written, usage]
          exact requests
        · show _ = Database.writtenEvents (Flushed.database _) +
            pendingEvents (Flushed.recorder _).pending +
            ((Flushed.recorder _).droppedEvents + (Flushed.database _).droppedOperationalEvents)
          rw [inserted, dropped]
          exact events
  | setObserver isSet => exact ⟨requests, events, requestsGrow, eventsGrow⟩
  | setRetentionDays usageRetentionDays eventRetentionDays =>
    exact ⟨requests, events, requestsGrow, eventsGrow⟩

/-- What has been recorded does not become less. -/
theorem Unsaturated.before (below : Unsaturated start (recording.after sanitizer limits action)) :
    Unsaturated start recording := by
  obtain ⟨requests, events⟩ := below
  cases action with
  | recordUsage update =>
    have requests : recording.recordedRequests + update.requestCount +
      start.droppedUsageUpdates ≤ maxSafeInteger := requests
    exact ⟨by omega, events⟩
  | recordEvent input =>
    have events : recording.recordedEvents + 1 + start.droppedOperationalEvents ≤
      maxSafeInteger := events
    exact ⟨requests, by omega⟩
  | flush => exact ⟨requests, events⟩
  | setObserver => exact ⟨requests, events⟩
  | setRetentionDays => exact ⟨requests, events⟩

theorem balanced_of_run {final : Recording SafeMetadata} {actions : List (Action Metadata)}
    (ran : (recordings sanitizer limits).run recording actions = some final)
    (keeps : (recordings sanitizer limits).Along (fun recording action =>
      action.KeepsCounters recording) recording actions) (balanced : Balanced start recording)
    (below : Unsaturated start final) : Balanced start final := by
  have kept := @Concurrent.invariant_of_along _ _ (recordings sanitizer limits)
    (fun recording action => action.KeepsCounters recording)
    (fun recording => Unsaturated start recording → Balanced start recording)
    (fun {state next action} keeps holds stepped below => by
      cases stepped
      exact (holds below.before).step keeps below)
    recording final actions keeps ran
  exact kept (fun _ => balanced) below

/-- A recorder that has been made on a database. -/
def Recording.created (recorder : TelemetryRecorder SafeMetadata) (database : Database) :
    Recording SafeMetadata :=
  { recorder := { recorder with pending := [], droppedUsage := 0, droppedEvents := 0 }
    database
    recordedRequests := 0
    recordedEvents := 0 }

/-- A flush that fails keeps the queue, and keeps the counters exactly where it fails before
the statement that moves them or they are zero. Where all failing flushes of a run do so,
what was recorded is what has been written since the start, what is pending, and what has
been counted as dropped. -/
theorem conserves_recorded (sanitizer : Sanitizer Metadata SafeMetadata) (limits : RecorderLimits) :
    (∀ (recorder : TelemetryRecorder SafeMetadata) (database : Database)
        (maxMutations : Option Nat) (now : Int) (count : Nat),
      let flushed := recorder.flush limits database false maxMutations now (some count)
      flushed.thrown = true ∧ flushed.recorder.pending = recorder.pending ∧
        flushed.database = database ∧
        (flushed.recorder.droppedUsage = recorder.droppedUsage ∧
            flushed.recorder.droppedEvents = recorder.droppedEvents ↔
          KeepsCounters recorder maxMutations count)) ∧
    ∀ (recorder : TelemetryRecorder SafeMetadata) (database : Database)
      (actions : List (Action Metadata)) (final : Recording SafeMetadata),
      (recordings sanitizer limits).run (.created recorder database) actions = some final →
      (recordings sanitizer limits).Along (fun recording action => action.KeepsCounters recording)
        (.created recorder database) actions →
      Unsaturated database final →
      final.recordedRequests + database.writtenRequests + database.droppedUsageUpdates =
          final.database.writtenRequests + pendingRequests final.recorder.pending +
            (final.recorder.droppedCounters final.database).1 ∧
        final.recordedEvents + database.writtenEvents + database.droppedOperationalEvents =
          final.database.writtenEvents + pendingEvents final.recorder.pending +
            (final.recorder.droppedCounters final.database).2 := by
  refine ⟨flush_of_failsAfter, fun recorder database actions final ran keeps below => ?_⟩
  have start : Balanced database (Recording.created recorder database) := by
    refine ⟨?_, ?_, Nat.le_refl _, Nat.le_refl _⟩
    · show 0 + (database.writtenRequests + database.droppedUsageUpdates) =
        database.writtenRequests + 0 + (0 + database.droppedUsageUpdates)
      omega
    · show 0 + (database.writtenEvents + database.droppedOperationalEvents) =
        database.writtenEvents + 0 + (0 + database.droppedOperationalEvents)
      omega
  obtain ⟨requests, events, requestsGrow, eventsGrow⟩ := balanced_of_run ran keeps start below
  obtain ⟨requestsBelow, eventsBelow⟩ := below
  constructor
  · show _ = _ + _ + saturate (final.recorder.droppedUsage + final.database.droppedUsageUpdates)
    rw [saturate, Nat.min_eq_left (by omega), ← requests, Nat.add_assoc]
  · show _ = _ + _ +
      saturate (final.recorder.droppedEvents + final.database.droppedOperationalEvents)
    rw [saturate, Nat.min_eq_left (by omega), ← events, Nat.add_assoc]

end Run

def emptyDatabase : Database where
  usageBuckets := .empty
  operationalEvents := .empty
  nextEventId := 1
  numbered := Table.numbered_empty _ _
  droppedUsageUpdates := 0
  droppedOperationalEvents := 0
  updatedAtMs := 0
  removedRequests := 0
  removedEvents := 0

def noMetadata : Sanitizer Unit Unit := ⟨fun _ => some [0x7B, 0x7D], fun _ _ => (), ()⟩

/-- A recorder whose queue has room for one member. -/
def narrowLimits : RecorderLimits := ⟨10, 10, 1⟩

def idleRecorder : TelemetryRecorder Unit := ⟨[], 0, 0, 0, false, 1000, 1000⟩

def startedEvent : OperationalEventInput Unit := ⟨0, .gatewayStarted, .info, ()⟩

/-- Two events, of which one is dropped; a flush fails, and the next one commits. -/
theorem conserves_recorded_two_events :
    ∃ final, (recordings noMetadata narrowLimits).run (.created idleRecorder emptyDatabase)
        [.recordEvent startedEvent, .recordEvent startedEvent, .flush false none 0 (some 1),
          .flush false none 0 none] = some final ∧
      final.recordedEvents + 0 + 0 = final.database.writtenEvents +
        pendingEvents final.recorder.pending +
          (final.recorder.droppedCounters final.database).2 :=
  ⟨_, rfl, ((conserves_recorded noMetadata narrowLimits).2 idleRecorder emptyDatabase
    [.recordEvent startedEvent, .recordEvent startedEvent, .flush false none 0 (some 1),
      .flush false none 0 none] _ rfl
    ⟨trivial, fun _ stepped => by
      cases stepped
      exact ⟨trivial, fun _ stepped => by
        cases stepped
        exact ⟨.inl (by decide), fun _ stepped => by
          cases stepped
          exact ⟨trivial, fun _ _ => trivial⟩⟩⟩⟩
    (by decide)).2⟩

/-- A flush that fails after it has moved the counters loses what had been dropped. -/
theorem not_conserves_recorded :
    ¬ ∀ (limits : RecorderLimits) (recorder : TelemetryRecorder Unit) (database : Database)
      (actions : List (Action Unit)) (final : Recording Unit),
      (recordings noMetadata limits).run (.created recorder database) actions = some final →
      Unsaturated database final →
      final.recordedEvents + database.writtenEvents + database.droppedOperationalEvents =
        final.database.writtenEvents + pendingEvents final.recorder.pending +
          (final.recorder.droppedCounters final.database).2 := by
  intro claim
  have balance := claim ⟨10, 10, 0⟩ idleRecorder emptyDatabase
    [.recordEvent startedEvent, .flush false none 0 (some 1)] _ rfl (by decide)
  exact absurd balance (by decide)

end GhcGateway.Telemetry
