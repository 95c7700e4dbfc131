/-
# Walks through the telemetry

A walk through the usage comes to its end exactly if the cursors on its way are short
enough, and it has then shown every selected row once. A walk through the events always
comes to its end.
-/

import GhcGateway.Telemetry.AdminPaging

namespace GhcGateway.Telemetry.TelemetryStore

open Library Paging

variable (store : TelemetryStore) {query : AdminEventQuery}

/-! ## Events, page by page -/

section Events

variable {Metadata SafeMetadata : Type} (sanitizer : Sanitizer Metadata SafeMetadata)
  (parseMetadata : JsString → Metadata) {row : EventRow}

def eventItem (row : EventRow) : AdminOperationalEvent SafeMetadata where
  eventId := js (toString row.eventId)
  occurredAt := timeText row.occurredAtMs
  kind := row.kind
  severity := row.severity
  metadata := sanitizer.operationalMetadata row.kind (parseMetadata row.metadataJson)

theorem eventDto_eq (time : isTime row.occurredAtMs = true) :
    eventDto sanitizer parseMetadata row = .ok (eventItem sanitizer parseMetadata row) := by
  rw [eventDto, toISOString_eq time]
  rfl

def eventRows (query : AdminEventQuery) : List EventRow :=
  ordered EventRow.eventId (· ≤ ·)
    (store.database.operationalEvents.rows.filter query.selects)

theorem nodup_eventIds (condition : EventRow → Bool) :
    ((store.database.operationalEvents.rows.filter condition).map EventRow.eventId).Nodup :=
  store.database.operationalEvents.unique.sublist (List.filter_sublist.map _)

theorem mem_eventRows {query : AdminEventQuery} {row : EventRow}
    (member : row ∈ store.eventRows query) : row ∈ store.database.operationalEvents.rows :=
  List.mem_of_mem_filter ((perm_ordered _ _ _).mem_iff.mp member)

theorem selectEvents_start (query : AdminEventQuery) (limit : Nat) :
    store.database.selectEvents query none limit = (store.eventRows query).take limit := by
  simp only [Database.selectEvents, Option.all_none, Bool.and_true]
  rfl

theorem selectEvents_after {front back : List EventRow}
    (split : store.eventRows query = front ++ row :: back) (limit : Nat) :
    store.database.selectEvents query (some row.eventId) limit = back.take limit := by
  have conditions : (store.database.operationalEvents.rows.filter fun other =>
      query.selects other && (some row.eventId).all (· < other.eventId)) =
        (store.database.operationalEvents.rows.filter query.selects).filter
          (after EventRow.eventId (· ≤ ·) row.eventId) := by
    rw [List.filter_filter]
    apply List.filter_congr
    intro other _
    rw [Option.all_some, Bool.and_comm, after, ← decide_not]
    simp only [Nat.not_le]
  have sorts : store.database.selectEvents query (some row.eventId) limit =
      (ordered EventRow.eventId (· ≤ ·) (store.database.operationalEvents.rows.filter
        fun other => query.selects other && (some row.eventId).all (· < other.eventId))).take
          limit := rfl
  rw [sorts, conditions, ordered_filter (store.nodup_eventIds query.selects),
    filter_after (store.nodup_eventIds query.selects) split]

/-- The page that shows the first of some events. -/
theorem queryEvents_eq (valid : validateEventQuery query = .ok ()) {cursor : Option JsString}
    {eventId : Option Nat} (decoded : cursor.mapM decodeEventCursor = .ok eventId)
    {rows : List EventRow}
    (selected : ∀ limit, store.database.selectEvents query eventId limit = rows.take limit)
    (times : ∀ row ∈ rows, isTime row.occurredAtMs = true) :
    store.database.queryEvents sanitizer parseMetadata query false cursor =
      .ok ((rows.take (min query.limit.toNat eventRowCap)).map (eventItem sanitizer parseMetadata),
        if min query.limit.toNat eventRowCap < rows.length then
          (rows.take (min query.limit.toNat eventRowCap)).getLast?.map
            fun row => encodeEventCursor row.eventId
        else none) := by
  generalize isLimit : min query.limit.toNat eventRowCap = limit
  have items : (rows.take limit).mapM (eventDto sanitizer parseMetadata) =
      .ok ((rows.take limit).map (eventItem sanitizer parseMetadata)) :=
    mapM_eq_ok.mpr (List.forall₂_map_right_iff.mpr (List.forall₂_same.mpr fun row member =>
      eventDto_eq sanitizer parseMetadata (times row (List.mem_of_mem_take member))))
  have first : (rows.take (limit + 1)).take limit = rows.take limit := by
    rw [List.take_take, Nat.min_eq_left (Nat.le_succ _)]
  have more : limit < (rows.take (limit + 1)).length ↔ limit < rows.length := by
    rw [List.length_take]
    omega
  simp only [Database.queryEvents, Bool.false_eq_true, if_false, decoded, selected, isLimit, first,
    items, more, bind, Except.bind, pure, Except.pure]
  rw [valid]

theorem positive_of_validEvents (valid : validateEventQuery query = .ok ()) :
    0 < min query.limit.toNat eventRowCap := by
  rw [validateEventQuery] at valid
  split at valid
  case isTrue checks =>
    have limits := of_decide_eq_true checks.2.2.2
    have cap : eventRowCap = 512 := rfl
    omega
  case isFalse => cases valid

/-- The events are listed by their number. -/
theorem event_keyset (valid : validateEventQuery query = .ok ()) :
    Paging.Keyset (store.database.queryEvents sanitizer parseMetadata query false)
      (store.eventRows query) (min query.limit.toNat eventRowCap)
      (List.map (eventItem sanitizer parseMetadata)) (fun row => encodeEventCursor row.eventId)
      fun _ => True where
  positive := positive_of_validEvents valid
  start := store.queryEvents_eq sanitizer parseMetadata valid rfl (store.selectEvents_start query)
    fun row member => store.times row (store.mem_eventRows member)
  resume := by
    intro front row back split _
    have member : row ∈ store.eventRows query := by
      rw [split]
      exact List.mem_append_right _ List.mem_cons_self
    have decoded : (some (encodeEventCursor row.eventId)).mapM decodeEventCursor =
        .ok (some row.eventId) := by
      have safe := store.numbers row (store.mem_eventRows member)
      rw [Option.mapM_some, decodeEventCursor_encode safe]
      rfl
    apply store.queryEvents_eq sanitizer parseMetadata valid decoded
      (store.selectEvents_after split)
    intro other isBack
    apply store.times other (@mem_eventRows store query other _)
    rw [split]
    exact List.mem_append_right _ (List.mem_cons_of_mem row isBack)
  stray _ absurd := (absurd trivial).elim

end Events

/-! ## Walks -/

/-- A walk through the usage comes to its end without an error. It has shown every selected
row once, in the order of the primary key, and the totals on every page. -/
def UsageExhaustive (query : AdminUsageQuery) : Prop :=
  ∃ pages : List AdminUsagePage,
    Paging.Walk (store.database.queryUsage query false) none pages ∧
      (∃ rows : List UsageBucket,
        rows.Perm (store.database.usageBuckets.rows.filter query.selects) ∧
          rows.Pairwise (fun left right => right.key.follows left.key = true) ∧
            List.Forall₂ (fun row item => usageDto row.read = .ok item) rows
              (pages.flatMap AdminUsagePage.items)) ∧
      ∀ page ∈ pages,
        page.totals = usageTotals (store.database.usageBuckets.rows.filter query.selects)

/-- A walk through the events comes to its end without an error. It has shown every selected
row once, in the order of the numbers. -/
def EventsExhaustive {Metadata SafeMetadata : Type} (sanitizer : Sanitizer Metadata SafeMetadata)
    (parseMetadata : JsString → Metadata) (query : AdminEventQuery) : Prop :=
  ∃ pages : List (List (AdminOperationalEvent SafeMetadata)),
    Paging.Walk (store.database.queryEvents sanitizer parseMetadata query false) none pages ∧
      ∃ rows : List EventRow,
        rows.Perm (store.database.operationalEvents.rows.filter query.selects) ∧
          rows.Pairwise (fun left right => left.eventId < right.eventId) ∧
            List.Forall₂ (fun row item => eventDto sanitizer parseMetadata row = .ok item) rows
              pages.flatten

/-- The rows that end a full page, apart from the last page, have keys that the driver gives
back whole and cursors of at most 12288 bytes of JSON. -/
def CursorsFit (query : AdminUsageQuery) : Prop :=
  Paging.EndsAccepted query.limit.toNat CursorFits (store.usageRows query)

theorem items_usagePages (query : AdminUsageQuery) (parts : List (List UsageBucket)) :
    (parts.map (store.usagePage query)).flatMap AdminUsagePage.items =
      parts.flatten.map usageItem := by
  rw [List.flatMap_map, List.map_flatten, List.flatMap_def]
  rfl

theorem pairwise_usageRows (query : AdminUsageQuery) :
    (store.usageRows query).Pairwise fun left right => right.key.follows left.key = true := by
  have ascending := pairwise_ordered columnsOf columnsLe
    (store.database.usageBuckets.rows.filter query.selects)
  have distinct : ((store.usageRows query).map columnsOf).Nodup :=
    ((perm_ordered _ _ _).map columnsOf).nodup_iff.mpr (store.nodup_columns query.selects)
  refine (ascending.and (List.pairwise_map.mp distinct)).imp fun {left right} both => ?_
  rw [follows_eq, Bool.not_eq_true', decide_eq_false_iff_not]
  exact fun down => both.2 (Std.Antisymm.antisymm _ _ both.1 down)

theorem usageExhaustive_iff {query : AdminUsageQuery} (valid : validateUsageQuery query = .ok ()) :
    store.UsageExhaustive query ↔ store.CursorsFit query := by
  have keyset := store.usage_keyset valid
  constructor
  · rintro ⟨pages, walk, ⟨rows, perm, -, shown⟩, -⟩
    obtain ⟨parts, rfl, ends⟩ := keyset.ends_of_walk walk
    apply ends
    have all : (store.usageRows query).length = rows.length :=
      ((perm_ordered _ _ _).trans perm.symm).length_eq
    rw [items_usagePages] at shown
    rw [all, shown.length_eq, List.length_map]
  · intro fits
    obtain ⟨parts, walk, flat⟩ := keyset.exists_walk fits
    refine ⟨_, walk, ⟨store.usageRows query, perm_ordered _ _ _,
      store.pairwise_usageRows query, ?_⟩, ?_⟩
    · rw [items_usagePages, flat, List.forall₂_map_right_iff, List.forall₂_same]
      exact fun row member => usageDto_eq (store.time_of_mem member)
    · intro page member
      obtain ⟨part, -, rfl⟩ := List.mem_map.mp member
      rfl

theorem eventsExhaustive {Metadata SafeMetadata : Type}
    (sanitizer : Sanitizer Metadata SafeMetadata) (parseMetadata : JsString → Metadata)
    (valid : validateEventQuery query = .ok ()) :
    store.EventsExhaustive sanitizer parseMetadata query := by
  have keyset := store.event_keyset sanitizer parseMetadata valid
  obtain ⟨parts, walk, flat⟩ := keyset.exists_walk fun _ _ _ _ _ => trivial
  have ascending := pairwise_ordered EventRow.eventId (· ≤ ·)
    (store.database.operationalEvents.rows.filter query.selects)
  have distinct : ((store.eventRows query).map EventRow.eventId).Nodup :=
    ((perm_ordered _ _ _).map _).nodup_iff.mpr (store.nodup_eventIds query.selects)
  refine ⟨_, walk, store.eventRows query, perm_ordered _ _ _, ?_, ?_⟩
  · exact (ascending.and (List.pairwise_map.mp distinct)).imp fun both =>
      Nat.lt_of_le_of_ne both.1 both.2
  · rw [← List.map_flatten, flat, List.forall₂_map_right_iff, List.forall₂_same]
    exact fun row member => eventDto_eq sanitizer parseMetadata
      (store.times row (store.mem_eventRows member))

def hourBucket (utcHourMs : Int) (model : List Char) : UsageBucket where
  key := ⟨utcHourMs, textUnits ['a'], .openaiChat, textUnits model, .success⟩
  requestCount := 1
  errorCount := 0
  inputTokens := 3
  outputTokens := 2
  cacheTokens := 0
  latencySumMs := 5
  latencyMaxMs := 5

/-- A request for a model in the first hour, another one in the second, and two events. -/
def twoHours (model : List Char) : TelemetryStore where
  database := {
    usageBuckets := ⟨[hourBucket 0 model, hourBucket 3600000 ['m']], by
      simp [hourBucket]⟩
    operationalEvents := ⟨[⟨1, 0, .gatewayStarted, .info, js "\x7b\x7d"⟩,
      ⟨2, 7200000, .gatewayStopped, .info, js "\x7b\x7d"⟩], by decide⟩
    nextEventId := 3
    numbered := ⟨by decide, by decide⟩
    droppedUsageUpdates := 0
    droppedOperationalEvents := 0
    updatedAtMs := 0
    removedRequests := 0
    removedEvents := 0 }
  accountIds := by
    simp [hourBucket]
  resolvedModels := by
    simp [hourBucket]
  hours := by
    simp [hourBucket, isTime]
  times := by
    simp [isTime]
  numbers := by
    simp [maxSafeInteger]

/-- Everything in the two hours, a row at a time. -/
def twoHoursQuery : AdminUsageQuery := ⟨0, 7200000, 1, none, none, none, none⟩

theorem usageRows_twoHours (model : List Char) :
    (twoHours model).usageRows twoHoursQuery = [hourBucket 0 model, hourBucket 3600000 ['m']] := by
  have selected (row : UsageBucket) (inside : row.key.utcHourMs = 0 ∨ row.key.utcHourMs = 3600000) :
      twoHoursQuery.selects row = true := by
    cases inside with
    | inl first => simp [AdminUsageQuery.selects, twoHoursQuery, filters, first]
    | inr second => simp [AdminUsageQuery.selects, twoHoursQuery, filters, second]
  have all : (twoHours model).database.usageBuckets.rows.filter twoHoursQuery.selects =
      [hourBucket 0 model, hourBucket 3600000 ['m']] := by
    apply List.filter_eq_self.mpr
    intro row member
    apply selected
    simp only [twoHours, List.mem_cons, List.not_mem_nil, or_false] at member
    cases member with
    | inl first => exact .inl (congrArg (·.key.utcHourMs) first)
    | inr second => exact .inr (congrArg (·.key.utcHourMs) second)
  have before : columnsLe (columnsOf (hourBucket 0 model)) (columnsOf (hourBucket 3600000 ['m'])) :=
    .inl (by decide : (0 : Int) < 3600000)
  rw [usageRows, all, ordered, List.insertionSort_cons, List.insertionSort_cons,
    List.insertionSort_nil, List.orderedInsert_nil, List.orderedInsert_cons, if_pos before]

/-- The cursors on a walk through the two hours, a row at a time. -/
theorem cursorsFit_twoHours (model : List Char) :
    (twoHours model).CursorsFit twoHoursQuery ↔ CursorFits (hourBucket 0 model) := by
  rw [CursorsFit, usageRows_twoHours]
  have first := @endsAccepted_page UsageBucket 1 CursorFits []
    [hourBucket 3600000 ['m']] (hourBucket 0 model) rfl (List.cons_ne_nil _ _)
  exact first.trans (and_iff_left (endsAccepted_of_short (Nat.le_refl 1)))

/-- What is left of the metadata of an event without any. -/
def noMetadata : Sanitizer (List (JsString × JsString)) (List (JsString × JsString)) where
  metadataJson _ := some (js "\x7b\x7d")
  operationalMetadata _ metadata := metadata
  rejectedMetadata := []

/-- All events, a row at a time. -/
def everyEvent : AdminEventQuery := ⟨none, none, 1, none, none⟩

end GhcGateway.Telemetry.TelemetryStore
