/-
# Writing and reading a replay

A replay that was extracted from an output is read back from the rows it is stored in, item by
item and in its order. The reader asks for two things that the writer does not see to: an item
may nest no deeper than the reader parses, and its call id has to survive the column it is
stored in.
-/

import GhcGateway.History.Recording
import GhcGateway.History.Database
import GhcGateway.Serialization.JsonSerializer
import GhcGateway.Serialization.TextColumn

namespace GhcGateway.History

open JsonGrammar Library

variable {options : HistoryOptions}
  {formatVersion : ReplayFormatVersion} {items calls rest : List StoredReplayItem}
  {item : StoredReplayItem} {output : ResponseOutput} {replay : StoredReplay}
  {checkpoint : CheckpointRow} {groupOrdinal first next : Nat} {row : ReplayItemRow}
  {state : Validation} {sizes : List Nat}

/-! ## Stored rows -/

section Rows

-- what a text column gives back of a text
variable (keeps : JsString → JsString)

/-- A row as the database gives it back. -/
def ReplayItemRow.kept (row : ReplayItemRow) : ReplayItemRow :=
  { row with callId := row.callId.map keeps, itemJson := keeps row.itemJson }

structure CheckpointRow.Stores (checkpoint : CheckpointRow) (replay : StoredReplay) : Prop where
  version : checkpoint.replayFormatVersion = replay.formatVersion
  count : checkpoint.replayItemCount = replay.itemCount
  bytes : checkpoint.replayBytes = replay.bytes
  items : checkpoint.items = replay.items.map fun item => item.row.kept keeps

/-- An item that the reader can read. -/
def StoredReplayItem.Readable (item : StoredReplayItem) : Prop :=
  (WireJson.object item.item).nesting ≤ 64 ∧ item.callId.map keeps = item.callId

end Rows

/-- A written item is the text of a JSON object, of the size that was counted. -/
theorem StoredReplayItem.Written.text (written : item.Written options) :
    ∃ text, item.itemJson = textUnits text ∧ item.itemBytes = (encode text).length ∧
      Text text (.object item.item) ∧ 1 ≤ item.itemBytes ∧
      item.itemBytes ≤ options.maxReplayItemBytes := by
  unfold StoredReplayItem.Written encodeReplayItem at written
  split at written
  case h_1 => cases written
  case h_2 encoded serialized =>
    split at written
    case isTrue => cases written
    case isFalse fits =>
      obtain ⟨text, isText, spelled⟩ := serializeWireJson_eq_ok serialized
      have both := Prod.mk.inj (Except.ok.inj written)
      refine ⟨text, ?_, ?_, spelled, ?_, ?_⟩
      · rw [← both.1, isText, decodeText_encode]
      · rw [← both.2, isText]
      · rw [← both.2]
        omega
      · rw [← both.2]
        omega

/-! ## One row -/

/-- The row of an item gives the item back. -/
theorem replayItemFromRow_row (genuine : item.part.Genuine) (formatVersion : ReplayFormatVersion) :
    replayItemFromRow formatVersion item.row item.item = .ok item := by
  refine bind_eq_ok.mpr ⟨(), unavailableIf_eq_ok.mpr (not_not.mpr genuine.1), ?_⟩
  obtain ⟨groupOrdinal, itemOrdinal, kind, callId, members, itemJson, itemBytes⟩ := item
  rcases kind_of_genuine genuine with
    ⟨isReasoning, noId, noMember⟩ | ⟨call, id, isCall, hasId, strict⟩
  · have isReasoning : kind = .reasoning := isReasoning
    have noId : callId = none := noId
    subst isReasoning noId
    exact bind_eq_ok.mpr ⟨(), unavailableIf_eq_ok.mpr (not_not.mpr noMember), rfl⟩
  · have isCall : kind = .call call := isCall
    have hasId : callId = some id := hasId
    subst isCall hasId
    have strict : strictCallIdFromItem members = some id := strict
    refine bind_eq_ok.mpr ⟨(), unavailableIf_eq_ok.mpr fun both => both.1 strict, ?_⟩
    show Except.ok (StoredReplayItem.mk groupOrdinal itemOrdinal (.call call) (some id)
      (if strictCallIdFromItem members = some id then members else _) itemJson itemBytes) = _
    rw [if_pos strict]

/-- What was read of a row has its call id and its text. -/
theorem replayItemFromRow_eq_ok {item : WireJsonObject} {read : StoredReplayItem}
    (isRead : replayItemFromRow formatVersion row item = .ok read) : read.row = row := by
  obtain ⟨groupOrdinal, itemOrdinal, kind, callId, itemJson, itemBytes⟩ := row
  rw [replayItemFromRow] at isRead
  obtain ⟨_, _, rest⟩ := bind_eq_ok.mp isRead
  split at rest
  case h_1 isReasoning noId =>
    have isReasoning : kind = .reasoning := isReasoning
    have noId : callId = none := noId
    obtain ⟨_, _, returned⟩ := bind_eq_ok.mp rest
    cases returned
    rw [isReasoning, noId]
    rfl
  case h_2 call id isCall hasId =>
    have isCall : kind = .call call := isCall
    have hasId : callId = some id := hasId
    obtain ⟨_, _, returned⟩ := bind_eq_ok.mp rest
    cases returned
    rw [isCall, hasId]
    rfl
  case h_3 => cases rest

/-! ## Every row -/

variable {keeps : JsString → JsString}

/-- The size of what was read. -/
theorem readReplayItem_eq_ok {bytes : Nat} {read : Nat × StoredReplayItem}
    (isRead : readReplayItem options formatVersion bytes row = .ok read) :
    read.1 = bytes + row.itemBytes := by
  rw [readReplayItem] at isRead
  obtain ⟨_, _, rest⟩ := bind_eq_ok.mp isRead
  obtain ⟨_, _, rest⟩ := bind_eq_ok.mp rest
  obtain ⟨_, _, rest⟩ := bind_eq_ok.mp rest
  split at rest
  case h_1 =>
    obtain ⟨_, _, returned⟩ := bind_eq_ok.mp rest
    cases returned
    rfl
  case h_2 => cases rest

/-- A row is read back exactly if its item is readable. -/
theorem readReplayItem_row (keepsText : KeepsText keeps) {formatVersion : ReplayFormatVersion}
    {bytes : Nat} {item : StoredReplayItem} (written : item.Written options)
    (genuine : item.part.Genuine) (group : item.groupOrdinal < options.maxReplayItems)
    (place : item.itemOrdinal < options.maxReplayItems)
    (fits : bytes + item.itemBytes ≤ options.maxReplayBytes) :
    readReplayItem options formatVersion bytes (item.row.kept keeps) =
        .ok (bytes + item.itemBytes, item) ↔ item.Readable keeps := by
  obtain ⟨text, isText, size, spelled, positive, small⟩ := written.text
  have kept : keeps item.itemJson = item.itemJson := by rw [isText, keepsText text spelled.nulFree]
  have encoded : encodeUtf8 item.itemJson = encode text := by rw [isText, encodeUtf8_textUnits]
  have shortEnough : (encode text).length ≤ options.maxReplayItemBytes := size ▸ small
  constructor
  · intro isRead
    rw [readReplayItem] at isRead
    obtain ⟨_, _, rest⟩ := bind_eq_ok.mp isRead
    obtain ⟨_, _, rest⟩ := bind_eq_ok.mp rest
    obtain ⟨_, _, rest⟩ := bind_eq_ok.mp rest
    split at rest
    case h_1 parsed isParsed =>
      have isParsed : parseWireJson (encodeUtf8 (keeps item.itemJson))
          ⟨options.maxReplayItemBytes, 64⟩ = .ok (.object parsed) := isParsed
      rw [kept, encoded, parseWireJson_encode spelled shortEnough] at isParsed
      obtain ⟨read, fromRow, returned⟩ := bind_eq_ok.mp rest
      have same : read = item := (Prod.mk.inj (Except.ok.inj returned)).2
      have sameRow := replayItemFromRow_eq_ok fromRow
      rw [same] at sameRow
      exact ⟨isParsed.2, (congrArg ReplayItemRow.callId sameRow).symm⟩
    case h_2 => cases rest
  · intro readable
    have sameRow : item.row.kept keeps = item.row := by
      rw [ReplayItemRow.kept]
      show { item.row with callId := item.callId.map keeps, itemJson := keeps item.itemJson } = _
      rw [readable.2, kept]
      rfl
    have parsed : parseWireJson (encodeUtf8 item.row.itemJson) ⟨options.maxReplayItemBytes, 64⟩ =
        .ok (.object item.item) := by
      show parseWireJson (encodeUtf8 item.itemJson) _ = _
      rw [encoded, parseWireJson_encode spelled shortEnough]
      exact ⟨rfl, readable.1⟩
    rw [sameRow, readReplayItem]
    refine bind_eq_ok.mpr ⟨(), unavailableIf_eq_ok.mpr ?_, ?_⟩
    · show ¬ (options.maxReplayItems - 1 < item.groupOrdinal ∨
        options.maxReplayItems - 1 < item.itemOrdinal ∨ item.itemBytes < 1 ∨
        options.maxReplayItemBytes < item.itemBytes)
      omega
    refine bind_eq_ok.mpr ⟨(), unavailableIf_eq_ok.mpr ?_, ?_⟩
    · show ¬ (encodeUtf8 item.itemJson).length ≠ item.itemBytes
      rw [encoded, size]
      exact not_not.mpr rfl
    refine bind_eq_ok.mpr ⟨(), unavailableIf_eq_ok.mpr (Nat.not_lt.mpr fits), ?_⟩
    rw [parsed]
    exact bind_eq_ok.mpr ⟨item, replayItemFromRow_row genuine formatVersion, rfl⟩

/-- All rows are read back exactly if every item is readable. -/
theorem readReplayItems_rows (keepsText : KeepsText keeps) {formatVersion : ReplayFormatVersion}
    {items : List StoredReplayItem} : ∀ {bytes : Nat},
    (∀ item ∈ items, item.Written options ∧ item.part.Genuine ∧
      item.groupOrdinal < options.maxReplayItems ∧ item.itemOrdinal < options.maxReplayItems) →
    bytes + (items.map StoredReplayItem.itemBytes).sum ≤ options.maxReplayBytes →
    (readReplayItems options formatVersion bytes (items.map fun item => item.row.kept keeps) =
        .ok (bytes + (items.map StoredReplayItem.itemBytes).sum, items) ↔
      ∀ item ∈ items, item.Readable keeps) := by
  induction items with
  | nil => exact fun _ _ => iff_of_true rfl fun _ member => nomatch member
  | cons item items ih =>
    intro bytes sound fits
    rw [List.map_cons, List.sum_cons] at fits
    obtain ⟨written, genuine, group, place⟩ := sound item List.mem_cons_self
    have first := @readReplayItem_row options keeps keepsText formatVersion bytes item
        written genuine
      group place (by omega)
    have others := @ih (bytes + item.itemBytes)
      (fun other member => sound other (List.mem_cons_of_mem item member)) (by omega)
    rw [List.forall_mem_cons, ← first, ← others, List.map_cons, List.map_cons, readReplayItems,
      List.sum_cons]
    constructor
    · intro isRead
      obtain ⟨⟨size, read⟩, readFirst, rest⟩ := bind_eq_ok.mp isRead
      obtain ⟨⟨total, reads⟩, readRest, returned⟩ := bind_eq_ok.mp rest
      have sizes : size = bytes + item.itemBytes := readReplayItem_eq_ok readFirst
      have both := Prod.mk.inj (Except.ok.inj returned)
      have items := List.cons.inj both.2
      rw [sizes, items.1] at readFirst
      rw [sizes, items.2, both.1, ← Nat.add_assoc] at readRest
      exact ⟨readFirst, readRest⟩
    · rintro ⟨readFirst, readRest⟩
      refine bind_eq_ok.mpr ⟨_, readFirst, bind_eq_ok.mpr ⟨_, readRest, ?_⟩⟩
      rw [Nat.add_assoc]

/-! ## Places -/

theorem Placed.mem :
    ∀ {itemOrdinal : Nat}, Placed groupOrdinal itemOrdinal items → ∀ item ∈ items,
      item.groupOrdinal = groupOrdinal ∧ itemOrdinal ≤ item.itemOrdinal ∧
        item.itemOrdinal < itemOrdinal + items.length := by
  induction items with
  | nil => exact fun _ _ member => nomatch member
  | cons first items ih =>
    intro itemOrdinal placed item member
    rw [List.length_cons]
    rcases List.mem_cons.mp member with rfl | isLater
    · have place := placed.2.1
      exact ⟨placed.1, by omega, by omega⟩
    · obtain ⟨sameGroup, lower, upper⟩ := ih placed.2.2 item isLater
      exact ⟨sameGroup, by omega, by omega⟩

/-- An item is read no later than another. -/
def Precedes (left right : StoredReplayItem) : Prop :=
  left.groupOrdinal < right.groupOrdinal ∨
    (left.groupOrdinal = right.groupOrdinal ∧ left.itemOrdinal ≤ right.itemOrdinal)

theorem Placed.pairwise :
    ∀ {itemOrdinal : Nat}, Placed groupOrdinal itemOrdinal items → items.Pairwise Precedes := by
  induction items with
  | nil => exact fun _ => List.Pairwise.nil
  | cons first items ih =>
    intro itemOrdinal placed
    refine List.pairwise_cons.mpr ⟨fun item member => ?_, ih placed.2.2⟩
    obtain ⟨sameGroup, lower, -⟩ := placed.2.2.mem item member
    have place := placed.2.1
    exact .inr ⟨placed.1.trans sameGroup.symm, by omega⟩

/-- Where the items of some groups stand, and that every group has an item. -/
theorem Groups.mem (groups : Groups first next items) :
    next ≤ first + items.length ∧ ∀ item ∈ items, first ≤ item.groupOrdinal ∧
      item.groupOrdinal < next ∧ item.itemOrdinal < items.length := by
  induction groups with
  | nil first => exact ⟨Nat.le_refl _, fun _ member => nomatch member⟩
  | @cons first next group items isGroup rest ih =>
    have nonempty : 0 < group.length := by
      obtain ⟨part, member, -⟩ := List.any_eq_true.mp isGroup.called
      obtain ⟨item, isItem, -⟩ := List.mem_map.mp member
      exact List.length_pos_of_mem isItem
    obtain ⟨few, bounds⟩ := ih
    rw [List.length_append]
    refine ⟨by omega, fun item member => ?_⟩
    rcases List.mem_append.mp member with inGroup | later
    · obtain ⟨sameGroup, -, upper⟩ := isGroup.placed.mem item inGroup
      have atMost : first < next := by
        cases rest with
        | nil => omega
        | cons _ _ =>
          rename_i group items isNext others
          obtain ⟨part, member, -⟩ := List.any_eq_true.mp isNext.called
          obtain ⟨item, isItem, -⟩ := List.mem_map.mp member
          obtain ⟨lower, upper, -⟩ := bounds item (List.mem_append_left _ isItem)
          omega
      exact ⟨by omega, by omega, by omega⟩
    · obtain ⟨lower, upper, place⟩ := bounds item later
      exact ⟨by omega, by omega, by omega⟩

theorem Groups.pairwise (groups : Groups first next items) : items.Pairwise Precedes := by
  induction groups with
  | nil first => exact List.Pairwise.nil
  | @cons first next group items isGroup rest ih =>
    refine List.pairwise_append.mpr ⟨isGroup.placed.pairwise, ih, ?_⟩
    intro item inGroup other later
    have sameGroup := (isGroup.placed.mem item inGroup).1
    have lower := (rest.mem.2 other later).1
    exact .inl (by omega)

theorem Arranged.pairwise (arranged : Arranged items formatVersion) : items.Pairwise Precedes := by
  cases formatVersion with
  | one => exact arranged.1.pairwise
  | two =>
    obtain ⟨count, groups⟩ := arranged
    exact groups.pairwise

theorem Arranged.mem (arranged : Arranged items formatVersion) (member : item ∈ items) :
    item.groupOrdinal < items.length ∧ item.itemOrdinal < items.length := by
  cases formatVersion with
  | one =>
    obtain ⟨group, -, upper⟩ := arranged.1.mem item member
    have some := List.length_pos_of_mem member
    exact ⟨by omega, by omega⟩
  | two =>
    obtain ⟨count, groups⟩ := arranged
    obtain ⟨few, bounds⟩ := groups.mem
    obtain ⟨-, upper, place⟩ := bounds item member
    exact ⟨by omega, place⟩

/-- The rows of a replay are read in its order. -/
theorem orderedItems_rows (ordered : items.Pairwise Precedes) :
    orderedItems (items.map fun item => item.row.kept keeps) =
      items.map fun item => item.row.kept keeps := by
  apply List.Pairwise.insertionSort_eq
  rw [List.pairwise_map]
  exact ordered

/-! ## Validation -/

/-- The ids and carriers of some items are different from one another and new. -/
def Validation.Fresh (state : Validation) (items : List StoredReplayItem) : Prop :=
  (state.callIds ++ (items.map StoredReplayItem.part).filterMap GroupItem.callId).Nodup ∧
    (state.reasoningCarriers ++
      (items.map StoredReplayItem.part).filterMap GroupItem.carrier).Nodup

theorem nodup_append_filterMap_cons {α β : Type} {known : List β} {choose : α → Option β} {item : α}
    {items : List α} (distinct : (known ++ (item :: items).filterMap choose).Nodup) :
    (∀ value, choose item = some value → value ∉ known) ∧
      ((choose item).toList ++ known ++ items.filterMap choose).Nodup := by
  cases chosen : choose item with
  | none =>
    rw [List.filterMap_cons_none chosen] at distinct
    exact ⟨(fun _ none => nomatch none), distinct⟩
  | some value =>
    rw [List.filterMap_cons_some chosen, List.nodup_middle] at distinct
    refine ⟨fun other same isKnown => ?_, distinct⟩
    cases same
    exact (List.nodup_cons.mp distinct).1 (List.mem_append_left _ isKnown)

theorem Validation.Fresh.cons {state next : Validation} {item : StoredReplayItem}
    {items : List StoredReplayItem} (fresh : state.Fresh (item :: items))
    (callIds : next.callIds = item.callId.toList ++ state.callIds)
    (carriers : next.reasoningCarriers = item.part.carrier.toList ++ state.reasoningCarriers) :
    next.Fresh items := by
  have distinctIds := fresh.1
  have distinctCarriers := fresh.2
  rw [List.map_cons] at distinctIds distinctCarriers
  rw [Validation.Fresh, callIds, carriers]
  exact ⟨(nodup_append_filterMap_cons distinctIds).2,
    (nodup_append_filterMap_cons distinctCarriers).2⟩

theorem validateCall_eq (genuine : item.part.Genuine)
    (fresh : ∀ callId, item.callId = some callId → callId ∉ state.callIds) :
    validateCall state item = .ok { state with callIds :=
      item.callId.toList ++ state.callIds } := by
  rcases kind_of_genuine genuine with ⟨isReasoning, noId, -⟩ | ⟨kind, callId, isCall, hasId, -⟩
  · have isReasoning : item.kind = .reasoning := isReasoning
    have noId : item.callId = none := noId
    rw [validateCall, isReasoning, noId]
    rfl
  · have isCall : item.kind = .call kind := isCall
    have hasId : item.callId = some callId := hasId
    rw [validateCall, isCall, hasId]
    exact bind_eq_ok.mpr ⟨(), unavailableIf_eq_ok.mpr (fresh callId hasId), rfl⟩

/-- The carrier of a reasoning item is noted, in a group that has no call yet. -/
theorem validateKind_reasoning (isReasoning : item.kind = .reasoning)
    (noCall : state.groupHasCall = false)
    (fresh : ∀ carrier, item.part.carrier = some carrier → carrier ∉ state.reasoningCarriers) :
    validateKind state item = .ok { state with
      reasoningCarriers := item.part.carrier.toList ++ state.reasoningCarriers } := by
  have isCarrier : item.part.carrier = reasoningCarrier item.item := if_pos isReasoning
  rw [isCarrier] at fresh ⊢
  rw [validateKind, isReasoning]
  refine bind_eq_ok.mpr ⟨_, ?_, bind_eq_ok.mpr ⟨(), unavailableIf_eq_ok.mpr ?_, rfl⟩⟩
  · rw [validateCarrier]
    cases found : reasoningCarrier item.item with
    | none => rfl
    | some carrier =>
      exact bind_eq_ok.mpr ⟨(), unavailableIf_eq_ok.mpr (fresh carrier found), rfl⟩
  · show ¬ state.groupHasCall = true
    rw [noCall]
    exact Bool.false_ne_true

/-- In the first format items are numbered, and every one is a call. -/
theorem validateItems_one : ∀ {state : Validation},
    Placed 0 state.expectedItem items → (∀ item ∈ items, item.kind ≠ .reasoning) →
    (∀ item ∈ items, item.part.Genuine) → state.Fresh items →
    validateItems .one state items = .ok () := by
  induction items with
  | nil => exact fun _ _ _ _ => rfl
  | cons item items ih =>
    intro state placed calls genuine fresh
    have isCall : item.kind ≠ .reasoning := calls item List.mem_cons_self
    have noCarrier : item.part.carrier = none := if_neg isCall
    have freshId := fresh.1
    rw [List.map_cons] at freshId
    rw [validateItems]
    refine bind_eq_ok.mpr ⟨{ state with expectedItem := state.expectedItem + 1 }, ?_, ?_⟩
    · refine bind_eq_ok.mpr ⟨(), unavailableIf_eq_ok.mpr ?_, rfl⟩
      rintro (isReasoning | otherGroup | otherPlace)
      · exact isCall isReasoning
      · exact otherGroup placed.1
      · exact otherPlace placed.2.1
    · refine bind_eq_ok.mpr ⟨_, validateCall_eq (genuine item List.mem_cons_self)
        (nodup_append_filterMap_cons freshId).1, ?_⟩
      apply ih
      · exact placed.2.2
      · exact fun other member => calls other (List.mem_cons_of_mem item member)
      · exact fun other member => genuine other (List.mem_cons_of_mem item member)
      · apply fresh.cons rfl
        rw [noCarrier]
        rfl

/-- The validation has reached a place in the second format. -/
structure Validation.At (state : Validation) (groupOrdinal itemOrdinal : Nat) (called : Bool) :
    Prop where
  group : state.expectedGroup = groupOrdinal
  place : state.expectedItem = itemOrdinal
  called : state.groupHasCall = called

/-- What is left of the replay is valid after the group with a given number. -/
def ValidAfter (groupOrdinal : Nat) (rest : List StoredReplayItem) : Prop :=
  ∀ state : Validation, state.At (groupOrdinal + 1) 0 false → state.Fresh rest →
    validateItems .two state rest = .ok ()

/-- The calls of a group, up to its end. -/
theorem validateItems_calls
    (isEnd : rest.head?.map StoredReplayItem.groupOrdinal ≠ some groupOrdinal)
    (validAfter : ValidAfter groupOrdinal rest) :
    ∀ {state : Validation}, state.expectedGroup = groupOrdinal →
    Placed groupOrdinal state.expectedItem calls → calls ≠ [] →
    (∀ item ∈ calls, item.kind ≠ .reasoning ∧ item.part.Genuine) → state.Fresh (calls ++ rest) →
    validateItems .two state (calls ++ rest) = .ok () := by
  induction calls with
  | nil => exact fun _ _ nonempty => absurd rfl nonempty
  | cons item calls ih =>
    intro state group placed _ sound fresh
    obtain ⟨isCall, genuine⟩ := sound item List.mem_cons_self
    have noCarrier : item.part.carrier = none := if_neg isCall
    have freshId := fresh.1
    rw [List.cons_append, List.map_cons] at freshId
    have notes : validateKind state item = .ok { state with groupHasCall := true } := by
      rw [validateKind]
      cases hasKind : item.kind with
      | reasoning => exact absurd hasKind isCall
      | call kind => rfl
    have inPlace : unavailableIf (item.groupOrdinal ≠ state.expectedGroup ∨
        item.itemOrdinal ≠ state.expectedItem) = .ok () := by
      apply unavailableIf_eq_ok.mpr
      rintro (otherGroup | otherPlace)
      · exact otherGroup (placed.1.trans group.symm)
      · exact otherPlace placed.2.1
    rw [List.cons_append] at fresh
    rw [List.cons_append, validateItems, validatePlace, validateGrouping]
    cases calls with
    | nil =>
      -- the last item of the group
      rw [List.nil_append] at freshId fresh ⊢
      refine bind_eq_ok.mpr ⟨{ state with
        groupHasCall := false, expectedGroup := state.expectedGroup + 1, expectedItem := 0 }, ?_,
          ?_⟩
      · refine bind_eq_ok.mpr ⟨(), inPlace, bind_eq_ok.mpr ⟨_, notes, ?_⟩⟩
        dsimp only
        rw [group, if_neg isEnd]
        rfl
      · refine bind_eq_ok.mpr ⟨_, validateCall_eq genuine (nodup_append_filterMap_cons freshId).1,
          ?_⟩
        apply validAfter
        · exact ⟨congrArg (· + 1) group, rfl, rfl⟩
        · apply fresh.cons rfl
          rw [noCarrier]
          rfl
    | cons other calls =>
      have sameGroup : other.groupOrdinal = groupOrdinal := placed.2.2.1
      refine bind_eq_ok.mpr ⟨{ state with
        groupHasCall := true, expectedItem := state.expectedItem + 1 }, ?_, ?_⟩
      · refine bind_eq_ok.mpr ⟨(), inPlace, bind_eq_ok.mpr ⟨_, notes, ?_⟩⟩
        dsimp only
        rw [if_pos (by rw [group, ← sameGroup]; rfl)]
      · refine bind_eq_ok.mpr ⟨_, validateCall_eq genuine (nodup_append_filterMap_cons freshId).1,
          ?_⟩
        apply ih
        · exact group
        · exact placed.2.2
        · exact List.cons_ne_nil _ _
        · exact fun item member => sound item (List.mem_cons_of_mem _ member)
        · apply fresh.cons rfl
          rw [noCarrier]
          rfl

/-- A group: its reasoning items, and then its calls. -/
theorem validateItems_group
    (isEnd : rest.head?.map StoredReplayItem.groupOrdinal ≠ some groupOrdinal)
    (validAfter : ValidAfter groupOrdinal rest) (called : calls ≠ [])
    (soundCalls : ∀ item ∈ calls, item.kind ≠ .reasoning ∧ item.part.Genuine)
    {reasoning : List StoredReplayItem} : ∀ {state : Validation},
    state.At groupOrdinal state.expectedItem false →
    Placed groupOrdinal state.expectedItem (reasoning ++ calls) →
    (∀ item ∈ reasoning, item.kind = .reasoning ∧ item.part.Genuine) →
    state.Fresh (reasoning ++ calls ++ rest) →
    validateItems .two state (reasoning ++ calls ++ rest) = .ok () := by
  induction reasoning with
  | nil =>
    intro state isAt placed _ fresh
    exact validateItems_calls isEnd validAfter isAt.group placed called soundCalls fresh
  | cons item reasoning ih =>
    intro state isAt placed sound fresh
    obtain ⟨isReasoning, genuine⟩ := sound item List.mem_cons_self
    rw [List.cons_append, List.cons_append] at fresh
    rw [List.cons_append] at placed
    have freshId := fresh.1
    have freshCarrier := fresh.2
    rw [List.map_cons] at freshId freshCarrier
    have notes := validateKind_reasoning isReasoning isAt.called
      (nodup_append_filterMap_cons freshCarrier).1
    -- the calls of the group are still to come
    obtain ⟨next, others, isNext⟩ : ∃ next others, reasoning ++ calls = next :: others :=
      List.exists_cons_of_ne_nil fun none => called (List.append_eq_nil_iff.mp none).2
    have sameGroup : next.groupOrdinal = groupOrdinal := by
      have later := placed.2.2
      rw [isNext] at later
      exact later.1
    have isHead : (reasoning ++ calls ++ rest).head?.map StoredReplayItem.groupOrdinal =
        some groupOrdinal := by
      rw [isNext, ← sameGroup]
      rfl
    rw [List.cons_append, List.cons_append, validateItems, validatePlace, validateGrouping]
    refine bind_eq_ok.mpr ⟨{ state with
      reasoningCarriers := item.part.carrier.toList ++ state.reasoningCarriers
      expectedItem := state.expectedItem + 1 }, ?_, ?_⟩
    · refine bind_eq_ok.mpr ⟨(), unavailableIf_eq_ok.mpr ?_, bind_eq_ok.mpr ⟨_, notes, ?_⟩⟩
      · rintro (otherGroup | otherPlace)
        · exact otherGroup (placed.1.trans isAt.group.symm)
        · exact otherPlace placed.2.1
      · dsimp only
        rw [isAt.group, if_pos isHead]
    · refine bind_eq_ok.mpr ⟨_, validateCall_eq genuine (nodup_append_filterMap_cons freshId).1, ?_⟩
      apply ih
      · exact ⟨isAt.group, rfl, isAt.called⟩
      · exact placed.2.2
      · exact fun other member => sound other (List.mem_cons_of_mem item member)
      · exact fresh.cons rfl rfl

/-- In the second format, the groups. -/
theorem validateItems_groups (groups : Groups first next items) :
    ∀ {state : Validation}, state.At first 0 false →
    (∀ item ∈ items, item.part.Genuine) → state.Fresh items →
    validateItems .two state items = .ok () := by
  induction groups with
  | nil first => exact fun _ _ _ => rfl
  | @cons first next group items isGroup rest ih =>
    intro state isAt genuine fresh
    obtain ⟨reasoningParts, callParts, isSplit, areReasoning, areCalls⟩ := isGroup.shaped
    obtain ⟨reasoning, calls, rfl, rfl, rfl⟩ := List.map_eq_append_iff.mp isSplit
    have isEnd : items.head?.map StoredReplayItem.groupOrdinal ≠ some first := by
      intro sameGroup
      obtain ⟨item, isHead, ordinal⟩ := Option.map_eq_some_iff.mp sameGroup
      have lower := (rest.mem.2 item (List.mem_of_mem_head? isHead)).1
      omega
    have called : calls ≠ [] := by
      rintro rfl
      obtain ⟨part, member, isCall⟩ := List.any_eq_true.mp isGroup.called
      rw [List.append_nil] at member
      exact of_decide_eq_true isCall (areReasoning part member)
    have place := isAt.place
    apply validateItems_group isEnd
    · intro after isAfter freshAfter
      exact ih isAfter (fun item member => genuine item (List.mem_append_right _ member)) freshAfter
    · exact called
    · intro item member
      exact ⟨areCalls item.part (List.mem_map_of_mem member),
        genuine item (List.mem_append_left _ (List.mem_append_right _ member))⟩
    · exact ⟨isAt.group, rfl, isAt.called⟩
    · rw [place]
      exact isGroup.placed
    · intro item member
      exact ⟨areReasoning item.part (List.mem_map_of_mem member),
        genuine item (List.mem_append_left _ (List.mem_append_left _ member))⟩
    · exact fresh

/-- The validation accepts every extracted replay. -/
theorem StoredReplay.Recorded.valid (recorded : replay.Recorded options formatVersion output) :
    validateStoredReplay formatVersion replay.items = .ok () := by
  have fresh : Validation.Fresh ⟨[], [], 0, 0, false⟩ replay.items :=
    ⟨recorded.distinctIds, recorded.distinctCarriers⟩
  have arranged := recorded.arranged
  cases formatVersion with
  | one => exact validateItems_one arranged.1 arranged.2 recorded.genuine fresh
  | two =>
    obtain ⟨count, groups⟩ := arranged
    exact validateItems_groups groups ⟨rfl, rfl, rfl⟩ recorded.genuine fresh

/-! ## The round trip -/

theorem foldl_max_le {limit : Nat} : ∀ {start : Nat}, start ≤ limit →
    (∀ size ∈ sizes, size ≤ limit) → sizes.foldl max start ≤ limit := by
  induction sizes with
  | nil => exact fun start _ => start
  | cons size sizes ih =>
    intro start small all
    exact ih (Nat.max_le.mpr ⟨small, all size List.mem_cons_self⟩)
      fun other member => all other (List.mem_cons_of_mem size member)

theorem le_foldl_max : ∀ {start : Nat}, start ≤ sizes.foldl max start := by
  induction sizes with
  | nil => exact fun {start} => Nat.le_refl start
  | cons size sizes ih => exact fun {start} => (Nat.le_max_left start size).trans ih

/-- Whether an item is readable is a matter of its members. -/
theorem readable_iff (genuine : item.part.Genuine) :
    item.Readable keeps ↔ (WireJson.object item.item).nesting ≤ 64 ∧
      ∀ callId, strictCallIdFromItem item.item = some callId → keeps callId = callId := by
  apply and_congr Iff.rfl
  rcases kind_of_genuine genuine with ⟨-, noId, noMember⟩ | ⟨kind, callId, -, hasId, strict⟩
  · have noId : item.callId = none := noId
    have noMember : memberValues item.item (js "call_id") = [] := noMember
    have noStrict : strictCallIdFromItem item.item = none := by
      rw [strictCallIdFromItem, noMember]
    rw [noId, noStrict]
    exact iff_of_true rfl fun _ none => nomatch none
  · have hasId : item.callId = some callId := hasId
    have strict : strictCallIdFromItem item.item = some callId := strict
    rw [hasId, strict, Option.map_some, Option.some_inj]
    exact ⟨fun kept other same => Option.some.inj same ▸ kept, fun kept => kept callId rfl⟩

/-- No row is left out. -/
theorem StoredReplay.Recorded.rows (recorded : replay.Recorded options formatVersion output)
    (stores : checkpoint.Stores keeps replay) :
    (orderedItems checkpoint.items).take (options.maxReplayItems + 1) =
      replay.items.map fun item => item.row.kept keeps := by
  rw [stores.items, orderedItems_rows recorded.arranged.pairwise]
  apply List.take_of_length_le
  have few := recorded.count
  rw [recorded.counted.count] at few
  rw [List.length_map]
  omega

/-- The rows of a replay that has an item pass every check on their number and their sizes. -/
theorem StoredReplay.Recorded.readable (recorded : replay.Recorded options formatVersion output)
    (stores : checkpoint.Stores keeps replay) (nonempty : replay.items ≠ [])
    (isRead : readReplayItems options formatVersion 0
      (replay.items.map fun item => item.row.kept keeps) = .ok (replay.bytes, replay.items)) :
    readReplay options checkpoint = .ok replay := by
  have count := recorded.counted.count
  have total := recorded.counted.bytes
  have few := recorded.count
  have small := recorded.bytes
  have sizes : checkpoint.items.map ReplayItemRow.itemBytes =
      replay.items.map StoredReplayItem.itemBytes := by
    rw [stores.items, List.map_map]
    rfl
  have size (item : StoredReplayItem) (member : item ∈ replay.items) :
      1 ≤ item.itemBytes ∧ item.itemBytes ≤ options.maxReplayItemBytes := by
    obtain ⟨-, -, -, -, bounds⟩ := (recorded.written item member).text
    exact bounds
  obtain ⟨first, others, isCons⟩ := List.exists_cons_of_ne_nil nonempty
  have firstSize := (size first (by rw [isCons]; exact List.mem_cons_self)).1
  have atLeast : 1 ≤ replay.items.length ∧ 1 ≤ replay.bytes := by
    rw [total, isCons, List.map_cons, List.sum_cons, List.length_cons]
    omega
  have largest : 1 ≤ (replay.items.map StoredReplayItem.itemBytes).foldl max 0 ∧
      (replay.items.map StoredReplayItem.itemBytes).foldl max 0 ≤ options.maxReplayItemBytes := by
    constructor
    · rw [isCons, List.map_cons, List.foldl_cons]
      exact firstSize.trans ((Nat.le_max_right 0 first.itemBytes).trans le_foldl_max)
    · refine foldl_max_le (Nat.zero_le _) fun bytes member => ?_
      obtain ⟨item, isItem, rfl⟩ := List.mem_map.mp member
      exact (size item isItem).2
  have rows := recorded.rows stores
  rw [readReplay]
  refine bind_eq_ok.mpr ⟨(), unavailableIf_eq_ok.mpr ?_, ?_⟩
  · rw [stores.count, stores.bytes]
    omega
  refine bind_eq_ok.mpr ⟨(), unavailableIf_eq_ok.mpr ?_, ?_⟩
  · rw [sizes, stores.items, stores.count, stores.bytes, List.length_map]
    omega
  refine bind_eq_ok.mpr ⟨(), unavailableIf_eq_ok.mpr ?_, ?_⟩
  · rw [rows, stores.count, List.length_map]
    omega
  rw [rows, stores.version, recorded.version]
  refine bind_eq_ok.mpr ⟨_, isRead, ?_⟩
  refine bind_eq_ok.mpr ⟨(), unavailableIf_eq_ok.mpr (not_not.mpr stores.bytes.symm), ?_⟩
  refine bind_eq_ok.mpr ⟨(), recorded.valid, ?_⟩
  rw [← count, ← recorded.version]

/-- A stored replay is read back exactly if it has an item and every item is readable. -/
theorem StoredReplay.Recorded.readReplay_iff (keepsText : KeepsText keeps)
    (recorded : replay.Recorded options formatVersion output)
    (stores : checkpoint.Stores keeps replay) :
    readReplay options checkpoint = .ok replay ↔
      replay.items ≠ [] ∧ ∀ item ∈ replay.items, item.Readable keeps := by
  have total := recorded.counted.bytes
  have fits : 0 + (replay.items.map StoredReplayItem.itemBytes).sum ≤ options.maxReplayBytes := by
    have small := recorded.bytes
    omega
  have sound : ∀ item ∈ replay.items, item.Written options ∧ item.part.Genuine ∧
      item.groupOrdinal < options.maxReplayItems ∧ item.itemOrdinal < options.maxReplayItems := by
    intro item member
    obtain ⟨group, place⟩ := recorded.arranged.mem member
    have few := recorded.count
    rw [recorded.counted.count] at few
    exact ⟨recorded.written item member, recorded.genuine item member, by omega, by omega⟩
  have allRead := @readReplayItems_rows options keeps keepsText formatVersion replay.items
      0 sound fits
  rw [Nat.zero_add, ← total] at allRead
  rw [← allRead]
  constructor
  · intro isRead
    rw [readReplay] at isRead
    obtain ⟨_, counts, rest⟩ := bind_eq_ok.mp isRead
    obtain ⟨_, _, rest⟩ := bind_eq_ok.mp rest
    obtain ⟨_, _, rest⟩ := bind_eq_ok.mp rest
    obtain ⟨⟨bytes, items⟩, reads, rest⟩ := bind_eq_ok.mp rest
    obtain ⟨_, _, rest⟩ := bind_eq_ok.mp rest
    obtain ⟨_, _, returned⟩ := bind_eq_ok.mp rest
    have counts := unavailableIf_eq_ok.mp counts
    rw [stores.count, recorded.counted.count] at counts
    have some : replay.items ≠ [] := by
      rintro none
      rw [none] at counts
      exact counts (.inl Nat.zero_lt_one)
    have same := Except.ok.inj returned
    have sameItems : items = replay.items := congrArg StoredReplay.items same
    have sameBytes : bytes = replay.bytes := congrArg StoredReplay.bytes same
    rw [recorded.rows stores, stores.version, recorded.version, sameItems, sameBytes] at reads
    exact ⟨some, reads⟩
  · rintro ⟨some, isRead⟩
    exact recorded.readable stores some isRead

/-- A replay that was extracted from an output is read back, the same as it was, exactly if
something is recorded of the output and the reader can read every item of it. -/
theorem readReplay_extractRecordableReplay (keepsText : KeepsText keeps)
    {formatVersion : ReplayFormatVersion} {output : ResponseOutput} {replay : StoredReplay}
    (extracted : extractRecordableReplay options output formatVersion = .ok replay)
    {checkpoint : CheckpointRow} (stores : checkpoint.Stores keeps replay) :
    readReplay options checkpoint = .ok replay ↔
      recordedItems formatVersion output ≠ [] ∧
        ∀ item ∈ recordedItems formatVersion output, (WireJson.object item).nesting ≤ 64 ∧
          ∀ callId, strictCallIdFromItem item = some callId → keeps callId = callId := by
  have recorded := recorded_extractRecordableReplay extracted
  rw [recorded.readReplay_iff keepsText stores, ← recorded.recorded, List.forall_mem_map, ne_eq,
    ne_eq, List.map_eq_nil_iff]
  apply and_congr_right
  intro _
  exact forall₂_congr fun item member => readable_iff (recorded.genuine item member)

/-- A call is recorded and read back. -/
theorem readReplay_extractRecordableReplay_call :
    ∃ replay, extractRecordableReplay .defaults
        (.items [.object [(js "type", .string (js "function_call")),
          (js "call_id", .string (js "c"))]])
        .two = .ok replay ∧
      readReplay .defaults ⟨(js "a", js "r"), 1, 0, replay.formatVersion, replay.itemCount,
        replay.bytes, replay.items.map fun item => item.row.kept columnText⟩ = .ok replay := by
  have accepted : (extractRecordableReplay .defaults
      (.items [.object [(js "type", .string (js "function_call")),
        (js "call_id", .string (js "c"))]])
      .two).toOption.isSome = true := by decide
  cases extracted : extractRecordableReplay .defaults
      (.items [.object [(js "type", .string (js "function_call")),
        (js "call_id", .string (js "c"))]])
      .two with
  | error _ =>
    rw [extracted] at accepted
    cases accepted
  | ok replay =>
    refine ⟨replay, rfl, (readReplay_extractRecordableReplay keepsText_columnText extracted
      ⟨rfl, rfl, rfl, rfl⟩).mpr ⟨by decide, ?_⟩⟩
    intro item member
    have isItem : item =
        [(js "type", .string (js "function_call")), (js "call_id", .string (js "c"))] :=
      List.mem_singleton.mp member
    rw [isItem]
    refine ⟨by decide, fun callId isId => ?_⟩
    have isC : callId = js "c" := (Option.some.inj isId).symm
    rw [isC]
    exact keepsText_columnText ['c'] (nulFree_nil.cons (by decide))

def nestedArrays : Nat → WireJson
  | 0 => .array []
  | depth + 1 => .array [nestedArrays depth]

/-- A call that nests too deep for the reader. -/
def deepCall : WireJsonObject :=
  [(js "type", .string (js "tool_search_call")), (js "call_id", .string (js "c")),
    (js "arguments", nestedArrays 63)]

set_option maxRecDepth 20000 in
/-- A call that the writer accepts is rejected by the reader. -/
theorem not_readReplay_extractRecordableReplay : ¬ ∀ (keeps : JsString → JsString)
    (options : HistoryOptions) (formatVersion : ReplayFormatVersion) (output : ResponseOutput)
    (replay : StoredReplay) (checkpoint : CheckpointRow), KeepsText keeps →
    extractRecordableReplay options output formatVersion = .ok replay → replay.items ≠ [] →
    checkpoint.Stores keeps replay → readReplay options checkpoint = .ok replay := by
  intro roundTrip
  have accepted : (extractRecordableReplay .defaults (.items [.object deepCall])
      .two).toOption.isSome =
    true := by decide
  cases extracted : extractRecordableReplay .defaults (.items [.object deepCall]) .two with
  | error _ =>
    rw [extracted] at accepted
    cases accepted
  | ok replay =>
    have recorded := recorded_extractRecordableReplay extracted
    have isItems : replay.items.map StoredReplayItem.item = [deepCall] := recorded.recorded
    obtain ⟨item, isSingle, isDeep⟩ := List.map_eq_singleton_iff.mp isItems
    let checkpoint : CheckpointRow :=
      ⟨(js "a", js "r"), 1, 0, replay.formatVersion, replay.itemCount,
      replay.bytes, replay.items.map fun item => item.row.kept columnText⟩
    have stores : checkpoint.Stores columnText replay := ⟨rfl, rfl, rfl, rfl⟩
    have isRead := roundTrip columnText .defaults .two (.items [.object deepCall]) replay checkpoint
      keepsText_columnText extracted (by rw [isSingle]; exact List.cons_ne_nil _ _) stores
    have readable := ((recorded.readReplay_iff keepsText_columnText stores).mp isRead).2 item
      (by rw [isSingle]; exact List.mem_singleton_self item)
    have deep : ¬ (WireJson.object deepCall).nesting ≤ 64 := by decide
    rw [← isDeep] at deep
    exact deep readable.1

end GhcGateway.History
