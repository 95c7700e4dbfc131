/-
# Replayable output

Of a response's output the history keeps the tool calls and, in the second format,
the reasoning items in front of them, so that the client's next request can be
completed with them. `extractRecordableReplay` picks them out and encodes them;
`readReplay` reads a stored checkpoint back and checks everything it could have
been stored with.
-/

import GhcGateway.History.Types

namespace GhcGateway.History

open Library

/-- `readonly WireJson[] | WireJson`. -/
inductive ResponseOutput
  | items (items : List WireJson)
  | value (value : WireJson)

/-- `RESPONSE_CALL_KINDS.includes(type)`, with the kind found. -/
def ResponsesCallKind.ofText? (type : JsString) : Option ResponsesCallKind :=
  [.functionCall, .customToolCall, .toolSearchCall].find? fun kind => js kind.text = type

/-! ## Items -/

def firstMemberValue (item : WireJsonObject) (key : String) : Option WireJson :=
  (memberValues item (js key)).head?

def outputItems : ResponseOutput → List WireJson
  | .items items => items
  | .value (.array items) => items
  | .value (.object output) =>
    match firstMemberValue output "output" with
    | some (.array items) => items
    | _ => [.object output]
  | .value _ => []

/-- `isCallItem`, with the kind of the call. -/
def callKind? (item : WireJsonObject) : Option ResponsesCallKind :=
  match memberValues item (js "type") with
  | [.string type] => ResponsesCallKind.ofText? type
  | _ => none

def isReasoningItem (item : WireJsonObject) : Bool :=
  memberValues item (js "type") = [.string (js "reasoning")]

def isDeclaredReplayItem (item : WireJsonObject) : Bool :=
  (memberValues item (js "type")).any fun
    | .string type => type = js "reasoning" || (ResponsesCallKind.ofText? type).isSome
    | _ => false

def reasoningCarrier (item : WireJsonObject) : Option JsString :=
  match memberValues item (js "encrypted_content") with
  | [.string value] => if value = [] then none else some value
  | _ => none

def strictCallIdFromItem (item : WireJsonObject) : Option JsString :=
  match memberValues item (js "call_id"), memberValues item (js "id") with
  | [.string callId], [] => if callId = [] then none else some callId
  | [.string callId], [.string id] => if callId = [] ∨ id = [] then none else some callId
  | _, _ => none

def legacyStoredId : WireJson → Option JsString
  | .string value => if value.trim = [] then none else some value.trim
  | _ => none

def legacyStoredCallIdFromItem (item : WireJsonObject) : Option JsString :=
  match memberValues item (js "call_id"), memberValues item (js "id") with
  | [], [] => none
  | [], [id] => legacyStoredId id
  | [callId], [] => legacyStoredId callId
  | [callId], [id] =>
    match legacyStoredId callId, legacyStoredId id with
    | some callId, some _ => some callId
    | _, _ => none
  | _, _ => none

def minimalCallFields : List JsString :=
  ["type", "id", "call_id", "name", "namespace", "arguments", "input", "status", "execution",
    "reasoning_content", "reasoning"].map js

def minimalCallItem (item : WireJsonObject) : WireJsonObject :=
  item.filter fun member => member.1 ∈ minimalCallFields

/-! ## Extraction -/

/-- An item of the group that is being collected. -/
structure GroupItem where
  kind : ReplayItemKind
  callId : Option JsString
  item : WireJsonObject

/-- The variables of `extractRecordableReplay`. -/
structure Extraction where
  items : List StoredReplayItem
  callIds : List JsString
  reasoningCarriers : List JsString
  group : List GroupItem
  groupOrdinal : Nat
  bytes : Nat

/-- Before the first output item. -/
def Extraction.start : Extraction := ⟨[], [], [], [], 0, 0⟩

/-- `unavailableCheckpoint()` if a condition holds. -/
def unavailableIf (condition : Prop) [Decidable condition] : Except HistoryError Unit :=
  if condition then .error unavailableCheckpoint else .ok ()

/-- `encodeReplayItem`: the text of an item and its size. -/
def encodeReplayItem (item : WireJsonObject) (maxItemBytes : Nat) :
    Except HistoryError (JsString × Nat) :=
  match serializeWireJson (.object item) with
  | .error _ => .error unavailableCheckpoint
  | .ok encoded =>
    if encoded.length = 0 ∨ maxItemBytes < encoded.length then .error unavailableCheckpoint
    else .ok (decodeText encoded, encoded.length)

section Extract

variable (options : HistoryOptions)

/-- `items.push`, within the limits on the number of items and their size. -/
def Extraction.push (state : Extraction) (groupOrdinal itemOrdinal : Nat) (item : GroupItem) :
    Except HistoryError Extraction := do
  let (itemJson, itemBytes) ← encodeReplayItem item.item options.maxReplayItemBytes
  unavailableIf (options.maxReplayItems ≤ state.items.length ∨
    options.maxReplayBytes < state.bytes + itemBytes)
  .ok { state with
    items := state.items ++
      [⟨groupOrdinal, itemOrdinal, item.kind, item.callId, item.item, itemJson, itemBytes⟩]
    bytes := state.bytes + itemBytes }

/-- The loop of `finishGroup`. -/
def Extraction.pushGroup : Extraction → Nat → List GroupItem → Except HistoryError Extraction
  | state, _, [] => .ok state
  | state, itemOrdinal, item :: rest => do
    let state ← state.push options state.groupOrdinal itemOrdinal item
    state.pushGroup (itemOrdinal + 1) rest

def hasCall (group : List GroupItem) : Bool := group.any fun item => item.kind ≠ .reasoning

/-- `finishGroup`: a group without a call is dropped. -/
def Extraction.finishGroup (state : Extraction) : Except HistoryError Extraction :=
  if hasCall state.group then do
    let state ← state.pushGroup options 0 state.group
    .ok { state with group := [], groupOrdinal := state.groupOrdinal + 1 }
  else .ok { state with group := [] }

/-- A reasoning item's carrier, which no other item may have. -/
def Extraction.rememberCarrier (state : Extraction) (item : WireJsonObject) :
    Except HistoryError Extraction :=
  match reasoningCarrier item with
  | none => .ok state
  | some carrier => do
    unavailableIf (carrier ∈ state.reasoningCarriers)
    .ok { state with reasoningCarriers := carrier :: state.reasoningCarriers }

/-- A reasoning item ends a group that has a call. -/
def Extraction.finishCalls (state : Extraction) : Except HistoryError Extraction :=
  if hasCall state.group then state.finishGroup options else .ok state

def Extraction.addReasoning (formatVersion : ReplayFormatVersion) (state : Extraction)
    (item : WireJsonObject) : Except HistoryError Extraction := do
  unavailableIf (memberValues item (js "call_id") ≠ [])
  match formatVersion with
  | .one => .ok state
  | .two => do
    let state ← state.rememberCarrier item
    let state ← state.finishCalls options
    .ok { state with group := state.group ++ [⟨.reasoning, none, item⟩] }

def Extraction.addCall (formatVersion : ReplayFormatVersion) (state : Extraction)
    (kind : ResponsesCallKind) (outputItem : WireJsonObject) : Except HistoryError Extraction :=
  match strictCallIdFromItem outputItem with
  | none => .error unavailableCheckpoint
  | some callId => do
    unavailableIf (callId ∈ state.callIds)
    let state := { state with callIds := callId :: state.callIds }
    let item := minimalCallItem outputItem
    let _ ← encodeReplayItem item options.maxReplayItemBytes
    match formatVersion with
    | .one => state.push options 0 state.items.length ⟨.call kind, some callId, item⟩
    | .two => .ok { state with group := state.group ++ [⟨.call kind, some callId, item⟩] }

def Extraction.add (formatVersion : ReplayFormatVersion) (state : Extraction) :
    WireJson → Except HistoryError Extraction
  | .object outputItem =>
    if isReasoningItem outputItem then state.addReasoning options formatVersion outputItem
    else
      match callKind? outputItem with
      | some kind => state.addCall options formatVersion kind outputItem
      | none => do
        unavailableIf (isDeclaredReplayItem outputItem)
        .ok state
  | _ => .ok state

/-- The last group, in the format that has groups. -/
def Extraction.finish (formatVersion : ReplayFormatVersion) (state : Extraction) :
    Except HistoryError Extraction :=
  match formatVersion with
  | .one => .ok state
  | .two => state.finishGroup options

def extractRecordableReplay (output : ResponseOutput) (formatVersion : ReplayFormatVersion) :
    Except HistoryError StoredReplay := do
  let state ← (outputItems output).foldlM (Extraction.add options formatVersion) Extraction.start
  let state ← state.finish options formatVersion
  .ok ⟨formatVersion, state.items, state.items.length, state.bytes⟩

end Extract

/-! ## Reading back -/

def restoreLegacyStoredCallId (item : WireJsonObject) (callId : JsString) : WireJsonObject :=
  let members := item.map fun member =>
    if member.1 = js "call_id" then (member.1, .string callId) else member
  if item.any fun member => member.1 = js "call_id" then members
  else members ++ [(js "call_id", .string callId)]

def replayItemFromRow (formatVersion : ReplayFormatVersion) (row : ReplayItemRow)
    (item : WireJsonObject) : Except HistoryError StoredReplayItem := do
  unavailableIf (memberValues item (js "type") ≠ [.string (js row.kind.text)])
  match row.kind, row.callId with
  | .reasoning, none => do
    unavailableIf (memberValues item (js "call_id") ≠ [])
    .ok ⟨row.groupOrdinal, row.itemOrdinal, .reasoning, none, item, row.itemJson, row.itemBytes⟩
  | .call kind, some rowCallId => do
    let callId := strictCallIdFromItem item
    let legacyCallId :=
      if formatVersion = .one then legacyStoredCallIdFromItem item else none
    unavailableIf (callId ≠ some rowCallId ∧ legacyCallId ≠ some rowCallId)
    let restoredItem :=
      if callId = some rowCallId then item else restoreLegacyStoredCallId item rowCallId
    .ok ⟨row.groupOrdinal, row.itemOrdinal, .call kind, some rowCallId, restoredItem, row.itemJson,
      row.itemBytes⟩
  | _, _ => .error unavailableCheckpoint

/-- The variables of `validateStoredReplay`. -/
structure Validation where
  callIds : List JsString
  reasoningCarriers : List JsString
  expectedGroup : Nat
  expectedItem : Nat
  groupHasCall : Bool

/-- No two reasoning items have the same carrier. -/
def validateCarrier (state : Validation) (item : WireJsonObject) :
    Except HistoryError Validation :=
  match reasoningCarrier item with
  | none => .ok state
  | some carrier => do
    unavailableIf (carrier ∈ state.reasoningCarriers)
    .ok { state with reasoningCarriers := carrier :: state.reasoningCarriers }

/-- What the second format asks of a stored reasoning item. -/
def validateReasoning (state : Validation) (item : WireJsonObject) :
    Except HistoryError Validation := do
  let state ← validateCarrier state item
  unavailableIf (state.groupHasCall = true)
  .ok state

/-- What the second format asks of an item. -/
def validateKind (state : Validation) (item : StoredReplayItem) : Except HistoryError Validation :=
  match item.kind with
  | .reasoning => validateReasoning state item.item
  | .call _ => .ok { state with groupHasCall := true }

/-- What the second format asks of an item and of the one after it. -/
def validateGrouping (state : Validation) (item : StoredReplayItem)
    (next : Option StoredReplayItem) : Except HistoryError Validation := do
  unavailableIf (item.groupOrdinal ≠ state.expectedGroup ∨ item.itemOrdinal ≠ state.expectedItem)
  let state ← validateKind state item
  if next.map StoredReplayItem.groupOrdinal = some state.expectedGroup then
    .ok { state with expectedItem := state.expectedItem + 1 }
  else do
    unavailableIf (state.groupHasCall = false)
    .ok { state with
      expectedGroup := state.expectedGroup + 1
      expectedItem := 0
      groupHasCall := false }

/-- What a format asks of an item and of the one after it. -/
def validatePlace (formatVersion : ReplayFormatVersion) (state : Validation)
    (item : StoredReplayItem) (next : Option StoredReplayItem) : Except HistoryError Validation :=
  match formatVersion with
  | .one => do
    unavailableIf (item.kind = .reasoning ∨ item.groupOrdinal ≠ 0 ∨
      item.itemOrdinal ≠ state.expectedItem)
    .ok { state with expectedItem := state.expectedItem + 1 }
  | .two => validateGrouping state item next

/-- No two calls have the same id. -/
def validateCall (state : Validation) (item : StoredReplayItem) : Except HistoryError Validation :=
  match item.kind, item.callId with
  | .call _, some callId => do
    unavailableIf (callId ∈ state.callIds)
    .ok { state with callIds := callId :: state.callIds }
  | _, _ => .ok state

/-- The loop of `validateStoredReplay`. -/
def validateItems (formatVersion : ReplayFormatVersion) :
    Validation → List StoredReplayItem → Except HistoryError Unit
  | _, [] => .ok ()
  | state, item :: rest => do
    let state ← validatePlace formatVersion state item rest.head?
    let state ← validateCall state item
    validateItems formatVersion state rest

def validateStoredReplay (formatVersion : ReplayFormatVersion) (items : List StoredReplayItem) :
    Except HistoryError Unit :=
  validateItems formatVersion ⟨[], [], 0, 0, false⟩ items

/-- The rows of a checkpoint in the order they are read. -/
def orderedItems (items : List ReplayItemRow) : List ReplayItemRow :=
  items.insertionSort fun left right =>
    left.groupOrdinal < right.groupOrdinal ∨
      (left.groupOrdinal = right.groupOrdinal ∧ left.itemOrdinal ≤ right.itemOrdinal)

section Read

variable (options : HistoryOptions)

/-- One row read back; `bytes` is the size of the rows before it. -/
def readReplayItem (formatVersion : ReplayFormatVersion) (bytes : Nat) (row : ReplayItemRow) :
    Except HistoryError (Nat × StoredReplayItem) := do
  unavailableIf (options.maxReplayItems - 1 < row.groupOrdinal ∨
    options.maxReplayItems - 1 < row.itemOrdinal ∨
    row.itemBytes < 1 ∨ options.maxReplayItemBytes < row.itemBytes)
  let encoded := encodeUtf8 row.itemJson
  unavailableIf (encoded.length ≠ row.itemBytes)
  unavailableIf (options.maxReplayBytes < bytes + row.itemBytes)
  match parseWireJson encoded ⟨options.maxReplayItemBytes, 64⟩ with
  | .ok (.object item) => do
    let item ← replayItemFromRow formatVersion row item
    .ok (bytes + row.itemBytes, item)
  | _ => .error unavailableCheckpoint

/-- Every row read back, and the size of all of them. -/
def readReplayItems (formatVersion : ReplayFormatVersion) :
    Nat → List ReplayItemRow → Except HistoryError (Nat × List StoredReplayItem)
  | bytes, [] => .ok (bytes, [])
  | bytes, row :: rows => do
    let (bytes, item) ← readReplayItem options formatVersion bytes row
    let (bytes, items) ← readReplayItems formatVersion bytes rows
    .ok (bytes, item :: items)

def readReplay (checkpoint : CheckpointRow) : Except HistoryError StoredReplay := do
  unavailableIf (checkpoint.replayItemCount < 1 ∨
    options.maxReplayItems < checkpoint.replayItemCount ∨
    checkpoint.replayBytes < 1 ∨ options.maxReplayBytes < checkpoint.replayBytes)
  let maxItemBytes := (checkpoint.items.map ReplayItemRow.itemBytes).foldl max 0
  unavailableIf (checkpoint.items.length ≠ checkpoint.replayItemCount ∨
    (checkpoint.items.map ReplayItemRow.itemBytes).sum ≠ checkpoint.replayBytes ∨
    maxItemBytes < 1 ∨ options.maxReplayItemBytes < maxItemBytes)
  let rows := (orderedItems checkpoint.items).take (options.maxReplayItems + 1)
  unavailableIf (rows.length ≠ checkpoint.replayItemCount)
  let (bytes, items) ← readReplayItems options checkpoint.replayFormatVersion 0 rows
  unavailableIf (bytes ≠ checkpoint.replayBytes)
  validateStoredReplay checkpoint.replayFormatVersion items
  .ok ⟨checkpoint.replayFormatVersion, items, items.length, bytes⟩

end Read

/-- `StoredResponse`. `byCallId` looks a call up in `calls`. -/
structure StoredResponse where
  formatVersion : ReplayFormatVersion
  items : List StoredReplayItem
  calls : List StoredReplayItem

def responseFromReplay (replay : StoredReplay) : Except HistoryError StoredResponse :=
  let calls := replay.items.filter fun item => item.kind ≠ .reasoning
  if (calls.map StoredReplayItem.callId).Nodup then
    .ok ⟨replay.formatVersion, replay.items, calls⟩
  else .error unavailableCheckpoint

/-- `replayItemsEqual`: everything but the parsed item is compared. -/
def replayItemsEqual (left right : List StoredReplayItem) : Bool :=
  left.map StoredReplayItem.row = right.map StoredReplayItem.row

end GhcGateway.History
