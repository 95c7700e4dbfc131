/-
# Completing a request from a checkpoint

A client that continues a response may send only the outputs of its tool calls.
`enrich` puts back what the checkpoint has stored of that response. It goes over
the client's items twice: once to see which calls and carriers the client has sent
itself, and once to build the items of the completed request.

The first format stores calls only: calls that the client has sent stay where they
are, with their empty fields filled, and the others are inserted. The second stores
reasoning as well: all of it is inserted as one group, and what the client has sent
of it is taken out of its place and put into the group.
-/

import GhcGateway.History.Store

namespace GhcGateway.History

open Library

structure ResponsesRequest where
  body : WireJsonObject
  model : Option JsString
  stream : Bool
  store : Option Bool
  input : Option WireJson
  previousResponseId : Option JsString

def withResponsesRequestInput (request : ResponsesRequest) (input : WireJson) : ResponsesRequest :=
  let members := request.body.map fun member =>
    if member.1 = js "input" then (member.1, input) else member
  let replaced := request.body.any fun member => member.1 = js "input"
  { request with
    body := if replaced then members else members ++ [(js "input", input)]
    input := some input }

/-! ## Items -/

def inputItems : Option WireJson → Option (List WireJson)
  | some (.array items) => some items
  | some (.object item) => some [.object item]
  | _ => none

def responseCallOutputKinds : List JsString :=
  ["function_call_output", "custom_tool_call_output", "tool_search_output"].map js

def isCallItem (item : WireJsonObject) : Bool := (callKind? item).isSome

def isOutputItem (item : WireJsonObject) : Bool :=
  match memberValues item (js "type") with
  | [.string type] => type ∈ responseCallOutputKinds
  | _ => false

def isDeclaredOutputItem (item : WireJsonObject) : Bool :=
  (memberValues item (js "type")).any fun
    | .string type => type ∈ responseCallOutputKinds
    | _ => false

def fillFields : List JsString :=
  ["name", "namespace", "arguments", "input", "status", "execution", "reasoning_content",
    "reasoning"].map js

def isEmptyValue : WireJson → Bool
  | .null => true
  | .string value => value = []
  | _ => false

/-- The value a member is replaced by, if it is to be filled and the cached item has
one. -/
def fillMember (cached : WireJsonObject) (member : JsString × WireJson) : JsString × WireJson :=
  if member.1 ∈ fillFields ∧ isEmptyValue member.2 then
    match (memberValues cached member.1).head? with
    | none => member
    | some value => (member.1, value)
  else member

def fillEmptyFields (item cached : WireJsonObject) : WireJsonObject :=
  let existingKeys := item.map Prod.fst
  let additions := cached.filter fun member =>
    member.1 ∈ fillFields && (memberValues item member.1).head?.all isEmptyValue
  item.map (fillMember cached) ++ additions.filter fun addition => addition.1 ∉ existingKeys

def restoreCall (cached : StoredReplayItem) : Option WireJsonObject → WireJsonObject
  | none => cached.item
  | some original => fillEmptyFields original cached.item

/-! ## The checkpoint -/

/-- `byCallId.get`. -/
def StoredResponse.call? (checkpoint : StoredResponse) (callId : JsString) :
    Option StoredReplayItem :=
  checkpoint.calls.find? fun call => call.callId = some callId

def StoredResponse.hasCallId (checkpoint : StoredResponse) (callId : JsString) : Bool :=
  (checkpoint.call? callId).isSome

def StoredReplayItem.carrier? (item : StoredReplayItem) : Option JsString :=
  match item.kind with
  | .reasoning => reasoningCarrier item.item
  | .call _ => none

def StoredResponse.carriers (checkpoint : StoredResponse) : List JsString :=
  checkpoint.items.filterMap StoredReplayItem.carrier?

/-! ## The client's items -/

/-- What the first pass has found. -/
structure Survey where
  originalCallsById : OrderedMap JsString WireJsonObject
  originalReasoningByCarrier : OrderedMap JsString WireJsonObject
  originalCarriers : List JsString
  knownOutputs : Nat
  knownCalls : Nat

/-- Before the first item. -/
def Survey.start : Survey := ⟨OrderedMap.empty, OrderedMap.empty, [], 0, 0⟩

section Passes

variable (checkpoint : StoredResponse)

/-- The first pass at an item that may be an output. -/
def Survey.addOutput (survey : Survey) (item : WireJsonObject) : Except HistoryError Survey :=
  if isOutputItem item then
    match strictCallIdFromItem item with
    | none => .error unavailableCheckpoint
    | some outputCallId =>
      if checkpoint.hasCallId outputCallId then
        .ok { survey with knownOutputs := survey.knownOutputs + 1 }
      else .ok survey
  else .ok survey

def Survey.addCall (survey : Survey) (item : WireJsonObject) : Except HistoryError Survey :=
  match strictCallIdFromItem item with
  | none => .error unavailableCheckpoint
  | some callId => do
    unavailableIf (survey.originalCallsById.has callId)
    .ok { survey with
      originalCallsById := survey.originalCallsById.set callId item
      knownCalls :=
        if checkpoint.hasCallId callId then survey.knownCalls + 1 else survey.knownCalls }

/-- The first pass at a reasoning item. Carriers from earlier responses stay where
the client put them. -/
def Survey.addReasoning (survey : Survey) (item : WireJsonObject) : Except HistoryError Survey :=
  match reasoningCarrier item with
  | none => .ok survey
  | some carrier => do
    unavailableIf (carrier ∈ survey.originalCarriers)
    .ok { survey with
      originalCarriers := survey.originalCarriers ++ [carrier]
      originalReasoningByCarrier :=
        if carrier ∈ checkpoint.carriers then survey.originalReasoningByCarrier.set carrier item
        else survey.originalReasoningByCarrier }

/-- The first pass at an item. -/
def Survey.add (survey : Survey) : WireJson → Except HistoryError Survey
  | .object item => do
    unavailableIf (isDeclaredReplayItem item && !isCallItem item && !isReasoningItem item)
    unavailableIf (isDeclaredOutputItem item && !isOutputItem item)
    let survey ← survey.addOutput checkpoint item
    if isCallItem item then survey.addCall checkpoint item
    else if isReasoningItem item then survey.addReasoning checkpoint item
    else .ok survey
  | _ => .ok survey

/-- The variables of the second pass. -/
structure Enrichment where
  changed : Bool
  sawOutput : Bool
  scopedGroupInserted : Bool
  emittedCallIds : List JsString
  items : List WireJson

/-- Before the first item. -/
def Enrichment.start : Enrichment := ⟨false, false, false, [], []⟩

def Enrichment.push (state : Enrichment) (item : WireJson) : Enrichment :=
  { state with items := state.items ++ [item] }

/-- A stored call is inserted, unless it is there already. -/
def Enrichment.insertCall (survey : Survey) (state : Enrichment) (call : StoredReplayItem) :
    Enrichment :=
  match call.callId with
  | none => state
  | some callId =>
    if callId ∈ state.emittedCallIds then state
    else { state with
      items := state.items ++ [.object (restoreCall call (survey.originalCallsById.get callId))]
      emittedCallIds := state.emittedCallIds ++ [callId]
      changed := true }

/-- A stored reasoning item as it is inserted: the client's, if it has sent one with
the carrier. -/
def Survey.restoreReasoning (survey : Survey) (item : WireJsonObject) : WireJsonObject :=
  match reasoningCarrier item with
  | none => item
  | some carrier => (survey.originalReasoningByCarrier.get carrier).getD item

def Enrichment.insertItem (survey : Survey) (state : Enrichment) (item : StoredReplayItem) :
    Enrichment :=
  match item.kind with
  | .reasoning =>
    { state with
      items := state.items ++ [.object (survey.restoreReasoning item.item)]
      changed := true }
  | .call _ => state.insertCall survey item

/-- What is inserted in front of the first output of a checkpointed call. -/
def Enrichment.insertGroup (survey : Survey) (state : Enrichment) : Enrichment :=
  let inserted :=
    match checkpoint.formatVersion with
    | .one => checkpoint.calls.foldl (Enrichment.insertCall survey) state
    | .two => checkpoint.items.foldl (Enrichment.insertItem survey) state
  { inserted with scopedGroupInserted := true }

/-- Whether the stored items are inserted in front of an output. -/
def Enrichment.insertsBefore (state : Enrichment) (outputCallId : JsString) : Bool :=
  match checkpoint.formatVersion with
  | .one => outputCallId ∉ state.emittedCallIds && checkpoint.hasCallId outputCallId &&
      !state.scopedGroupInserted
  | .two => checkpoint.hasCallId outputCallId && !state.scopedGroupInserted

def Enrichment.addCall (state : Enrichment) (item : WireJsonObject) : Enrichment :=
  match strictCallIdFromItem item with
  | none => state.push (.object item)
  | some callId =>
    if checkpoint.formatVersion = .two ∧ checkpoint.hasCallId callId = true then
      { state with changed := true }
    else if callId ∈ state.emittedCallIds then { state with changed := true }
    else
      let filled :=
        match checkpoint.call? callId with
        | none => item
        | some cached => fillEmptyFields item cached.item
      { state with
        changed := state.changed || filled ≠ item
        items := state.items ++ [.object filled]
        emittedCallIds := state.emittedCallIds ++ [callId] }

def Enrichment.addOutput (survey : Survey) (state : Enrichment) (item : WireJsonObject) :
    Except HistoryError Enrichment :=
  match strictCallIdFromItem item with
  | none => .error (.continuation .checkpointUnavailable "tool output has no call id")
  | some outputCallId =>
    let state := { state with sawOutput := true }
    let state :=
      if state.insertsBefore checkpoint outputCallId then state.insertGroup checkpoint survey
      else state
    .ok (state.push (.object item))

/-- Whether the client's reasoning item goes into the group of stored items. -/
def Survey.movesReasoning (survey : Survey) (item : WireJsonObject) : Bool :=
  match reasoningCarrier item with
  | none => false
  | some carrier => survey.originalReasoningByCarrier.has carrier

/-- The second pass at an item. -/
def Enrichment.add (survey : Survey) (state : Enrichment) :
    WireJson → Except HistoryError Enrichment
  | .object item =>
    if isReasoningItem item ∧ survey.movesReasoning item then .ok { state with changed := true }
    else if isCallItem item then .ok (state.addCall checkpoint item)
    else if isOutputItem item then state.addOutput checkpoint survey item
    else .ok (state.push (.object item))
  | item => .ok (state.push item)

/-- Both passes. The flag says whether anything has changed. -/
def enrichItems (originalItems : List WireJson) : Except HistoryError (Bool × List WireJson) := do
  let survey ← originalItems.foldlM (Survey.add checkpoint) Survey.start
  unavailableIf (survey.knownOutputs = 0 ∧
    (checkpoint.formatVersion = .two ∨ survey.knownCalls = 0))
  let state ← originalItems.foldlM (Enrichment.add checkpoint survey) Enrichment.start
  if state.sawOutput then .ok (state.changed, state.items)
  else .error (.continuation .checkpointUnavailable
    "minimal Responses history cannot replay arbitrary conversation content")

end Passes

/-! ## The request -/

section Store

variable (options : HistoryOptions)

/-- The stored response of a receipt, if it has the format that the receipt asks
for. -/
def Database.readScoped (db : Database) (receipt : ResponsesRouteReceipt)
    (expectedFormatVersion : ReplayFormatVersion) : Except HistoryError StoredResponse := do
  match ← db.readResponse options (storedKey receipt.accountId receipt.responseId) with
  | none => .error unavailableCheckpoint
  | some checkpoint => do
    unavailableIf (checkpoint.formatVersion ≠ expectedFormatVersion)
    .ok checkpoint

def Database.isComplete (db : Database) (receipt : ResponsesRouteReceipt) : Bool :=
  match db.readReceipt (storedKey receipt.accountId receipt.responseId) with
  | none => false
  | some persistedReceipt =>
    receipt.checkpointState = .complete && persistedReceipt.checkpointState = .complete &&
      persistedReceipt.ownership = receipt.toOwnership

/-- What `enrich` computes from the database. -/
def Database.enrich (db : Database) (request : ResponsesRequest) (receipt : ResponsesRouteReceipt) :
    Except HistoryError ResponsesRequest := do
  if receipt.owner ≠ .converted then
    .error (.continuation .checkpointUnavailable "continuation has no local checkpoint")
  else
    let expectedFormatVersion ← replayFormatVersion receipt.toOwnership
    unavailableIf (db.isComplete receipt = false)
    match inputItems request.input with
    | none =>
      .error (.continuation .checkpointUnavailable "continuation input is not replayable")
    | some originalItems => do
      let checkpoint ← db.readScoped options receipt expectedFormatVersion
      let (changed, enrichedItems) ← enrichItems checkpoint originalItems
      .ok (if changed then withResponsesRequestInput request (.array enrichedItems) else request)

def HistoryStore.enrich (host : HistoryHost) (request : ResponsesRequest)
    (receipt : ResponsesRouteReceipt) (store : HistoryStore) : Answer ResponsesRequest :=
  if host.abortedBefore then (.error .aborted, store)
  else
    let db := sweep options store.ttlMs host.transaction store.db
    (throwIfAborted host.abortedAfter (db.enrich options request receipt),
      { store with db := db })

end Store

end GhcGateway.History
