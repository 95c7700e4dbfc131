/-
# The semantic item ledger

The ledger accumulates the items of a stream from their fragments: messages made
of content parts, reasoning items made of parts, and tool calls. It is what the
emitters are checked against at the end, when `items` reads the whole response
back. It also bounds the bytes a stream may make the gateway hold.

Text and refusal of a content part are accumulated side by side, so every
operation on them takes the kind as an argument.
-/

import GhcGateway.Conversion.Types
import GhcGateway.Library.Fallible
import GhcGateway.Library.OrderedMap

namespace GhcGateway.Conversion

open Library

structure ToolState where
  itemId : Option JsString
  callId : JsString
  name : JsString
  argumentsJson : JsString
  done : Bool
  deriving DecidableEq

structure MessageState where
  partKeys : List StreamKey
  frozen : Bool

structure MessagePartState where
  groupKey : StreamKey
  text : JsString
  refusal : JsString
  textSeen : Bool
  refusalSeen : Bool
  frozen : Bool

/-- The text accumulated under a kind. -/
def MessagePartState.value (part : MessagePartState) : ContentKind → JsString
  | .text => part.text
  | .refusal => part.refusal

def MessagePartState.seen (part : MessagePartState) : ContentKind → Bool
  | .text => part.textSeen
  | .refusal => part.refusalSeen

def MessagePartState.see (part : MessagePartState) : ContentKind → MessagePartState
  | .text => { part with textSeen := true }
  | .refusal => { part with refusalSeen := true }

/-- Append to the text accumulated under a kind. -/
def MessagePartState.append (part : MessagePartState) (kind : ContentKind) (delta : JsString) :
    MessagePartState :=
  match kind with
  | .text => { part with text := part.text ++ delta }
  | .refusal => { part with refusal := part.refusal ++ delta }

structure ReasoningState where
  itemId : Option JsString
  partKeys : List StreamKey
  status : Option ItemStatus
  frozen : Bool
  messagesState : Option MessagesReasoningState
  opaqueState : Option OpaqueReasoningState

structure ReasoningPartState where
  itemKey : StreamKey
  presentation : Presentation
  index : Nat
  text : JsString
  frozen : Bool

/-- An entry of the order in which items were started. -/
inductive LedgerEntry
  | message (key : StreamKey)
  | reasoning (key : StreamKey)
  | tool (key : StreamKey)
  deriving DecidableEq

def LedgerEntry.key : LedgerEntry → StreamKey
  | .message key => key
  | .reasoning key => key
  | .tool key => key

structure SemanticItemLedger where
  maxBytes : Nat
  usedBytes : Nat
  tools : OrderedMap StreamKey ToolState
  callIds : List JsString
  messages : OrderedMap StreamKey MessageState
  messageParts : OrderedMap StreamKey MessagePartState
  reasoning : OrderedMap StreamKey ReasoningState
  reasoningParts : OrderedMap StreamKey ReasoningPartState
  order : List LedgerEntry

/-! ## Opaque reasoning state -/

/-- `canonicalizeWireJson` where an error of the writer passes through. -/
def canonicalBytes (value : WireJson) : Fallible (List UInt8) :=
  Fallible.ofWireJson (canonicalizeWireJson value)

def normalizedResponseOpaqueItem (item : WireJsonObject) : WireJsonObject :=
  item.filter fun member => member.1 ≠ js "id" ∧ member.1 ≠ js "status"

def sameOpaqueState : OpaqueReasoningState → OpaqueReasoningState → Fallible Bool
  | .responsesItem left, .responsesItem right => do
    let leftBytes ← canonicalBytes (.object (normalizedResponseOpaqueItem left))
    let rightBytes ← canonicalBytes (.object (normalizedResponseOpaqueItem right))
    return leftBytes = rightBytes
  | .messagesBlock left, .messagesBlock right => do
    let leftBytes ← canonicalBytes (.object left)
    let rightBytes ← canonicalBytes (.object right)
    return leftBytes = rightBytes
  | .chatState left, .chatState right => do
    let leftBytes ← canonicalBytes (.object left)
    let rightBytes ← canonicalBytes (.object right)
    return leftBytes = rightBytes
  | _, _ => return false

def opaqueStateByteLength (state : OpaqueReasoningState) : Fallible Nat := do
  let bytes ← canonicalBytes (.object state.value)
  return bytes.length

def sameWireJsonValue (left right : WireJson) : Fallible Bool := do
  let leftBytes ← canonicalBytes left
  let rightBytes ← canonicalBytes right
  return leftBytes = rightBytes

/-- Whether a value offered for a member of the existing state accepts it:
reasoning text may have grown, anything else has to be the same. -/
def acceptsMember (member : JsString × WireJson) (candidate : WireJson) : Fallible Bool :=
  if member.1 = js "reasoning_content" then
    match member.2, candidate with
    | .string existing, .string value => return existing.isPrefixOf value
    | _, _ => return false
  else sameWireJsonValue member.2 candidate

/-- Whether one of the values offered for a member accepts it. -/
def extendsMember (member : JsString × WireJson) : List WireJson → Fallible Bool
  | [] => return false
  | candidate :: candidates => do
    let accepted ← acceptsMember member candidate
    if accepted then return true else extendsMember member candidates

/-- `extendsChatOpaqueState` on the members. -/
def extendsMembers (incoming : WireJsonObject) : WireJsonObject → Fallible Bool
  | [] => return true
  | member :: members => do
    let accepted ← extendsMember member (memberValues incoming member.1)
    if accepted then extendsMembers incoming members else return false

def extendsChatOpaqueState : OpaqueReasoningState → OpaqueReasoningState → Fallible Bool
  | .chatState existing, .chatState incoming => extendsMembers incoming existing
  | _, _ => return false

/-! ## Tool arguments -/

def validateArguments (value : JsString) : Fallible Unit :=
  let bytes := encodeUtf8 value
  match parseWireJson bytes ⟨max 1 bytes.length, 32⟩ with
  | .ok (.object _) => .ok ()
  | .ok _ => .error invalid
  | .error _ =>
    .error (.gateway ⟨.invalidToolArguments, some .converter, some .stream⟩)

namespace SemanticItemLedger

def new (maxBytes : Nat) : SemanticItemLedger where
  maxBytes := maxBytes
  usedBytes := 0
  tools := .empty
  callIds := []
  messages := .empty
  messageParts := .empty
  reasoning := .empty
  reasoningParts := .empty
  order := []

/-! ## Reservations -/

/-- Charge a number of bytes against the limit. -/
def reserveBytes (ledger : SemanticItemLedger) (count : Nat) : Fallible SemanticItemLedger :=
  if ledger.maxBytes < ledger.usedBytes + count then .error invalid
  else .ok { ledger with usedBytes := ledger.usedBytes + count }

def reserve (ledger : SemanticItemLedger) (value : JsString) : Fallible SemanticItemLedger :=
  ledger.reserveBytes (utf8ByteLength value)

/-- `reserve` under a condition. -/
def reserveIf (ledger : SemanticItemLedger) (condition : Prop) [Decidable condition]
    (value : JsString) : Fallible SemanticItemLedger :=
  if condition then ledger.reserve value else .ok ledger

/-- `reserve` of a value that may be missing. -/
def reserveOptional (ledger : SemanticItemLedger) : Option JsString → Fallible SemanticItemLedger
  | some value => ledger.reserve value
  | none => .ok ledger

def reserveOpaqueState (ledger : SemanticItemLedger) (state : OpaqueReasoningState) :
    Fallible SemanticItemLedger := do
  let count ← opaqueStateByteLength state
  ledger.reserveBytes count

/-- The reservation of a reasoning state of the Messages protocol. -/
def reserveMessagesState (ledger : SemanticItemLedger) :
    Option MessagesReasoningState → Fallible SemanticItemLedger
  | some (.thinking thinking signature) => do
    let ledger ← ledger.reserve thinking
    ledger.reserve signature
  | some (.redactedThinking data) => ledger.reserve data
  | none => .ok ledger

/-- `rebindOpaqueState`: only the growth is charged. -/
def rebindOpaqueState (ledger : SemanticItemLedger) (previous next : OpaqueReasoningState) :
    Fallible SemanticItemLedger := do
  let count ← opaqueStateByteLength previous
  { ledger with usedBytes := ledger.usedBytes - count }.reserveOpaqueState next

/-! ## Messages -/

/-- `message`: the state of a message, which is started if it is not there. -/
def message (ledger : SemanticItemLedger) (key : StreamKey) :
    Fallible (SemanticItemLedger × MessageState) :=
  match ledger.messages.get key with
  | some message => .ok (ledger, message)
  | none => do
    let ledger ← ledger.reserve key.render
    let message := ⟨[], false⟩
    return ({ ledger with
      messages := ledger.messages.set key message
      order := ledger.order ++ [.message key] }, message)

def startMessage (ledger : SemanticItemLedger) (key : StreamKey) : Fallible SemanticItemLedger := do
  let (ledger, _) ← ledger.message key
  return ledger

def messagePart (ledger : SemanticItemLedger) (key groupKey : StreamKey) :
    Fallible (SemanticItemLedger × MessagePartState) :=
  match ledger.messageParts.get key with
  | some part => do
    require (part.groupKey = groupKey)
    return (ledger, part)
  | none => do
    let ledger ← ledger.reserveIf (key ≠ groupKey) key.render
    let part := ⟨groupKey, [], [], false, false, false⟩
    let (ledger, message) ← { ledger with
      messageParts := ledger.messageParts.set key part }.message groupKey
    return ({ ledger with
      messages := ledger.messages.set groupKey
        { message with partKeys := message.partKeys ++ [key] } }, part)

/-- `observeText` and `observeRefusal`: whether the kind is seen for the first
time. -/
def observeContent (ledger : SemanticItemLedger) (kind : ContentKind) (key : StreamKey)
    (orderKey : Option StreamKey) : Fallible (SemanticItemLedger × Bool) := do
  let (ledger, message) ← ledger.message (orderKey.getD key)
  require (¬ (message.frozen ∧ ¬ ledger.messageParts.has key))
  let (ledger, part) ← ledger.messagePart key (orderKey.getD key)
  return ({ ledger with messageParts := ledger.messageParts.set key (part.see kind) },
    !part.seen kind)

/-- `appendText` and `appendRefusal`. -/
def appendContent (ledger : SemanticItemLedger) (kind : ContentKind) (key : StreamKey)
    (delta : JsString) (orderKey : Option StreamKey) : Fallible SemanticItemLedger := do
  let ledger ← ledger.reserve delta
  let (ledger, _) ← ledger.observeContent kind key orderKey
  let (ledger, part) ← ledger.messagePart key (orderKey.getD key)
  require (¬ part.frozen)
  return { ledger with messageParts := ledger.messageParts.set key (part.append kind delta) }

def finishContent (ledger : SemanticItemLedger) (key : StreamKey) :
    Fallible SemanticItemLedger := do
  let part ← required (ledger.messageParts.get key)
  return { ledger with messageParts := ledger.messageParts.set key { part with frozen := true } }

def finishMessage (ledger : SemanticItemLedger) (key : StreamKey) :
    Fallible SemanticItemLedger := do
  let (ledger, message) ← ledger.message key
  return { ledger with
    messages := ledger.messages.set key { message with frozen := true }
    messageParts := message.partKeys.foldl
      (fun parts partKey => parts.modify partKey fun part => { part with frozen := true })
      ledger.messageParts }

/-- `textValue` and `refusalValue`. -/
def contentValue (ledger : SemanticItemLedger) (kind : ContentKind) (key : StreamKey) : JsString :=
  match ledger.messageParts.get key with
  | some part => part.value kind
  | none => []

/-! ## Reasoning -/

/-- The order of `compareReasoningParts`. -/
def reasoningPartLe {κ : Type} (left right : SemanticReasoningPart κ) : Bool :=
  match left.presentation, right.presentation with
  | .summary, .content => true
  | .content, .summary => false
  | _, _ => left.index ≤ right.index

def reasoningItem (ledger : SemanticItemLedger) (key : StreamKey) (state : ReasoningState) :
    Fallible (SemanticReasoningItem StreamKey) := do
  let parts ← state.partKeys.mapM fun partKey => do
    let part ← required (ledger.reasoningParts.get partKey)
    return (⟨partKey, part.presentation, part.index, part.text⟩ : SemanticReasoningPart StreamKey)
  return {
    key := key
    itemId := state.itemId
    parts := parts.insertionSort fun left right => reasoningPartLe left right
    status := state.status
    hasOpaqueState := state.opaqueState.isSome
    messagesState := state.messagesState
    opaqueState := state.opaqueState }

/-- The opaque state a reasoning item takes on, with its reservation. A finished
item accepts another Responses item in place of its own, or a Chat state that
extends it. -/
def bindOpaqueState (ledger : SemanticItemLedger) (state : ReasoningState)
    (incoming : OpaqueReasoningState) : Fallible SemanticItemLedger :=
  match state.opaqueState with
  | none => ledger.reserveOpaqueState incoming
  | some existing => do
    let same ← sameOpaqueState existing incoming
    if same then return ledger
    else
      match state.frozen, incoming with
      | true, .responsesItem _ => ledger.reserveOpaqueState incoming
      | true, _ => do
        let grows ← extendsChatOpaqueState existing incoming
        if grows then ledger.rebindOpaqueState existing incoming else .error invalid
      | false, _ => .error invalid

/-- The opaque state a reasoning item is started with, or takes on later. -/
def reserveOptionalOpaqueState (ledger : SemanticItemLedger) :
    Option OpaqueReasoningState → Fallible SemanticItemLedger
  | some state => ledger.reserveOpaqueState state
  | none => .ok ledger

/-- `reasoningState` of a key that is not there: the item is started. -/
def addReasoning (ledger : SemanticItemLedger) (key : StreamKey) (itemId : Option JsString)
    (messagesState : Option MessagesReasoningState) (opaqueState : Option OpaqueReasoningState) :
    Fallible (SemanticItemLedger × ReasoningState) := do
  let ledger ← ledger.reserve key.render
  let ledger ← ledger.reserveOptional itemId
  let ledger ← ledger.reserveMessagesState messagesState
  let ledger ← ledger.reserveOptionalOpaqueState opaqueState
  let state := ⟨itemId, [], none, false, messagesState, opaqueState⟩
  return ({ ledger with
    reasoning := ledger.reasoning.set key state
    order := ledger.order ++ [.reasoning key] }, state)

/-- `reasoningState` of a key that is there: its id must agree, and so must a
Messages state it already has. -/
def resumeReasoning (ledger : SemanticItemLedger) (key : StreamKey) (state : ReasoningState)
    (itemId : Option JsString) (messagesState : Option MessagesReasoningState) :
    Fallible (SemanticItemLedger × ReasoningState) := do
  require (state.itemId = itemId)
  match messagesState with
  | none => return (ledger, state)
  | some incoming => do
    require (state.messagesState = none ∨ state.messagesState = some incoming)
    let ledger ← ledger.reserveMessagesState
      (if state.messagesState = none then messagesState else none)
    let state := { state with messagesState := some incoming }
    return ({ ledger with reasoning := ledger.reasoning.set key state }, state)

def reasoningState (ledger : SemanticItemLedger) (key : StreamKey) (itemId : Option JsString)
    (messagesState : Option MessagesReasoningState) (opaqueState : Option OpaqueReasoningState) :
    Fallible (SemanticItemLedger × ReasoningState) := do
  let (ledger, state) ← (match ledger.reasoning.get key with
    | none => ledger.addReasoning key itemId messagesState opaqueState
    | some state => ledger.resumeReasoning key state itemId messagesState)
  match opaqueState with
  | none => return (ledger, state)
  | some incoming => do
    let ledger ← ledger.bindOpaqueState state incoming
    let state := { state with opaqueState := some incoming }
    return ({ ledger with reasoning := ledger.reasoning.set key state }, state)

def startReasoning (ledger : SemanticItemLedger) (key : StreamKey) (itemId : Option JsString)
    (messagesState : Option MessagesReasoningState) (opaqueState : Option OpaqueReasoningState) :
    Fallible SemanticItemLedger := do
  let (ledger, _) ← ledger.reasoningState key itemId messagesState opaqueState
  return ledger

def reasoningPart (ledger : SemanticItemLedger) (address : ReasoningPartAddress) :
    Fallible (SemanticItemLedger × ReasoningPartState) := do
  let (ledger, state) ← ledger.reasoningState address.key address.itemId none none
  require (¬ state.frozen)
  match ledger.reasoningParts.get address.partKey with
  | none => do
    let ledger ← ledger.reserveIf (address.partKey ≠ address.key) address.partKey.render
    let part : ReasoningPartState :=
      ⟨address.key, address.presentation, address.partIndex, [], false⟩
    return ({ ledger with
      reasoningParts := ledger.reasoningParts.set address.partKey part
      reasoning := ledger.reasoning.set address.key
        { state with partKeys := state.partKeys ++ [address.partKey] } }, part)
  | some part => do
    require (part.itemKey = address.key ∧ part.presentation = address.presentation ∧
      part.index = address.partIndex)
    return (ledger, part)

def appendReasoning (ledger : SemanticItemLedger) (address : ReasoningPartAddress)
    (delta : JsString) : Fallible SemanticItemLedger := do
  let ledger ← ledger.reserve delta
  let (ledger, part) ← ledger.reasoningPart address
  require (¬ part.frozen)
  return { ledger with
    reasoningParts := ledger.reasoningParts.set address.partKey
      { part with text := part.text ++ delta } }

def reasoningValue (ledger : SemanticItemLedger) (partKey : StreamKey) : JsString :=
  match ledger.reasoningParts.get partKey with
  | some part => part.text
  | none => []

def freezeReasoning (ledger : SemanticItemLedger) (key : StreamKey) (state : ReasoningState)
    (status : ItemStatus) : SemanticItemLedger :=
  { ledger with
    reasoning := ledger.reasoning.set key { state with frozen := true, status := some status }
    reasoningParts := state.partKeys.foldl
      (fun parts partKey => parts.modify partKey fun part => { part with frozen := true })
      ledger.reasoningParts }

def finishReasoning (ledger : SemanticItemLedger) (key : StreamKey) (status : ItemStatus) :
    Fallible (SemanticItemLedger × SemanticReasoningItem StreamKey) := do
  let state ← required (ledger.reasoning.get key)
  if state.frozen then do
    require (state.status = some status)
    let item ← ledger.reasoningItem key state
    return (ledger, item)
  else do
    let ledger := ledger.freezeReasoning key state status
    let item ← ledger.reasoningItem key { state with frozen := true, status := some status }
    return (ledger, item)

def finishOpenReasoning (ledger : SemanticItemLedger) (status : ResponseStatus) :
    Fallible (SemanticItemLedger × List (SemanticReasoningItem StreamKey)) :=
  ledger.order.foldlM (fun (ledger, items) entry =>
    match entry with
    | .reasoning key =>
      match ledger.reasoning.get key with
      | some state =>
        if state.frozen then pure (ledger, items)
        else do
          let (ledger, item) ← ledger.finishReasoning key status.item
          return (ledger, items ++ [item])
      | none => pure (ledger, items)
    | _ => pure (ledger, items)) (ledger, [])

/-! ## Tools -/

def startTool (ledger : SemanticItemLedger) (key : StreamKey) (itemId : Option JsString)
    (callId name : JsString) : Fallible SemanticItemLedger := do
  require (¬ (ledger.tools.has key ∨ callId ∈ ledger.callIds ∨ callId = [] ∨ name = []))
  let ledger ← ledger.reserve key.render
  let ledger ← ledger.reserveOptional itemId
  let ledger ← ledger.reserve callId
  let ledger ← ledger.reserve name
  return { ledger with
    callIds := ledger.callIds ++ [callId]
    tools := ledger.tools.set key ⟨itemId, callId, name, [], false⟩
    order := ledger.order ++ [.tool key] }

def tool (ledger : SemanticItemLedger) (key : StreamKey) : Fallible ToolState :=
  required (ledger.tools.get key)

def appendToolArguments (ledger : SemanticItemLedger) (key : StreamKey) (delta : JsString) :
    Fallible SemanticItemLedger := do
  let tool ← ledger.tool key
  require (¬ tool.done)
  let ledger ← ledger.reserve delta
  return { ledger with
    tools := ledger.tools.set key { tool with argumentsJson := tool.argumentsJson ++ delta } }

/-- The arguments of a tool brought up to a snapshot, with the suffix that is
new. -/
def applySnapshot (ledger : SemanticItemLedger) (tool : ToolState) :
    Option JsString → Fallible (SemanticItemLedger × JsString × JsString)
  | none => .ok (ledger, tool.argumentsJson, [])
  | some snapshot => do
    require (tool.argumentsJson <+: snapshot)
    let suffix := snapshot.drop tool.argumentsJson.length
    let ledger ← ledger.reserve suffix
    return (ledger, snapshot, suffix)

/-- `validateArguments` under a condition. -/
def validateIf (condition : Bool) (argumentsJson : JsString) : Fallible Unit :=
  if condition then validateArguments argumentsJson else .ok ()

/-- `finishTool`: the suffix of the snapshot that had not been seen yet. -/
def finishTool (ledger : SemanticItemLedger) (key : StreamKey) (snapshot : Option JsString)
    (completed validateCompleted : Bool) : Fallible (SemanticItemLedger × JsString) := do
  let tool ← ledger.tool key
  if tool.done then do
    require (snapshot = none ∨ snapshot = some tool.argumentsJson)
    validateIf (completed && validateCompleted) tool.argumentsJson
    return (ledger, [])
  else do
    let (ledger, argumentsJson, suffix) ← ledger.applySnapshot tool snapshot
    validateIf (completed && validateCompleted) argumentsJson
    return ({ ledger with
      tools := ledger.tools.set key { tool with argumentsJson := argumentsJson, done := true } },
      suffix)

def finishOpenTools (ledger : SemanticItemLedger) (validateCompleted : JsString → Fallible Bool) :
    Fallible SemanticItemLedger :=
  ledger.tools.keys.foldlM (fun ledger key => do
    let tool ← ledger.tool key
    let validate ← validateCompleted tool.name
    validateIf validate tool.argumentsJson
    return { ledger with tools := ledger.tools.set key { tool with done := true } }) ledger

def toolKeys (ledger : SemanticItemLedger) : List StreamKey :=
  ledger.order.filterMap fun entry =>
    match entry with
    | .tool key => some key
    | _ => none

/-! ## Items -/

/-- The order of `compareResponseItemKeys`: keys without an output index keep
their place. -/
def responseItemKeyLe (left right : LedgerEntry) : Bool :=
  match left.key.responseOutputIndex, right.key.responseOutputIndex with
  | some leftIndex, some rightIndex => leftIndex ≤ rightIndex
  | _, _ => true

/-- The order of `compareMessagePartKeys`. -/
def messagePartKeyLe (left right : StreamKey) : Bool :=
  match left.responseMessagePartPosition, right.responseMessagePartPosition with
  | some (_, leftIndex, _), some (_, rightIndex, _) => leftIndex ≤ rightIndex
  | _, _ => true

/-- The content of a part: its text if observed, then its refusal if observed. -/
def partContent (key : StreamKey) (part : MessagePartState) : List (StreamKey × SemanticContent) :=
  (if part.textSeen then [(key, ⟨.text, part.text⟩)] else []) ++
    if part.refusalSeen then [(key, ⟨.refusal, part.refusal⟩)] else []

/-- The content of a message with the keys of its parts. -/
def messageContent (ledger : SemanticItemLedger) (message : MessageState) :
    Fallible (List (StreamKey × SemanticContent)) := do
  let contents ← (message.partKeys.insertionSort fun left right => messagePartKeyLe left right).mapM
    fun key => do
      let part ← required (ledger.messageParts.get key)
      return partContent key part
  return contents.flatten

/-- The item of an entry, if it has one. A reasoning item still open is frozen
with the status of the response. -/
def entryItem (status : ResponseStatus) (ledger : SemanticItemLedger) :
    LedgerEntry → Fallible (SemanticItemLedger × Option (SemanticResponseItem StreamKey))
  | .message key => do
    let message ← required (ledger.messages.get key)
    let entries ← ledger.messageContent message
    if entries ≠ [] ∨ message.frozen then
      return (ledger, some (.message key (entries.map Prod.fst) (entries.map Prod.snd)))
    else return (ledger, none)
  | .reasoning key => do
    let state ← required (ledger.reasoning.get key)
    if state.frozen then do
      let item ← ledger.reasoningItem key state
      return (ledger, some (.reasoning item))
    else do
      let ledger := ledger.freezeReasoning key state status.item
      let item ← ledger.reasoningItem key { state with frozen := true, status := some status.item }
      return (ledger, some (.reasoning item))
  | .tool key => do
    let tool ← ledger.tool key
    require (¬ (¬ tool.done ∧ status = .completed))
    return (ledger, some (.toolCall ⟨key, tool.itemId, tool.callId, tool.name, tool.argumentsJson⟩))

def items (ledger : SemanticItemLedger) (status : ResponseStatus) :
    Fallible (SemanticItemLedger × List (SemanticResponseItem StreamKey)) :=
  (ledger.order.insertionSort fun left right => responseItemKeyLe left right).foldlM
    (fun (ledger, items) entry => do
      let (ledger, item) ← ledger.entryItem status entry
      return (ledger, items ++ item.toList)) (ledger, [])

end SemanticItemLedger

end GhcGateway.Conversion
