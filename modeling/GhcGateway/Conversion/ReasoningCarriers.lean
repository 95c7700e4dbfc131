/-
# The store of reasoning carriers

The opaque reasoning state of one upstream protocol travels through another
protocol's clients as a token. The store keeps, for each token, the state and the
binding (account, model, upstream, protocols) it was created under, and gives the
state back only to a caller with the same binding.

The rows live in one table of the gateway's database, whose texts are read back as
`columnText` says: a binding with a NUL is not the one that was bound. A transaction
whose callback throws changes nothing. The clock is read several times within an
operation; each reading is an input of its own.
-/

import GhcGateway.Conversion.Types
import GhcGateway.Library.Eviction
import GhcGateway.Serialization.TextColumn

namespace GhcGateway.Conversion

open Library

inductive ReasoningCarrierSourceKind
  | chatState
  | messagesBlock
  | responsesItem
  deriving DecidableEq

/-- `ReasoningCarrierSourceKind` as it is spelled. -/
def ReasoningCarrierSourceKind.text : ReasoningCarrierSourceKind → String
  | .chatState => "chat_state"
  | .messagesBlock => "messages_block"
  | .responsesItem => "responses_item"

inductive ReasoningCarrierState
  | partialState
  | complete
  deriving DecidableEq

structure ReasoningCarrierBinding where
  accountId : JsString
  modelId : JsString
  upstreamOrigin : JsString
  sourceProtocol : InferenceProtocol
  wireProtocol : InferenceProtocol
  conversionVersion : JsString
  deriving DecidableEq

/-- The binding as its columns give it back. -/
def ReasoningCarrierBinding.read (binding : ReasoningCarrierBinding) : ReasoningCarrierBinding :=
  { binding with
    accountId := columnText binding.accountId
    modelId := columnText binding.modelId
    upstreamOrigin := columnText binding.upstreamOrigin
    conversionVersion := columnText binding.conversionVersion }

/-- `account_id = ?`, which compares the texts as they were bound. -/
abbrev ReasoningCarrierBinding.OfAccount (binding : ReasoningCarrierBinding)
    (accountId : JsString) : Prop :=
  boundText binding.accountId = boundText accountId

structure ReasoningCarrierRecord where
  token : JsString
  sourceKind : ReasoningCarrierSourceKind
  state : ReasoningCarrierState
  responseId : Option JsString
  payload : WireJsonObject
  projection : WireJsonObject
  storedBytes : Nat

/-- What `create` is given. -/
structure ReasoningCarrierInput where
  binding : ReasoningCarrierBinding
  sourceKind : ReasoningCarrierSourceKind
  state : ReasoningCarrierState
  responseId : Option JsString
  payload : WireJsonObject
  projection : WireJsonObject

/-- What the store throws: a `ReasoningCarrierError`, a
`ReasoningCarrierCapacityError`, an error of the JSON reader or writer, or the
database's answer to a row whose key is taken. -/
inductive CarrierError
  | unavailable
  | capacity
  | wireJson (error : WireJsonError)
  | constraint
  deriving DecidableEq

/-- A row of `reasoning_carriers`, as it was bound. The six columns of the binding are one
field. -/
structure CarrierRow where
  carrierId : JsString
  token : JsString
  binding : ReasoningCarrierBinding
  sourceKind : ReasoningCarrierSourceKind
  state : ReasoningCarrierState
  responseId : Option JsString
  payloadJson : JsString
  projectionJson : JsString
  storedBytes : Nat
  insertionSeq : Nat
  createdAtMs : Int
  expiresAtMs : Int
  deriving DecidableEq

/-- The row as it is read. The id and the token are ASCII texts. -/
def CarrierRow.read (row : CarrierRow) : CarrierRow :=
  { row with
    binding := row.binding.read
    responseId := row.responseId.map columnText
    payloadJson := columnText row.payloadJson
    projectionJson := columnText row.projectionJson }

/-- `reasoning_carriers`. -/
abbrev CarrierTable := Table CarrierRow.token

structure CarrierLimits where
  maxItemBytes : Nat
  maxStoredBytes : Nat

/-- The store: its table and its time to live. -/
structure CarrierStore where
  carriers : CarrierTable
  ttlMs : Int

/-- What an operation reads from outside: the clock where it starts, where it
cleans up and where it checks the row, and the id `createId` makes. -/
structure CarrierHost where
  started : Int
  cleaned : Int
  checked : Int
  newId : JsString

/-! ## Tokens -/

/-- The case folding of `/iu` as far as ASCII letters are concerned. -/
def foldCase (unit : UInt16) : UInt16 :=
  if 0x41 ≤ unit && unit ≤ 0x5A then unit + 0x20
  else if unit = 0x17F then 0x73
  else if unit = 0x212A then 0x6B
  else unit

/-- `[0-9a-f]` under `/iu`. -/
def isHexDigit (unit : UInt16) : Bool :=
  (0x30 ≤ unit && unit ≤ 0x39) || (0x61 ≤ foldCase unit && foldCase unit ≤ 0x66)

/-- `[0-9a-f]{8}-[0-9a-f]{4}-[1-8][0-9a-f]{3}-[89ab][0-9a-f]{3}-[0-9a-f]{12}`. -/
def isCarrierId (value : JsString) : Bool :=
  match value.splitOn 0x2D with
  | [first, second, third, fourth, fifth] =>
    first.length = 8 && second.length = 4 && third.length = 4 && fourth.length = 4 &&
      fifth.length = 12 && (first ++ second ++ third ++ fourth ++ fifth).all isHexDigit &&
      third.head?.any (fun unit => 0x31 ≤ unit && unit ≤ 0x38) &&
      fourth.head?.any (fun unit =>
        unit = 0x38 || unit = 0x39 || foldCase unit = 0x61 || foldCase unit = 0x62)
  | _ => false

/-- Whether a part of the token spells a word, in either case. -/
def spells (part : JsString) (word : String) : Bool := part.map foldCase = js word

/-- `parseToken`: the source kind and the wire protocol as the token spells them.
None of the parts of `TOKEN_PATTERN` contains a colon. -/
def parseToken (token : JsString) : Except CarrierError (JsString × JsString) :=
  match token.splitOn 0x3A with
  | [scheme, kind, wire, id] =>
    if spells scheme "ghcg-rsn-v1" &&
        (spells kind "chat_state" || spells kind "messages_block" ||
          spells kind "responses_item") &&
        (spells wire "chat" || spells wire "messages" || spells wire "responses") &&
        isCarrierId id then
      .ok (kind, wire)
    else .error .unavailable
  | _ => .error .unavailable

def carrierToken (input : ReasoningCarrierInput) (carrierId : JsString) : JsString :=
  js "ghcg-rsn-v1:" ++ js input.sourceKind.text ++ js ":" ++ js input.binding.wireProtocol.text ++
    js ":" ++ carrierId

/-! ## Checks -/

def validateSourceSlot (sourceKind : ReasoningCarrierSourceKind)
    (sourceProtocol wireProtocol : InferenceProtocol) : Except CarrierError Unit :=
  let valid :=
    match sourceKind with
    | .responsesItem => sourceProtocol = .responses ∧
        (wireProtocol = .chat ∨ wireProtocol = .messages)
    | .messagesBlock => sourceProtocol = .messages ∧ wireProtocol = .responses
    | .chatState => sourceProtocol = .chat ∧ wireProtocol = .responses
  have : Decidable valid := by
    cases sourceKind <;> exact inferInstanceAs (Decidable (_ ∧ _))
  if valid then .ok () else .error .unavailable

def oneString (object : WireJsonObject) (key : String) : Option JsString :=
  match memberValues object (js key) with
  | [.string value] => some value
  | _ => none

def validatePayload (sourceKind : ReasoningCarrierSourceKind) (payload : WireJsonObject) :
    Except CarrierError Unit :=
  if oneString payload "kind" ≠ some (js sourceKind.text) then .error .unavailable
  else
    match memberValues payload (js "state") with
    | [.object _] => .ok ()
    | _ => .error .unavailable

def parseObject (value : JsString) (maxBytes : Nat) : Except CarrierError WireJsonObject :=
  let bytes := encodeUtf8 value
  if maxBytes < bytes.length then .error .unavailable
  else
    match parseWireJson bytes ⟨max 1 maxBytes, 64⟩ with
    | .error error => .error (.wireJson error)
    | .ok (.object members) => .ok members
    | .ok _ => .error .unavailable

/-- `canonicalizeWireJson`, whose errors pass through. -/
def canonicalObject (object : WireJsonObject) : Except CarrierError (List UInt8) :=
  match canonicalizeWireJson (.object object) with
  | .error error => .error (.wireJson error)
  | .ok bytes => .ok bytes

namespace CarrierTable

def storedBytes (carriers : CarrierTable) : Nat := carriers.total CarrierRow.storedBytes

def expire (carriers : CarrierTable) (now : Int) : CarrierTable :=
  carriers.delete fun row => row.expiresAtMs ≤ now

/-- `DELETE FROM reasoning_carriers WHERE token = ?`. -/
def remove (carriers : CarrierTable) (token : JsString) : CarrierTable :=
  carriers.delete fun row => row.token = token

def evictOverflow (limits : CarrierLimits) (carriers : CarrierTable) (incomingBytes : Nat) :
    Except CarrierError CarrierTable :=
  let overflow : Int := carriers.storedBytes + incomingBytes - limits.maxStoredBytes
  let rows := Eviction.oldestExceeding CarrierRow.storedBytes overflow
    (carriers.orderedBy CarrierRow.insertionSeq)
  if overflow - Eviction.weighed CarrierRow.storedBytes rows ≤ 0 then
    .ok (rows.foldl (fun carriers row => remove carriers row.token) carriers)
  else .error .unavailable

/-- `COALESCE(MAX(insertion_seq), 0) + 1`. -/
def nextSeq (carriers : CarrierTable) : Nat :=
  (carriers.rows.map CarrierRow.insertionSeq).foldl max 0 + 1

/-- The `INSERT`: the id, the token and the sequence number must be free. -/
def add (carriers : CarrierTable) (row : CarrierRow) : Except CarrierError CarrierTable :=
  if carriers.rows.any fun other =>
      other.carrierId = row.carrierId || other.insertionSeq = row.insertionSeq then
    .error .constraint
  else
    match free : carriers.find? row.token with
    | none => .ok (carriers.insert row free)
    | some _ => .error .constraint

def completeRow (carriers : CarrierTable) (token : JsString) : CarrierTable :=
  carriers.update token (fun row => { row with state := .complete }) fun _ => rfl

/-- One round of the loop of `promote`. -/
def promoteToken (binding : ReasoningCarrierBinding) (carriers : CarrierTable)
    (token : JsString) : Except CarrierError CarrierTable :=
  match carriers.find? token with
  | none => .error .unavailable
  | some row =>
    if row.binding.read ≠ binding then .error .unavailable
    else if row.state = .complete then .ok carriers
    else .ok (carriers.completeRow token)

/-- One round of the loop of `discard`. -/
def discardToken (binding : ReasoningCarrierBinding) (carriers : CarrierTable)
    (token : JsString) : CarrierTable :=
  match carriers.find? token with
  | none => carriers
  | some row =>
    if row.binding.read = binding ∧ row.state = .partialState then carriers.remove token
    else carriers

end CarrierTable

/-! ## The store -/

namespace CarrierStore

/-- What an operation gives back and the store after it. -/
abbrev Answer (α : Type) := Except CarrierError α × CarrierStore

/-- The table changed, or nothing if the change throws. -/
def transaction {α : Type} (store : CarrierStore) (work : CarrierTable →
    Except CarrierError CarrierTable)
    (next : CarrierStore → Answer α) : Answer α :=
  match work store.carriers with
  | .error error => (.error error, store)
  | .ok carriers => next { store with carriers := carriers }

def cleanup (store : CarrierStore) (now : Int) : CarrierStore :=
  { store with carriers := CarrierTable.expire store.carriers now }

section Operations

variable (urlOrigin : JsString → Option JsString) (limits : CarrierLimits)

/-- `validateBinding`. `urlOrigin` is `new URL(value).origin`, or nothing where the
constructor throws. -/
def validateBinding (binding : ReasoningCarrierBinding) : Except CarrierError Unit :=
  if [binding.accountId, binding.modelId, binding.upstreamOrigin, binding.conversionVersion].any
      fun value => value = [] || 2048 < utf8ByteLength value then
    .error .unavailable
  else if urlOrigin binding.upstreamOrigin = some binding.upstreamOrigin then .ok ()
  else .error .unavailable

/-- `resolveInternal` after the cleanup: the row is checked and read back. -/
def readRow (carriers : CarrierTable) (now : Int) (token : JsString) (parsed : JsString × JsString)
    (binding : ReasoningCarrierBinding) (requireComplete : Bool) :
    Except CarrierError ReasoningCarrierRecord :=
  match (carriers.find? token).map CarrierRow.read with
  | none => .error .unavailable
  | some row =>
    if row.binding ≠ binding ∨ parsed.1 ≠ js row.sourceKind.text ∨
        parsed.2 ≠ js row.binding.wireProtocol.text ∨
        (requireComplete = true ∧ row.state ≠ .complete) ∨ row.expiresAtMs ≤ now then
      .error .unavailable
    else do
      let payload ← parseObject row.payloadJson row.storedBytes
      let projection ← parseObject row.projectionJson row.storedBytes
      let payloadBytes ← canonicalObject payload
      let projectionBytes ← canonicalObject projection
      let storedBytes := payloadBytes.length + projectionBytes.length
      if storedBytes ≠ row.storedBytes ∨ limits.maxItemBytes < storedBytes then
        .error .unavailable
      else do
        validateSourceSlot row.sourceKind row.binding.sourceProtocol row.binding.wireProtocol
        validatePayload row.sourceKind payload
        .ok {
          token := row.token
          sourceKind := row.sourceKind
          state := row.state
          responseId := row.responseId
          payload := payload
          projection := projection
          storedBytes := row.storedBytes }

def resolveInternal (host : CarrierHost) (token : JsString) (binding : ReasoningCarrierBinding)
    (requireComplete : Bool) (store : CarrierStore) : Answer ReasoningCarrierRecord :=
  match validateBinding urlOrigin binding with
  | .error error => (.error error, store)
  | .ok () =>
    match parseToken token with
    | .error error => (.error error, store)
    | .ok parsed =>
      let store := store.cleanup host.cleaned
      (readRow limits store.carriers host.checked token parsed binding requireComplete, store)

def resolve (host : CarrierHost) (token : JsString) (binding : ReasoningCarrierBinding)
    (store : CarrierStore) : Answer ReasoningCarrierRecord :=
  resolveInternal urlOrigin limits host token binding true store

def claim (host : CarrierHost) (token accountId : JsString) (wireProtocol : InferenceProtocol)
    (store : CarrierStore) : Answer ReasoningCarrierBinding :=
  match parseToken token with
  | .error error => (.error error, store)
  | .ok parsed =>
    let store := store.cleanup host.cleaned
    match (store.carriers.find? token).map CarrierRow.read with
    | none => (.error .unavailable, store)
    | some row =>
      if row.binding.accountId ≠ accountId ∨ row.binding.wireProtocol ≠ wireProtocol ∨
          parsed.1 ≠ js row.sourceKind.text ∨ parsed.2 ≠ js row.binding.wireProtocol.text ∨
          row.state ≠ .complete ∨ row.expiresAtMs ≤ host.checked then
        (.error .unavailable, store)
      else (.ok row.binding, store)

/-- What `create` checks and computes before its transaction: the two encoded
objects. -/
def prepare (host : CarrierHost) (input : ReasoningCarrierInput) :
    Except CarrierError (List UInt8 × List UInt8) := do
  validateBinding urlOrigin input.binding
  validateSourceSlot input.sourceKind input.binding.sourceProtocol input.binding.wireProtocol
  let payloadBytes ← canonicalObject input.payload
  let projectionBytes ← canonicalObject input.projection
  let storedBytes := payloadBytes.length + projectionBytes.length
  if storedBytes ≤ 0 then .error .unavailable
  else if limits.maxItemBytes < storedBytes ∨ limits.maxStoredBytes < storedBytes then
    .error .capacity
  else if isCarrierId host.newId = false then .error .unavailable
  else .ok (payloadBytes, projectionBytes)

/-- The row `create` inserts. -/
def newRow (host : CarrierHost) (ttlMs : Int) (input : ReasoningCarrierInput)
    (payloadBytes projectionBytes : List UInt8) (insertionSeq : Nat) : CarrierRow where
  carrierId := host.newId
  token := carrierToken input host.newId
  binding := input.binding
  sourceKind := input.sourceKind
  state := input.state
  responseId := input.responseId
  payloadJson := decodeText payloadBytes
  projectionJson := decodeText projectionBytes
  storedBytes := payloadBytes.length + projectionBytes.length
  insertionSeq := insertionSeq
  createdAtMs := host.started
  expiresAtMs := host.started + ttlMs

/-- The transaction of `create`. -/
def insertRow (host : CarrierHost) (ttlMs : Int) (input : ReasoningCarrierInput)
    (payloadBytes projectionBytes : List UInt8) (carriers : CarrierTable) :
    Except CarrierError CarrierTable := do
  let carriers := CarrierTable.expire carriers host.started
  let carriers ← CarrierTable.evictOverflow limits carriers
    (payloadBytes.length + projectionBytes.length)
  CarrierTable.add carriers
    (newRow host ttlMs input payloadBytes projectionBytes (CarrierTable.nextSeq carriers))

def create (host : CarrierHost) (input : ReasoningCarrierInput) (store : CarrierStore) :
    Answer ReasoningCarrierRecord :=
  match prepare urlOrigin limits host input with
  | .error error => (.error error, store)
  | .ok (payloadBytes, projectionBytes) =>
    store.transaction (insertRow limits host store.ttlMs input payloadBytes projectionBytes)
      (resolveInternal urlOrigin limits host (carrierToken input host.newId) input.binding
        (input.state = .complete))

/-- `promote`: every token, each once, or none. -/
def promote (host : CarrierHost) (tokens : List JsString) (binding : ReasoningCarrierBinding)
    (store : CarrierStore) : Answer Unit :=
  match validateBinding urlOrigin binding with
  | .error error => (.error error, store)
  | .ok () =>
    store.transaction
      (fun carriers =>
        tokens.eraseDups.foldlM (CarrierTable.promoteToken binding)
          (CarrierTable.expire carriers host.started))
      fun store => (.ok (), store)

def discard (tokens : List JsString) (binding : ReasoningCarrierBinding) (store : CarrierStore) :
    Answer Unit :=
  match validateBinding urlOrigin binding with
  | .error error => (.error error, store)
  | .ok () =>
    (.ok (), { store with
      carriers := tokens.eraseDups.foldl (CarrierTable.discardToken binding) store.carriers })

end Operations

def clearAccount (accountId : JsString) (store : CarrierStore) : Answer Unit :=
  if accountId = [] then (.error .unavailable, store)
  else
    (.ok (), { store with
      carriers := store.carriers.delete fun row => row.binding.OfAccount accountId })

def clearAll (store : CarrierStore) : Answer Unit :=
  (.ok (), { store with carriers := Table.empty })

/-- `setTtlDays`, for an integer number of days. -/
def setTtlDays (host : CarrierHost) (ttlDays : Int) (store : CarrierStore) : Answer Unit :=
  if ttlDays ≤ 0 ∨ 9007199254740991 < ttlDays then (.error .unavailable, store)
  else
    let ttlMs := ttlDays * 86400000
    let carriers := store.carriers.updateAll
      (fun row => { row with expiresAtMs := row.createdAtMs + ttlMs }) fun _ => rfl
    (.ok (), ⟨CarrierTable.expire carriers host.started, ttlMs⟩)

end CarrierStore

end GhcGateway.Conversion
