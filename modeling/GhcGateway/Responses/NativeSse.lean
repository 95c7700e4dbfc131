/-
# The native Responses event stream

When the upstream speaks the Responses protocol itself, the gateway reads its
event stream and writes it on with stable item ids. The reader decodes the
chunks of the byte stream as they arrive, unifies the line terminators of the
text it has not used yet, and cuts it at blank lines.

The reader and the normalizer are generators: a record already yielded has been
delivered when a later chunk turns out to be broken.
-/

import GhcGateway.Gateway.Failure
import GhcGateway.Library.Generator
import GhcGateway.Serialization.Number

namespace GhcGateway.Responses

open Library

structure ParsedSseEvent where
  eventName : Option JsString
  data : JsString
  deriving DecidableEq

/-- `{ kind: "invalid_upstream_response" }`, thrown without an origin. -/
def invalidUpstreamResponse : GatewayFailure := ⟨.invalidUpstreamResponse, none, none⟩

/-- The stream ended inside a record, or before a terminal event. -/
def upstreamStreamTruncated : GatewayFailure :=
  ⟨.upstreamStreamTruncated, some .parser, some .stream⟩

/-! ## Records -/

/-- `raw.split("\n")`. -/
def splitLines : JsString → List JsString
  | [] => [[]]
  | unit :: rest =>
    if unit = 0x0A then [] :: splitLines rest
    else
      match splitLines rest with
      | line :: lines => (unit :: line) :: lines
      | [] => [[unit]]

/-- The name and value of a field line; one space after the colon is dropped. -/
def fieldOf (line : JsString) : JsString × JsString :=
  let name := line.takeWhile (· ≠ 0x3A)
  let value :=
    match line.dropWhile (· ≠ 0x3A) with
    | [] => []
    | _ :: 0x20 :: value => value
    | _ :: value => value
  (name, value)

/-- One line of `parseSseRecord`: empty lines and comments are skipped. -/
def readLine (fields : Option JsString × List JsString) (line : JsString) :
    Option JsString × List JsString :=
  if line = [] ∨ line.head? = some 0x3A then fields
  else
    let (name, value) := fieldOf line
    if name = js "event" then (some value, fields.2)
    else if name = js "data" then (fields.1, fields.2 ++ [value])
    else fields

/-- `parseSseRecord`: no data lines make no record, and `[DONE]` is not a
Responses event. -/
def parseSseRecord (raw : JsString) : Except GatewayFailure (Option ParsedSseEvent) :=
  let (eventName, data) := (splitLines raw).foldl readLine (none, [])
  if data = [] then .ok none
  else
    let joined := (data.intersperse [0x0A]).flatten
    if joined = js "[DONE]" then .error invalidUpstreamResponse
    else .ok (some ⟨eventName, joined⟩)

/-! ## The reader -/

/-- `replace(/\r\n/gu, "\n")`. -/
def replaceCrLf : JsString → JsString
  | 0x0D :: 0x0A :: rest => 0x0A :: replaceCrLf rest
  | unit :: rest => unit :: replaceCrLf rest
  | [] => []

/-- `replace(/\r/gu, "\n")`. -/
def replaceCr (text : JsString) : JsString :=
    text.map fun unit => if unit = 0x0D then 0x0A else unit

/-- The line terminators of the text unified to line feeds. -/
def normalizeLineEndings (text : JsString) : JsString := replaceCr (replaceCrLf text)

/-- `normalized.indexOf("\n\n")`. -/
def boundaryIndex : JsString → Option Nat
  | 0x0A :: 0x0A :: _ => some 0
  | _ :: rest => (boundaryIndex rest).map (· + 1)
  | [] => none

theorem boundaryIndex_cons {unit : UInt16} {rest : JsString}
    (single : ¬ (unit = 0x0A ∧ rest.head? = some 0x0A)) :
    boundaryIndex (unit :: rest) = (boundaryIndex rest).map (· + 1) := by
  rw [boundaryIndex]
  rintro rest' rfl rfl
  exact single ⟨rfl, rfl⟩

/-- The `for (;;)` loop over one chunk: the records the pending text completes
and the text still pending. `fuel` bounds the iterations; each one drops a blank
line, so the length of the text is enough. -/
def drainPending (eventLimitBytes : Nat) :
    Nat → JsString → Generator ParsedSseEvent GatewayFailure JsString
  | 0, pending => Generator.pure pending
  | fuel + 1, pending =>
    let normalized := normalizeLineEndings pending
    match boundaryIndex normalized with
    | none =>
      if eventLimitBytes < utf8ByteLength normalized then
        Generator.throw invalidUpstreamResponse
      else Generator.pure normalized
    | some boundary =>
      let raw := normalized.take boundary
      if eventLimitBytes < utf8ByteLength (raw ++ [0x0A, 0x0A]) then
        Generator.throw invalidUpstreamResponse
      else
        match parseSseRecord raw with
        | .error failure => Generator.throw failure
        | .ok record =>
          Generator.emit record.toList
            (drainPending eventLimitBytes fuel (normalized.drop (boundary + 2)))

/-- The reader between two chunks: its decoder and the text still pending. -/
structure ReaderState where
  decoder : Utf8Decoder
  pending : JsString

namespace ReaderState

/-- Before the first chunk. -/
def initial : ReaderState := ⟨Utf8Decoder.initial, []⟩

/-- One chunk. A decoding error is thrown before the loop has looked at any of
the chunk's text. -/
def readChunk (eventLimitBytes : Nat) (reader : ReaderState) (chunk : List UInt8) :
    Generator ParsedSseEvent GatewayFailure ReaderState :=
  match reader.decoder.decode chunk with
  | none => Generator.throw invalidUpstreamResponse
  | some (decoder, text) =>
    let pending := reader.pending ++ text
    (drainPending eventLimitBytes (pending.length + 1) pending).bind fun pending =>
      Generator.pure ⟨decoder, pending⟩

def readChunks (eventLimitBytes : Nat) :
    ReaderState → List (List UInt8) → Generator ParsedSseEvent GatewayFailure ReaderState
  | reader, [] => Generator.pure reader
  | reader, chunk :: chunks =>
    (reader.readChunk eventLimitBytes chunk).bind fun next =>
      next.readChunks eventLimitBytes chunks

/-- The end of the byte stream. -/
def finish (reader : ReaderState) : Generator ParsedSseEvent GatewayFailure Unit :=
  match reader.decoder.finish with
  | none => Generator.throw invalidUpstreamResponse
  | some text =>
    if reader.pending ++ text ≠ [] then Generator.throw upstreamStreamTruncated
    else Generator.pure ()

end ReaderState

/-- `parseResponsesSse`: the records of a byte stream given in chunks, and how
reading ends. -/
def parseResponsesSse (eventLimitBytes : Nat) (chunks : List (List UInt8)) :
    Generator ParsedSseEvent GatewayFailure Unit :=
  (ReaderState.initial.readChunks eventLimitBytes chunks).bind ReaderState.finish

/-! ## The normalizer -/

def parseResponsesEventData (event : ParsedSseEvent) : Except GatewayFailure WireJsonObject :=
  let data := encodeUtf8 event.data
  match parseWireJson data ⟨max data.length 1, 64⟩ with
  | .ok (.object payload) => .ok payload
  | _ => .error invalidUpstreamResponse

/-- `stringMember`: the first member of the name, if it is a string. -/
def stringMember (object : WireJsonObject) (key : String) : Option JsString :=
  (memberValues object (js key)).head?.bind WireJson.string?

def integerMember (object : WireJsonObject) (key : String) : Option Int :=
  match (memberValues object (js key)).head? with
  | some (.number lexeme) => jsInteger lexeme
  | _ => none

def objectMember (object : WireJsonObject) (key : String) : Option WireJsonObject :=
  (memberValues object (js key)).head?.bind WireJson.object?

def replaceMember (object : WireJsonObject) (key : String) (value : WireJson) : WireJsonObject :=
  let members := object.map fun member => if member.1 = js key then (member.1, value) else member
  if object.any fun member => member.1 = js key then members else members ++ [(js key, value)]

def replaceExistingStringMember (object : WireJsonObject) (key : String) (value : JsString) :
    WireJsonObject :=
  object.map fun member =>
    if member.1 = js key ∧ member.2.string?.isSome then (member.1, .string value) else member

/-- The item ids announced so far, by output index. -/
abbrev StableIds := List (Int × JsString)

/-- `normalizeNativeResponsesEvent`: an item keeps the id it was announced
with. -/
def normalizeNativeResponsesEvent (event : WireJsonObject) (stableIds : StableIds)
    (type : JsString) : WireJsonObject × StableIds :=
  let outputIndex := integerMember event "output_index"
  let announced :=
    if type = js "response.output_item.added" then
      outputIndex.bind fun index =>
        ((objectMember event "item").bind fun item => stringMember item "id").map fun id =>
          (index, id)
    else none
  let stableIds := announced.toList ++ stableIds
  match outputIndex.bind fun index => stableIds.lookup index with
  | none => (event, stableIds)
  | some stableId =>
    let next := replaceExistingStringMember event "item_id" stableId
    if type = js "response.output_item.done" then
      match objectMember next "item" with
      | some item =>
        (replaceMember next "item" (.object (replaceExistingStringMember item "id" stableId)),
          stableIds)
      | none => (next, stableIds)
    else (next, stableIds)

def isTerminalEvent (type : JsString) : Bool :=
  type = js "response.completed" || type = js "response.failed" ||
    type = js "response.incomplete" || type = js "error"

def encodeOpenaiResponsesSseEvent (event : WireJsonObject) : Except WireJsonError (List UInt8) :=
  match (event.find? fun member => member.1 = js "type").map Prod.snd with
  | some (.string type) =>
    if type = [] then .error .serializationFailure
    else do
      let data ← serializeWireJson (.object event)
      .ok (encodeUtf8 (js "event: " ++ type ++ js "\ndata: " ++ decodeText data ++ js "\n\n"))
  | _ => .error .serializationFailure

section Normalizer

variable {σ : Type} (beforeEvent : σ → WireJsonObject → Except GatewayFailure σ)

/-- One event of `normalizeNativeResponsesStream`: the bytes written for it and
whether it is terminal. `beforeEvent` is the endpoint's continuation hook, a
function of its own state; it runs before the event is written and may throw. -/
def normalizeEvent (state : σ × StableIds) (event : ParsedSseEvent) :
    Except GatewayFailure ((σ × StableIds) × List UInt8 × Bool) := do
  let payload ← parseResponsesEventData event
  let some type := stringMember payload "type" | .error invalidUpstreamResponse
  if type = [] ∨ (event.eventName.isSome ∧ event.eventName ≠ some type) then
    .error invalidUpstreamResponse
  else
    let host ← beforeEvent state.1 payload
    let (normalized, stableIds) := normalizeNativeResponsesEvent payload state.2 type
    match encodeOpenaiResponsesSseEvent normalized with
    | .ok bytes => .ok ((host, stableIds), bytes, isTerminalEvent type)
    | .error _ => .error invalidUpstreamResponse

/-- The events of a stream in turn, up to a terminal one; `outcome` is how
reading ends once they are used up. -/
def normalizeEvents (outcome : Except GatewayFailure Unit) :
    σ × StableIds → List ParsedSseEvent → Generator (List UInt8) GatewayFailure Unit
  | _, [] =>
    match outcome with
    | .error failure => Generator.throw failure
    | .ok () => Generator.throw upstreamStreamTruncated
  | state, event :: events =>
    match normalizeEvent beforeEvent state event with
    | .error failure => Generator.throw failure
    | .ok (next, bytes, terminal) =>
      if terminal then Generator.emit [bytes] (Generator.pure ())
      else Generator.emit [bytes] (normalizeEvents outcome next events)

/-- `normalizeNativeResponsesStream` over `parseResponsesSse`. -/
def normalizeNativeResponsesStream (eventLimitBytes : Nat) (host : σ)
    (chunks : List (List UInt8)) : Generator (List UInt8) GatewayFailure Unit :=
  let records := parseResponsesSse eventLimitBytes chunks
  normalizeEvents beforeEvent records.outcome (host, []) records.yielded

end Normalizer

end GhcGateway.Responses
