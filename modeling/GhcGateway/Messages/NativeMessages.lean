/-
# The native Messages event stream

When the upstream speaks the Messages protocol itself, the gateway hands its event stream
on byte by byte. An observer cuts the bytes into records at blank lines, reads the usage
and the end of the message from them, and gives every record on as it came. Nothing is
given on before the first record that says something about the message.

The chunks of the upstream are a list; its bytes are decoded only to be observed.
-/

import GhcGateway.Conversion.Types
import GhcGateway.Gateway.Failure
import GhcGateway.Library.Generator
import GhcGateway.Responses.NativeSse
import GhcGateway.Serialization.Number

namespace GhcGateway.Messages

open Library

open Conversion (SemanticUsage)
open Responses (splitLines replaceCrLf replaceCr)

def invalid : GatewayFailure := ⟨.invalidUpstreamResponse, some .parser, some .stream⟩

def truncated : GatewayFailure := ⟨.upstreamStreamTruncated, some .parser, some .stream⟩

def upstreamStreamError : GatewayFailure := ⟨.upstreamStreamError, some .parser, some .stream⟩

/-- The limits of the stream: the bytes of a record, and those that are read before the
first record about the message. -/
structure StreamLimits where
  eventLimitBytes : Nat
  accumulatorBytes : Nat

/-! ## Usage -/

def objectMember (object : Option WireJsonObject) (key : String) : Option WireJsonObject :=
  (object.bind fun object => (memberValues object (js key)).head?).bind WireJson.object?

def optionalIntegerMember (object : WireJsonObject) (key : String) : Option Nat :=
  match (memberValues object (js key)).head? with
  | some (.number lexeme) =>
    match jsSafeInteger lexeme with
    | some value => if 0 ≤ value then some value.toNat else none
    | none => none
  | _ => none

structure PartialMessagesUsage where
  inputTokens : Option Nat
  outputTokens : Option Nat
  cacheReadTokens : Option Nat
  cacheWriteTokens : Option Nat
  thinkingTokens : Option Nat

/-- The sums and the difference are those of doubles; below zero, the difference counts as
zero. -/
def mergeMessagesUsage (current : SemanticUsage) (update : PartialMessagesUsage) :
    SemanticUsage where
  inputTokens :=
    let currentNoncache := roundDouble
      (roundDouble (current.inputTokens - current.cacheReadTokens) - current.cacheWriteTokens)
    roundDouble (roundDouble (update.inputTokens.getD currentNoncache +
      update.cacheReadTokens.getD current.cacheReadTokens) +
      update.cacheWriteTokens.getD current.cacheWriteTokens)
  outputTokens := update.outputTokens.getD current.outputTokens
  cacheReadTokens := update.cacheReadTokens.getD current.cacheReadTokens
  cacheWriteTokens := update.cacheWriteTokens.getD current.cacheWriteTokens
  reasoningTokens := update.thinkingTokens.getD current.reasoningTokens
  reportedReasoningTokens := update.thinkingTokens.or current.reportedReasoningTokens

/-- The update that `mergeUsage` makes of a usage object. -/
def usageUpdate (value : WireJsonObject) : PartialMessagesUsage where
  inputTokens := optionalIntegerMember value "input_tokens"
  outputTokens := optionalIntegerMember value "output_tokens"
  cacheReadTokens := optionalIntegerMember value "cache_read_input_tokens"
  cacheWriteTokens := optionalIntegerMember value "cache_creation_input_tokens"
  thinkingTokens :=
    (objectMember (some value) "output_tokens_details").bind fun details =>
      optionalIntegerMember details "thinking_tokens"

/-! ## Records -/

/-- What a record does to the observer: whether it is about the message, whether it stops
it, and the usage it reports. -/
structure RecordEffect where
  semantic : Bool
  stops : Bool
  usage : Option WireJsonObject

/-- The value of the last `event:` line. -/
def eventOf (lines : List JsString) : Option JsString :=
  ((lines.filter (js "event:").isPrefixOf).map fun line => JsString.trim (line.drop 6)).getLast?

/-- The text after `data:`, without the one space that may stand before it. -/
def dataOf (line : JsString) : JsString :=
  match line.drop 5 with
  | 0x20 :: rest => rest
  | rest => rest

/-- The `data:` lines, joined. -/
def dataLines (lines : List JsString) : JsString :=
  (((lines.filter (js "data:").isPrefixOf).map dataOf).intersperse [0x0A]).flatten

/-- `observeRecord` for the payload of a record. -/
def observePayload (payload : WireJsonObject) : Except GatewayFailure RecordEffect :=
  match memberValues payload (js "type"), memberValues payload (js "error") with
  | [.string type], [] =>
    if type = js "error" then .error upstreamStreamError
    else if type = js "message_start" then
      .ok ⟨true, false, objectMember (objectMember (some payload) "message") "usage"⟩
    else if type = js "message_delta" then .ok ⟨true, false, objectMember (some payload) "usage"⟩
    else if type = js "message_stop" then .ok ⟨true, true, none⟩
    else if type = js "content_block_start" ∨ type = js "content_block_delta" ∨
        type = js "content_block_stop" then .ok ⟨true, false, none⟩
    else .ok ⟨false, false, none⟩
  | _, _ => .error invalid

/-- `observeRecord`, without the byte order mark. -/
def observeLines (lines : List JsString) : Except GatewayFailure RecordEffect :=
  if eventOf lines = some (js "error") then .error upstreamStreamError
  else
    let data := dataLines lines
    if data = [] then .ok ⟨false, false, none⟩
    else
      let bytes := encodeUtf8 data
      match parseWireJson bytes ⟨max 1 bytes.length, 64⟩ with
      | .ok (.object payload) => observePayload payload
      | _ => .error invalid

def observeRecord (raw : JsString) : Except GatewayFailure RecordEffect :=
  observeLines (splitLines (if raw.head? = some 0xFEFF then raw.drop 1 else raw))

/-- `new TextDecoder("utf-8", { fatal: true, ignoreBOM: true }).decode(bytes)`. -/
def decodeWhole (bytes : List UInt8) : Except GatewayFailure JsString :=
  match Utf8Decoder.initial.decode bytes with
  | none => .error invalid
  | some (decoder, text) =>
    match decoder.finish with
    | none => .error invalid
    | some rest => .ok (text ++ rest)

def recordEffect (bytes : List UInt8) : Except GatewayFailure RecordEffect :=
  match decodeWhole bytes with
  | .error failure => .error failure
  | .ok raw => observeRecord (replaceCr (replaceCrLf raw))

/-! ## The observer -/

/-- `NativeMessagesObserver`; `pending` is the content of its accumulator. -/
structure NativeMessagesObserver where
  utf8Validator : Utf8Decoder
  pending : List UInt8
  pendingCr : Bool
  completeOnPendingCr : Bool
  lineEmpty : Bool
  terminal : Bool
  semantic : Bool
  usage : SemanticUsage
  deriving DecidableEq

namespace NativeMessagesObserver

/-- Before the first byte. -/
def initial : NativeMessagesObserver where
  utf8Validator := .initial
  pending := []
  pendingCr := false
  completeOnPendingCr := false
  lineEmpty := true
  terminal := false
  semantic := false
  usage := ⟨0, 0, 0, 0, 0, none⟩

/-- A computation that moves the observer on and gives records. -/
abbrev Observed := Except GatewayFailure (NativeMessagesObserver × List (List UInt8))

def append (limit : Nat) (observer : NativeMessagesObserver) (bytes : List UInt8) :
    Except GatewayFailure NativeMessagesObserver :=
  if limit < (observer.pending ++ bytes).length then .error invalid
  else .ok { observer with pending := observer.pending ++ bytes }

def apply (observer : NativeMessagesObserver) (effect : RecordEffect) : NativeMessagesObserver :=
  { observer with
    pending := []
    lineEmpty := true
    semantic := observer.semantic || effect.semantic
    terminal := observer.terminal || effect.stops
    usage :=
      match effect.usage with
      | some value => mergeMessagesUsage observer.usage (usageUpdate value)
      | none => observer.usage }

/-- `emitRecord`, and what follows where the message has not stopped. -/
def emitRecord (observer : NativeMessagesObserver)
    (next : NativeMessagesObserver → Observed) : Observed :=
  match recordEffect observer.pending with
  | .error failure => .error failure
  | .ok effect =>
    if (observer.apply effect).terminal then .ok (observer.apply effect, [observer.pending])
    else
      match next (observer.apply effect) with
      | .error failure => .error failure
      | .ok (last, records) => .ok (last, observer.pending :: records)

/-- A record is emitted where the line that has ended was empty. -/
def emitWhere (complete : Bool) (observer : NativeMessagesObserver)
    (next : NativeMessagesObserver → Observed) : Observed :=
  if complete then observer.emitRecord next else next observer

def isPlain (byte : UInt8) : Bool := byte ≠ 0x0A && byte ≠ 0x0D

def appendLine (limit : Nat) (observer : NativeMessagesObserver) (line : List UInt8) :
    Except GatewayFailure NativeMessagesObserver :=
  if line = [] then .ok observer
  else
    match observer.append limit line with
    | .error failure => .error failure
    | .ok next => .ok { next with lineEmpty := false }

/-- The loop of `consume`: a line with its end in each round. `fuel` bounds the rounds;
each uses up a byte at least. -/
def consumeLines (limit : Nat) : Nat → NativeMessagesObserver → List UInt8 → Observed
  | 0, observer, _ => .ok (observer, [])
  | fuel + 1, observer, bytes =>
    match observer.appendLine limit (bytes.takeWhile isPlain) with
    | .error failure => .error failure
    | .ok observer =>
      match bytes.dropWhile isPlain with
      | [] => .ok (observer, [])
      | character :: rest =>
        match observer.append limit [character] with
        | .error failure => .error failure
        | .ok ended =>
          -- `finishLine`
          let complete := ended.lineEmpty
          let finished := { ended with lineEmpty := true }
          if character = 0x0D then
            match rest with
            | [] =>
              .ok ({ finished with pendingCr := true, completeOnPendingCr := complete }, [])
            | 0x0A :: more =>
              match finished.append limit [0x0A] with
              | .error failure => .error failure
              | .ok both =>
                both.emitWhere complete fun observer => consumeLines limit fuel observer more
            | more =>
              finished.emitWhere complete fun observer => consumeLines limit fuel observer more
          else finished.emitWhere complete fun observer => consumeLines limit fuel observer rest

def consumeAll (limit : Nat) (bytes : List UInt8) (observer : NativeMessagesObserver) : Observed :=
  consumeLines limit (bytes.length + 1) observer bytes

/-- The carriage return that was the last byte of the chunk before is done with. -/
def settleCr (limit : Nat) (observer : NativeMessagesObserver) (bytes : List UInt8) : Observed :=
  let settled := { observer with pendingCr := false, completeOnPendingCr := false }
  match bytes with
  | 0x0A :: rest =>
    match settled.append limit [0x0A] with
    | .error failure => .error failure
    | .ok both => both.emitWhere observer.completeOnPendingCr (consumeAll limit rest)
  | bytes => settled.emitWhere observer.completeOnPendingCr (consumeAll limit bytes)

def consume (limit : Nat) (observer : NativeMessagesObserver) (bytes : List UInt8) : Observed :=
  match observer.utf8Validator.decode bytes with
  | none => .error invalid
  | some (utf8Validator, _) =>
    if observer.pendingCr then settleCr limit { observer with utf8Validator } bytes
    else consumeAll limit bytes { observer with utf8Validator }

/-- The record that ends with the last byte of the stream. -/
def finishRecord (observer : NativeMessagesObserver) : Observed :=
  let settled := { observer with pendingCr := false, completeOnPendingCr := false }
  if observer.pendingCr then
    settled.emitWhere observer.completeOnPendingCr fun observer => .ok (observer, [])
  else .ok (observer, [])

def finish (observer : NativeMessagesObserver) :
    Except GatewayFailure (SemanticUsage × List (List UInt8)) :=
  match observer.utf8Validator.finish with
  | none => .error invalid
  | some _ =>
    match observer.finishRecord with
    | .error failure => .error failure
    | .ok (last, records) =>
      match decodeWhole last.pending with
      | .error failure => .error failure
      | .ok decoded =>
        if decoded.trim ≠ [] then .error truncated
        else if !last.terminal then .error truncated
        else .ok (last.usage, records)

end NativeMessagesObserver

open NativeMessagesObserver

/-! ## The emissions -/

/-- What is given on, and how it ends: with the usage, or with a failure. -/
abbrev Emissions := Generator (List UInt8) GatewayFailure SemanticUsage

variable (limits : StreamLimits)

/-- The chunks after the first record about the message. -/
def deliver : NativeMessagesObserver → List (List UInt8) → Emissions
  | observer, [] =>
    match observer.finish with
    | .error failure => Generator.throw failure
    | .ok (usage, records) => Generator.emit records (Generator.pure usage)
  | observer, chunk :: chunks =>
    match observer.consume limits.eventLimitBytes chunk with
    | .error failure => Generator.throw failure
    | .ok (next, records) =>
      Generator.emit records
        (if next.terminal then Generator.pure next.usage else deliver next chunks)

/-- The chunks up to that record: the records so far are kept back, and so many bytes have
been read. -/
def prefetch : NativeMessagesObserver → Nat → List (List UInt8) → List (List UInt8) → Emissions
  | _, _, _, [] => Generator.throw truncated
  | observer, prefetchedBytes, presemanticRecords, chunk :: chunks =>
    if limits.accumulatorBytes < prefetchedBytes + chunk.length then Generator.throw invalid
    else
      match observer.consume limits.eventLimitBytes chunk with
      | .error failure => Generator.throw failure
      | .ok (next, records) =>
        if next.semantic then
          Generator.emit (presemanticRecords ++ records)
            (if next.terminal then Generator.pure next.usage else deliver limits next chunks)
        else prefetch next (prefetchedBytes + chunk.length) (presemanticRecords ++ records) chunks

def nativeMessagesEmissions (chunks : List (List UInt8)) : Emissions :=
  prefetch limits .initial 0 [] chunks

end GhcGateway.Messages
