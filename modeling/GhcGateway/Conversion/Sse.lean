/-
# The event stream reader of the converters

The converters read an upstream event stream line by line. Between two chunks the
reader keeps its decoder, the line it is in the middle of, the lines of the
record it has not finished, their size, and whether the last unit it saw was a
carriage return: a line feed at the start of the next chunk belongs to it.

The records a chunk completes are collected first and yielded once the whole
chunk has been read, so a chunk that cannot be read yields nothing.
-/

import GhcGateway.Gateway.Failure
import GhcGateway.Library.Generator
import GhcGateway.Responses.NativeSse
import GhcGateway.Serialization.Text

namespace GhcGateway.Conversion

open Library

structure SseRecord where
  eventName : Option JsString
  data : JsString
  deriving DecidableEq

/-- The codes of an `SseDecodeError`. -/
inductive SseDecodeCode
  | eventTooLarge
  | invalidUtf8
  deriving DecidableEq

inductive SseReaderError
  | decode (code : SseDecodeCode)
  | gateway (failure : GatewayFailure)
  deriving DecidableEq

/-- `parseRecordLines`: no data lines make no record. -/
def parseRecordLines (lines : List JsString) : Option SseRecord :=
  let (eventName, data) := lines.foldl Responses.readLine (none, [])
  if data = [] then none else some ⟨eventName, (data.intersperse [0x0A]).flatten⟩

/-! ## The text decoder -/

/-- `new TextDecoder("utf-8", { fatal: true, ignoreBOM: false })`: a byte order
mark at the start of the stream is dropped. -/
structure TextDecoder where
  utf8 : Utf8Decoder
  bomSeen : Bool

namespace TextDecoder

/-- Before the first chunk. -/
def initial : TextDecoder := ⟨Utf8Decoder.initial, false⟩

/-- The first unit of the stream is dropped if it is a byte order mark. -/
def dropBom (bomSeen : Bool) (units : JsString) : Bool × JsString :=
  if bomSeen then (true, units)
  else
    match units with
    | [] => (false, [])
    | unit :: rest => (true, if unit = 0xFEFF then rest else units)

/-- `decoder.decode(bytes, { stream: true })`. -/
def decode (decoder : TextDecoder) (bytes : List UInt8) : Option (TextDecoder × JsString) :=
  match decoder.utf8.decode bytes with
  | none => none
  | some (utf8, units) =>
    let (bomSeen, text) := dropBom decoder.bomSeen units
    some (⟨utf8, bomSeen⟩, text)

/-- `decoder.decode()`. -/
def finish (decoder : TextDecoder) : Option JsString := decoder.utf8.finish

end TextDecoder

/-! ## Lines and records -/

/-- What the reader keeps between two units. `line` is what the fragments of the
`FragmentAccumulator` join to. -/
structure SseLines where
  line : JsString
  recordLines : List JsString
  recordBytes : Nat
  pendingCr : Bool

/-- A step of the reader: the records it pushes onto `ready` and what is left
after it, unless it throws. -/
abbrev SseStep := Generator SseRecord SseReaderError

namespace SseLines

variable {eventLimitBytes : Nat} {content rest : JsString} {lines : SseLines}

def reserve (eventLimitBytes : Nat) (lines : SseLines) (value : JsString) :
    Except SseReaderError SseLines :=
  let recordBytes := lines.recordBytes + utf8ByteLength value
  if eventLimitBytes < recordBytes then .error (.decode .eventTooLarge)
  else .ok { lines with recordBytes := recordBytes }

/-- `finishLine`: a blank line ends the record. -/
def finishLine (lines : SseLines) : SseStep SseLines :=
  if lines.line ≠ [] then
    Generator.pure { lines with line := [], recordLines := lines.recordLines ++ [lines.line] }
  else
    Generator.emit (parseRecordLines lines.recordLines).toList
      (Generator.pure { lines with recordLines := [], recordBytes := 0 })

/-- `reserve(terminator)` and `finishLine()`. -/
def endLine (eventLimitBytes : Nat) (lines : SseLines) (terminator : JsString) : SseStep SseLines :=
  (Generator.ofExcept (lines.reserve eventLimitBytes terminator)).bind finishLine

/-- `line.append(content)` and `reserve(content)`. -/
def extendLine (eventLimitBytes : Nat) (lines : SseLines) (content : JsString) : SseStep SseLines :=
  Generator.ofExcept
    (({ lines with line := lines.line ++ content } : SseLines).reserve eventLimitBytes content)

/-- The loop of `consume`. `content` is `value.slice(start, index)`, the part of
the current line before the unit it looks at. -/
def consumeUnits (eventLimitBytes : Nat) : SseLines → JsString → JsString → SseStep SseLines
  | lines, content, [] => lines.extendLine eventLimitBytes content
  | lines, content, 0x0A :: rest =>
    (lines.extendLine eventLimitBytes content).bind fun lines =>
      (lines.endLine eventLimitBytes [0x0A]).bind fun lines =>
        lines.consumeUnits eventLimitBytes [] rest
  | lines, content, [0x0D] =>
    (lines.extendLine eventLimitBytes content).bind fun lines =>
      -- the empty trailing fragment is reserved too
      ({ lines with pendingCr := true } : SseLines).extendLine eventLimitBytes []
  | lines, content, 0x0D :: 0x0A :: rest =>
    (lines.extendLine eventLimitBytes content).bind fun lines =>
      (lines.endLine eventLimitBytes [0x0D, 0x0A]).bind fun lines =>
        lines.consumeUnits eventLimitBytes [] rest
  | lines, content, 0x0D :: rest =>
    (lines.extendLine eventLimitBytes content).bind fun lines =>
      (lines.endLine eventLimitBytes [0x0D]).bind fun lines =>
        lines.consumeUnits eventLimitBytes [] rest
  | lines, content, unit :: rest =>
    lines.consumeUnits eventLimitBytes (content ++ [unit]) rest

theorem consumeUnits_cr (more : rest ≠ []) (alone : rest.head? ≠ some 0x0A) :
    lines.consumeUnits eventLimitBytes content (0x0D :: rest) =
      (lines.extendLine eventLimitBytes content).bind fun lines =>
        (lines.endLine eventLimitBytes [0x0D]).bind fun lines =>
          lines.consumeUnits eventLimitBytes [] rest := by
  rw [consumeUnits]
  · exact more
  · rintro tail rfl
    exact alone rfl

theorem consumeUnits_unit {unit : UInt16} (notLf : unit ≠ 0x0A) (notCr : unit ≠ 0x0D) :
    lines.consumeUnits eventLimitBytes content (unit :: rest) =
      lines.consumeUnits eventLimitBytes (content ++ [unit]) rest := by
  rw [consumeUnits]
  · exact notLf
  · exact fun cr _ => notCr cr
  · exact fun _ cr _ => notCr cr
  · exact notCr

/-- `consume`: first the carriage return held back, then the text. -/
def consume (eventLimitBytes : Nat) (lines : SseLines) (value : JsString) : SseStep SseLines :=
  if lines.pendingCr then
    let lines := { lines with pendingCr := false }
    match value with
    | 0x0A :: rest =>
      (lines.endLine eventLimitBytes [0x0D, 0x0A]).bind fun lines =>
        lines.consumeUnits eventLimitBytes [] rest
    | _ =>
      (lines.endLine eventLimitBytes [0x0D]).bind fun lines =>
        lines.consumeUnits eventLimitBytes [] value
  else lines.consumeUnits eventLimitBytes [] value

end SseLines

/-- The reader between two chunks. -/
structure SseReader where
  decoder : TextDecoder
  lines : SseLines

namespace SseReader

/-- Before the first chunk. -/
def initial : SseReader := ⟨TextDecoder.initial, ⟨[], [], 0, false⟩⟩

/-- What a chunk yields: `ready` is emptied after the whole chunk, or never. -/
def deliver {α : Type} (step : SseStep α) : SseStep α :=
  match step.outcome with
  | .error error => Generator.throw error
  | .ok _ => step

def readChunk (eventLimitBytes : Nat) (reader : SseReader) (chunk : List UInt8) :
    SseStep SseReader :=
  match reader.decoder.decode chunk with
  | none => Generator.throw (.decode .invalidUtf8)
  | some (decoder, text) =>
    (deliver (reader.lines.consume eventLimitBytes text)).bind fun lines =>
      Generator.pure ⟨decoder, lines⟩

def readChunks (eventLimitBytes : Nat) : SseReader → List (List UInt8) → SseStep SseReader
  | reader, [] => Generator.pure reader
  | reader, chunk :: chunks =>
    (reader.readChunk eventLimitBytes chunk).bind fun next =>
      next.readChunks eventLimitBytes chunks

/-- The end of the byte stream: a record that no blank line ended is an error,
unless it is blank. -/
def finish (eventLimitBytes : Nat) (reader : SseReader) : SseStep Unit :=
  match reader.decoder.finish with
  | none => Generator.throw (.decode .invalidUtf8)
  | some text =>
    let flushed :=
      (reader.lines.consume eventLimitBytes text).bind fun lines =>
        if lines.pendingCr then
          ({ lines with pendingCr := false } : SseLines).endLine eventLimitBytes [0x0D]
        else Generator.pure lines
    (deliver flushed).bind fun lines =>
      if lines.recordLines.any (fun value => value.trim ≠ []) ∨ lines.line.trim ≠ [] then
        Generator.throw (.gateway Responses.upstreamStreamTruncated)
      else Generator.pure ()

end SseReader

/-- `decodeSseRecords`: the records of a byte stream given in chunks, and how
reading ends. -/
def decodeSseRecords (eventLimitBytes : Nat) (chunks : List (List UInt8)) : SseStep Unit :=
  (SseReader.initial.readChunks eventLimitBytes chunks).bind (SseReader.finish eventLimitBytes)

end GhcGateway.Conversion
