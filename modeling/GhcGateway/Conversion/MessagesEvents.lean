/-
# Events of a Messages stream

The events the Messages emitter writes. The content blocks of the message are
numbered, started, extended and stopped, so what is written about them is a
transcript of blocks; `MessagesBlock.extend` is what a client makes of a delta. How
an event is spelled as a JSON object is left out.
-/

import GhcGateway.Conversion.Stream
import GhcGateway.Library.Transcript

namespace GhcGateway.Conversion

open Library

/-- A content block of a message. The input of a tool use is the text of its
JSON, as far as it has come. -/
inductive MessagesBlock
  | text (text : JsString)
  | thinking (thinking signature : JsString)
  | redactedThinking (data : JsString)
  | toolUse (id name inputJson : JsString)
  deriving DecidableEq

inductive MessagesDelta
  | text (text : JsString)
  | inputJson (partialJson : JsString)
  | thinking (thinking : JsString)
  | signature (signature : JsString)
  deriving DecidableEq

def MessagesBlock.extend : MessagesBlock → MessagesDelta → Option MessagesBlock
  | .text shown, .text delta => some (.text (shown ++ delta))
  | .thinking thought signature, .thinking delta => some (.thinking (thought ++ delta) signature)
  | .thinking thought _, .signature signature => some (.thinking thought signature)
  | .toolUse id name inputJson, .inputJson delta => some (.toolUse id name (inputJson ++ delta))
  | _, _ => none

def MessagesBlock.shownText : MessagesBlock → JsString
  | .text shown => shown
  | _ => []

abbrev MessagesLine := Transcript.Line MessagesBlock MessagesDelta

inductive MessagesEvent
  | messageStart
  | block (line : MessagesLine)
  | messageDelta (finishReason : FinishReason) (usage : SemanticUsage)
  | messageStop

end GhcGateway.Conversion
