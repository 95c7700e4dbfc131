/-
# The pieces of a Messages request

Every item writes at most one piece: some blocks, for the user or for the assistant. The
messages are the runs of the pieces. What an item is to the messages can be read off its piece:
the call or the result it is, and whether it has something to see.
-/

import GhcGateway.Library.Runs
import GhcGateway.Requests.Messages
import Mathlib.Data.List.ReduceOption

namespace GhcGateway.Requests

open Conversion Library

variable {item : SemanticRequestItem} {blocks : List WireJson}

/-! ## Reading messages -/

/-- A call or a result in the blocks of a message. -/
inductive ToolReference
  | call (callId name : JsString)
  | result (callId : JsString)

def toolReference (block : WireJson) : Option ToolReference :=
  match block with
  | .object block =>
    let text (key : String) : JsString := ((oneMember block key).bind WireJson.string?).getD []
    if oneMember block "type" = some (.string (js "tool_use")) then
      some (.call (text "id") (text "name"))
    else if oneMember block "type" = some (.string (js "tool_result")) then
      some (.result (text "tool_use_id"))
    else none
  | _ => none

def roleOf (message : WireJson) : Option WireJson :=
  message.object?.bind fun message => oneMember message "role"

def contentOf (message : WireJson) : Option WireJson :=
  message.object?.bind fun message => oneMember message "content"

def toolReferences (message : WireJson) : List ToolReference :=
  match contentOf message with
  | some (.array blocks) => blocks.filterMap toolReference
  | _ => []

def SemanticRequestItem.reference : SemanticRequestItem → Option ToolReference
  | .toolCall call => some (.call call.callId call.name)
  | .toolResult result => some (.result result.callId)
  | _ => none

/-- A block shows something to a model. -/
def isSubstantiveBlock (block : WireJson) : Bool :=
  hasSubstantiveMessagesUserContent (some (.array [block]))

theorem hasSubstantive_array (blocks : List WireJson) :
    hasSubstantiveMessagesUserContent (some (.array blocks)) = blocks.any isSubstantiveBlock := by
  rw [hasSubstantiveMessagesUserContent]
  congr 1
  funext block
  simp [isSubstantiveBlock, hasSubstantiveMessagesUserContent]

/-! ## Pieces -/

inductive Speaker
  | user
  | assistant
  deriving DecidableEq

def Speaker.text : Speaker → String
  | .user => "user"
  | .assistant => "assistant"

def messageOf (run : Speaker × List WireJson) : WireJsonObject :=
  wireObject [("role", some (.string (js run.1.text))), ("content", some (.array run.2))]

theorem js_speaker_injective {first second : Speaker} (same : js first.text = js second.text) :
    first = second := by
  have apart : js "user" ≠ js "assistant" := by decide
  cases first <;> cases second <;> first
    | rfl
    | exact absurd same apart
    | exact absurd same.symm apart

theorem hasRole_messageOf (run : Speaker × List WireJson) (speaker : Speaker) :
    hasRole (messageOf run) speaker.text ↔ run.1 = speaker := by
  have role : oneMember (messageOf run) "role" = some (.string (js run.1.text)) := by
    simp [messageOf, oneMember, memberValues, wireObject]
  rw [hasRole, role, Option.some.injEq, WireJson.string.injEq]
  exact ⟨js_speaker_injective, fun same => same ▸ rfl⟩

theorem oneMember_messageOf (run : Speaker × List WireJson) :
    oneMember (messageOf run) "content" = some (.array run.2) := by
  have apart : js "role" ≠ js "content" := by decide
  simp [messageOf, oneMember, memberValues, wireObject, apart]

theorem pushMessagesRole_map (speaker : Speaker) (blocks : List WireJson)
    (runs : List (Speaker × List WireJson)) :
    pushMessagesRole speaker.text blocks (runs.map messageOf) =
      (pushRun speaker blocks runs).map messageOf := by
  cases runs with
  | nil => rfl
  | cons last earlier =>
    rw [List.map_cons, pushMessagesRole, pushRun]
    by_cases same : last.1 = speaker
    · have apart : js "role" ≠ js "content" := by decide
      simp only [hasRole_messageOf, oneMember_messageOf, same, if_true]
      rw [List.map_cons]
      congr 1
      simp [messageOf, wireObject, assignFirst, apart, same]
    · simp only [hasRole_messageOf, same, if_false]
      rfl

/-- The blocks that an item writes, and for whom. -/
def pieceOf : SemanticRequestItem → Except ContractError (Option (Speaker × List WireJson))
  | .message .system _ => .ok none
  | .message .developer _ => .ok none
  | .message .user content => .ok (some (.user, messagesBlocks content))
  | .message .assistant content => .ok (some (.assistant, messagesBlocks content))
  | .reasoning _ (some (.messagesBlock block)) => .ok (some (.assistant, [.object block]))
  | .reasoning parts _ =>
    .ok (if joinedText parts = [] then none
      else some (.assistant, [.object (thinkingBlock (joinedText parts))]))
  | .toolCall call =>
    match parseArgumentsObject call.argumentsJson "REQ-TARGET-M-TOOL-ARGS" with
    | .ok input => .ok (some (.assistant, [.object (toolUseBlock call input)]))
    | .error error => .error error
  | .toolResult result => .ok (some (.user, [.object (toolResultBlock result)]))

/-- The runs behind a piece, if there is one. -/
def pushPiece (runs : List (Speaker × List WireJson)) :
    Option (Speaker × List WireJson) → List (Speaker × List WireJson)
  | none => runs
  | some (speaker, blocks) => pushRun speaker blocks runs

theorem encodeMessagesItem_map {runs : List (Speaker × List WireJson)}
    {output : List WireJsonObject} (encoded : encodeMessagesItem (runs.map messageOf) item =
      .ok output) :
    ∃ piece, pieceOf item = .ok piece ∧ output = (pushPiece runs piece).map messageOf := by
  unfold encodeMessagesItem at encoded
  split at encoded
  · exact ⟨none, rfl, (Except.ok.inj encoded).symm⟩
  · exact ⟨none, rfl, (Except.ok.inj encoded).symm⟩
  · exact ⟨_, rfl, (Except.ok.inj encoded).symm.trans (pushMessagesRole_map .user _ _)⟩
  · exact ⟨_, rfl, (Except.ok.inj encoded).symm.trans (pushMessagesRole_map .assistant _ _)⟩
  · exact ⟨_, rfl, (Except.ok.inj encoded).symm.trans (pushMessagesRole_map .assistant _ _)⟩
  · next parts opaqueState notBlock =>
    have piece : pieceOf (.reasoning parts opaqueState) = .ok (if joinedText parts = [] then none
        else some (.assistant, [.object (thinkingBlock (joinedText parts))])) := by
      unfold pieceOf
      split <;> simp_all
    refine ⟨_, piece, ?_⟩
    rw [← Except.ok.inj encoded]
    split
    · rfl
    · exact pushMessagesRole_map .assistant _ _
  · next call =>
    cases parsed : parseArgumentsObject call.argumentsJson "REQ-TARGET-M-TOOL-ARGS" with
    | error error =>
      rw [parsed] at encoded
      cases encoded
    | ok input =>
      rw [parsed] at encoded
      refine ⟨some (.assistant, [.object (toolUseBlock call input)]), ?_, ?_⟩
      · rw [pieceOf, parsed]
      · exact (Except.ok.inj encoded).symm.trans (pushMessagesRole_map .assistant _ _)
  · exact ⟨_, rfl, (Except.ok.inj encoded).symm.trans (pushMessagesRole_map .user _ _)⟩

theorem runsFrom_reduceOption (runs : List (Speaker × List WireJson))
    (piece : Option (Speaker × List WireJson)) (pieces : List (Option (Speaker × List WireJson))) :
    runsFrom (pushPiece runs piece) pieces.reduceOption =
      runsFrom runs (piece :: pieces).reduceOption := by
  cases piece with
  | none => rfl
  | some piece => rfl

/-- The messages are the runs of the pieces. -/
theorem encodeMessagesItems_eq {items : List SemanticRequestItem} {messages : List WireJsonObject}
    (encoded : encodeMessagesItems items = .ok messages) :
    ∃ pieces, List.Forall₂ (fun item piece => pieceOf item = .ok piece) items pieces ∧
      messages = ((runsFrom [] pieces.reduceOption).map messageOf).reverse := by
  have general {items : List SemanticRequestItem} {output : List WireJsonObject} :
      ∀ {runs : List (Speaker × List WireJson)},
        items.foldlM encodeMessagesItem (runs.map messageOf) = .ok output →
        ∃ pieces, List.Forall₂ (fun item piece => pieceOf item = .ok piece) items pieces ∧
          output = (runsFrom runs pieces.reduceOption).map messageOf := by
    induction items with
    | nil =>
      intro runs encoded
      exact ⟨[], .nil, (Except.ok.inj encoded).symm⟩
    | cons item items ih =>
      intro runs encoded
      rw [List.foldlM_cons] at encoded
      cases first : encodeMessagesItem (runs.map messageOf) item with
      | error error =>
        rw [first] at encoded
        cases encoded
      | ok next =>
        rw [first] at encoded
        obtain ⟨piece, isPiece, rfl⟩ := encodeMessagesItem_map first
        obtain ⟨pieces, arePieces, rfl⟩ := ih encoded
        exact ⟨piece :: pieces, .cons isPiece arePieces, by rw [runsFrom_reduceOption]⟩
  unfold encodeMessagesItems at encoded
  cases folded : items.foldlM encodeMessagesItem [] with
  | error error =>
    rw [folded] at encoded
    cases encoded
  | ok output =>
    rw [folded] at encoded
    have fromStart : items.foldlM encodeMessagesItem ([].map messageOf) = .ok output := folded
    obtain ⟨pieces, arePieces, rfl⟩ := general fromStart
    exact ⟨pieces, arePieces, (Except.ok.inj encoded).symm⟩

/-! ## Items -/

/-- The state of a reasoning item is a thinking block, as the decoders keep it. -/
def SemanticRequestItem.KeepsThinking : SemanticRequestItem → Prop
  | .reasoning _ (some (.messagesBlock block)) => isThinkingType (oneMember block "type") = true
  | _ => True

def SemanticRequestItem.writesAssistant : SemanticRequestItem → Bool
  | .message .assistant _ => true
  | .reasoning _ (some (.messagesBlock _)) => true
  | .reasoning parts _ => joinedText parts ≠ []
  | .toolCall _ => true
  | _ => false

/-- A part shows something: an image, or a text that is not blank. -/
def SemanticContent.shows : SemanticContent → Bool
  | .text written => written.trim ≠ []
  | .refusal written => written.trim ≠ []
  | .image _ _ => true

/-- A user message with something to see. -/
def SemanticRequestItem.speaks : SemanticRequestItem → Bool
  | .message .user content => content.any SemanticContent.shows
  | _ => false

/-- The items before the assistant's first. -/
def leadingItems (items : List SemanticRequestItem) : List SemanticRequestItem :=
  items.takeWhile fun item => !item.writesAssistant

theorem toolReference_of_type {block : WireJsonObject} {type : String}
    (isType : oneMember block "type" = some (.string (js type)))
    (notUse : js type ≠ js "tool_use") (notResult : js type ≠ js "tool_result") :
    toolReference (.object block) = none := by
  simp [toolReference, isType, notUse, notResult]

theorem toolReference_content (part : SemanticContent) :
    toolReference (.object (encodeMessagesContent part)) = none := by
  have text (written : JsString) : toolReference (.object (messagesText written)) = none :=
    toolReference_of_type rfl (by decide) (by decide)
  have image (source : WireJsonObject) : toolReference (.object (messagesImage source)) = none :=
    toolReference_of_type rfl (by decide) (by decide)
  unfold encodeMessagesContent
  split
  · exact text _
  · exact text _
  · split
    · exact image _
    · exact image _

theorem toolReferences_blocks (content : List SemanticContent) :
    (messagesBlocks content).filterMap toolReference = [] := by
  simp [messagesBlocks, toolReference_content]

theorem isSubstantiveBlock_content (part : SemanticContent) :
    isSubstantiveBlock (.object (encodeMessagesContent part)) = part.shows := by
  have text (written : JsString) :
      isSubstantiveBlock (.object (messagesText written)) = (written.trim ≠ [] : Bool) := by
    have apart : js "type" ≠ js "text" := by decide
    simp [isSubstantiveBlock, hasSubstantiveMessagesUserContent, messagesText,
      wireObject, oneMember,
      memberValues, apart]
  have image (source : WireJsonObject) :
      isSubstantiveBlock (.object (messagesImage source)) = true := by
    have apart : js "image" ≠ js "text" := by decide
    simp [isSubstantiveBlock, hasSubstantiveMessagesUserContent, messagesImage, wireObject,
      oneMember, memberValues, apart]
  cases part with
  | text written => exact text written
  | refusal written => exact text written
  | image url detail =>
    rw [encodeMessagesContent]
    split
    · exact image _
    · exact image _

theorem toolReference_toolUseBlock (call : ToolCallItem) (input : WireJsonObject) :
    toolReference (.object (toolUseBlock call input)) = some (.call call.callId call.name) := by
  have type : oneMember (toolUseBlock call input) "type" = some (.string (js "tool_use")) := rfl
  have id : oneMember (toolUseBlock call input) "id" = some (.string call.callId) := by
    have apart : js "type" ≠ js "id" := by decide
    simp [toolUseBlock, wireObject, oneMember, memberValues, apart]
  have name : oneMember (toolUseBlock call input) "name" = some (.string call.name) := by
    have typeApart : js "type" ≠ js "name" := by decide
    have idApart : js "id" ≠ js "name" := by decide
    simp [toolUseBlock, wireObject, oneMember, memberValues, typeApart, idApart]
  simp [toolReference, type, id, name, WireJson.string?]

theorem toolReference_toolResultBlock (result : ToolResultItem) :
    toolReference (.object (toolResultBlock result)) = some (.result result.callId) := by
  have type : oneMember (toolResultBlock result) "type" = some (.string (js "tool_result")) := rfl
  have apart : js "tool_result" ≠ js "tool_use" := by decide
  have id : oneMember (toolResultBlock result) "tool_use_id" = some (.string result.callId) := by
    have typeApart : js "type" ≠ js "tool_use_id" := by decide
    simp [toolResultBlock, wireObject, oneMember, memberValues, typeApart]
  simp [toolReference, type, id, apart, WireJson.string?]

theorem isSubstantiveBlock_toolResultBlock (result : ToolResultItem) :
    isSubstantiveBlock (.object (toolResultBlock result)) = false := by
  have type : oneMember (toolResultBlock result) "type" = some (.string (js "tool_result")) := rfl
  have notText : js "tool_result" ≠ js "text" := by decide
  have notImage : js "tool_result" ≠ js "image" := by decide
  simp [isSubstantiveBlock, hasSubstantiveMessagesUserContent, type, notText, notImage]

structure Writes (item : SemanticRequestItem) (piece : Option (Speaker × List WireJson)) :
    Prop where
  assistant : item.writesAssistant = true ↔ ∃ blocks, piece = some (.assistant, blocks)
  references : (piece.elim [] Prod.snd).filterMap toolReference = item.reference.toList
  speaks : (piece.elim [] fun piece => if piece.1 = .user then piece.2 else []).any
    isSubstantiveBlock = item.speaks

theorem writes_none (notAssistant : item.writesAssistant = false)
    (noReference : item.reference = none) (silent : item.speaks = false) : Writes item none :=
  ⟨by simp [notAssistant], by simp [noReference], by simp [silent]⟩

theorem writes_assistant (isAssistant : item.writesAssistant = true)
    (references : blocks.filterMap toolReference = item.reference.toList)
    (silent : item.speaks = false) : Writes item (some (.assistant, blocks)) :=
  ⟨by simp [isAssistant], references, by simp [silent]⟩

theorem writes_user (notAssistant : item.writesAssistant = false)
    (references : blocks.filterMap toolReference = item.reference.toList)
    (speaks : blocks.any isSubstantiveBlock = item.speaks) : Writes item (some (.user, blocks)) :=
  ⟨by simp [notAssistant], references, by simpa using speaks⟩

theorem writes_of_pieceOf {piece : Option (Speaker × List WireJson)} (keeps : item.KeepsThinking)
    (isPiece : pieceOf item = .ok piece) : Writes item piece := by
  unfold pieceOf at isPiece
  split at isPiece
  · cases isPiece
    exact writes_none rfl rfl rfl
  · cases isPiece
    exact writes_none rfl rfl rfl
  · next content =>
    cases isPiece
    refine writes_user rfl (toolReferences_blocks content) ?_
    rw [messagesBlocks, List.any_map]
    congr 1
    funext part
    exact isSubstantiveBlock_content part
  · cases isPiece
    exact writes_assistant rfl (toolReferences_blocks _) rfl
  · next block =>
    cases isPiece
    refine writes_assistant rfl ?_ rfl
    have thinking : toolReference (.object block) = none := by
      have either : isThinkingType (oneMember block "type") = true := keeps
      rw [isThinkingType, Bool.or_eq_true] at either
      rcases either with isType | isType
      · exact toolReference_of_type (of_decide_eq_true isType) (by decide) (by decide)
      · exact toolReference_of_type (of_decide_eq_true isType) (by decide) (by decide)
    simp [thinking, SemanticRequestItem.reference]
  · next parts opaqueState notBlock =>
    have writes : (SemanticRequestItem.reasoning parts opaqueState).writesAssistant =
        (joinedText parts ≠ [] : Bool) := by
      unfold SemanticRequestItem.writesAssistant
      split <;> simp_all
    cases isPiece
    split
    · next empty => exact writes_none (by rw [writes]; simpa using empty) rfl rfl
    · next some =>
      refine writes_assistant (by rw [writes]; simpa using some) ?_ rfl
      have thinking : toolReference (.object (thinkingBlock (joinedText parts))) = none :=
        toolReference_of_type rfl (by decide) (by decide)
      simp [thinking, SemanticRequestItem.reference]
  · next call =>
    split at isPiece
    · cases isPiece
      refine writes_assistant rfl ?_ rfl
      simp [toolReference_toolUseBlock, SemanticRequestItem.reference]
    · cases isPiece
  · next result =>
    cases isPiece
    refine writes_user rfl ?_ ?_
    · simp [toolReference_toolResultBlock, SemanticRequestItem.reference]
    · simp [isSubstantiveBlock_toolResultBlock, SemanticRequestItem.speaks]

end GhcGateway.Requests
