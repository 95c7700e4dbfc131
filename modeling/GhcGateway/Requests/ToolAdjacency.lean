/-
# Tool adjacency

A Chat message list keeps calls and their answers together: each tool message stands in the
block of tool messages behind the assistant message that made the call, and each call of an
assistant message is answered in the block behind it. Two neighbours are enough to break
that, whatever is appended later.
-/

import GhcGateway.Requests.ChatTurns

namespace GhcGateway.Requests

open Conversion

inductive MessageKind
  | other
  | assistant (calls : List JsString)
  | tool (callId : JsString)
  deriving DecidableEq

variable {kinds : List MessageKind}

def MessageKind.isTool : MessageKind → Bool
  | tool _ => true
  | _ => false

/-- The ids in the `tool_calls` of a message. -/
def toolCallIds (message : WireJsonObject) : List JsString :=
  match oneMember message "tool_calls" with
  | some (.array calls) => calls.filterMap fun call =>
    (call.object?.bind fun call => oneMember call "id").bind WireJson.string?
  | _ => []

def messageKind (message : WireJsonObject) : MessageKind :=
  if hasRole message "assistant" then .assistant (toolCallIds message)
  else if hasRole message "tool" then
    .tool (((oneMember message "tool_call_id").bind WireJson.string?).getD [])
  else .other

/-- Each tool message stands in the block behind an assistant message that made its call. -/
def Called (kinds : List MessageKind) : Prop :=
  ∀ earlier callId later, kinds = earlier ++ .tool callId :: later →
    ∃ before calls block, earlier = before ++ .assistant calls :: block ∧
      (∀ kind ∈ block, kind.isTool = true) ∧ callId ∈ calls

/-- Each call of an assistant message is answered in the block behind it. -/
def Answered (kinds : List MessageKind) : Prop :=
  ∀ earlier calls later, kinds = earlier ++ .assistant calls :: later →
    ∀ callId ∈ calls, .tool callId ∈ later.takeWhile MessageKind.isTool

def ToolsAdjacent (kinds : List MessageKind) : Prop := Called kinds ∧ Answered kinds

/-! ## Kinds of entries -/

def Entry.kind : Entry → MessageKind
  | other => .other
  | turn calls _ => .assistant (calls.map ToolCallItem.callId)
  | answer callId => .tool callId

theorem oneMember_encodeChatToolCall (call : ToolCallItem) :
    oneMember (encodeChatToolCall call) "id" = some (.string call.callId) := by
  rw [encodeChatToolCall, oneMember_wireObject_cons, if_pos rfl]

theorem toolCallIds_eq {message : WireJsonObject} {calls : List ToolCallItem}
    (called : oneMember message "tool_calls" = callsMember calls) :
    toolCallIds message = calls.map ToolCallItem.callId := by
  by_cases empty : calls = []
  · rw [toolCallIds, called, callsMember, if_pos empty, empty]
    rfl
  · rw [toolCallIds, called, callsMember, if_neg empty]
    simp [List.filterMap_map, Function.comp_def, WireJson.object?, WireJson.string?,
      oneMember_encodeChatToolCall]

theorem Represents.messageKind_eq {entry : Entry} {message : WireJsonObject}
    (represents : Represents entry message) : messageKind message = entry.kind := by
  have assistant := represents.hasRole_iff
  cases represents with
  | other role content notAssistant notTool =>
    have notTurn : ¬ hasRole (wireObject [("role", some (.string role)), ("content", some content)])
        "assistant" := by simp [assistant]
    have notAnswer : ¬ hasRole
        (wireObject [("role", some (.string role)), ("content", some content)])
        "tool" := by
      rw [hasRole, oneMember_wireObject_cons, if_pos rfl]
      simpa using notTool
    rw [messageKind, if_neg notTurn, if_neg notAnswer]
    rfl
  | turn role called names states =>
    rw [messageKind, if_pos role, toolCallIds_eq called]
    rfl
  | answer callId content =>
    have notTurn : ¬ hasRole (wireObject [("role", some (.string (js "tool"))),
        ("tool_call_id", some (.string callId)), ("content", some content)]) "assistant" := by
      simp [assistant]
    have isTool : hasRole (wireObject [("role", some (.string (js "tool"))),
        ("tool_call_id", some (.string callId)), ("content", some content)]) "tool" := by
      rw [hasRole, oneMember_wireObject_cons, if_pos rfl]
    have isId : oneMember (wireObject [("role", some (.string (js "tool"))),
        ("tool_call_id", some (.string callId)), ("content", some content)]) "tool_call_id" =
          some (.string callId) := by
      rw [oneMember_wireObject_cons, if_neg (by decide), oneMember_wireObject_cons, if_pos rfl]
    rw [messageKind, if_neg notTurn, if_pos isTool, isId]
    rfl

theorem Abstracts.map_messageKind {entries : List Entry} {output : List WireJsonObject}
    (abstracts : Abstracts entries output) :
    output.map messageKind = entries.map Entry.kind := by
  induction abstracts with
  | nil => rfl
  | cons represents _ ih => rw [List.map_cons, List.map_cons, represents.messageKind_eq, ih]

/-! ## Growing -/

theorem mem_takeWhile_append {first second : List MessageKind} {kind : MessageKind}
    (member : kind ∈ first.takeWhile MessageKind.isTool) :
    kind ∈ (first ++ second).takeWhile MessageKind.isTool := by
  rw [List.takeWhile_append]
  split
  · exact List.mem_append_left _ ((List.takeWhile_prefix _).subset member)
  · exact member

/-- A message that neither calls nor answers can be appended. -/
theorem ToolsAdjacent.append (adjacent : ToolsAdjacent kinds) {kind : MessageKind}
    (silent : kind = .other ∨ kind = .assistant []) : ToolsAdjacent (kinds ++ [kind]) := by
  constructor
  · intro earlier callId later shape
    rcases List.eq_nil_or_concat' later with rfl | ⟨later, last, rfl⟩
    · obtain ⟨-, same⟩ := List.append_inj' shape rfl
      rcases silent with rfl | rfl <;> cases same
    · rw [← List.cons_append, ← List.append_assoc] at shape
      obtain ⟨same, -⟩ := List.append_inj' shape rfl
      exact adjacent.1 _ _ _ same
  · intro earlier calls later shape callId isCall
    rcases List.eq_nil_or_concat' later with rfl | ⟨later, last, rfl⟩
    · obtain ⟨-, same⟩ := List.append_inj' shape rfl
      rcases silent with rfl | rfl <;> cases same
      cases isCall
    · rw [← List.cons_append, ← List.append_assoc] at shape
      obtain ⟨same, -⟩ := List.append_inj' shape rfl
      exact mem_takeWhile_append (adjacent.2 _ _ _ same callId isCall)

/-- Calls can be appended with answers to all of them and to nothing else. -/
theorem ToolsAdjacent.exchange {kinds : List MessageKind} (adjacent : ToolsAdjacent kinds)
    {calls answered : List JsString} (same : ∀ callId, callId ∈ calls ↔ callId ∈ answered) :
    ToolsAdjacent (kinds ++ .assistant calls :: answered.map .tool) := by
  have tools : ∀ kind ∈ answered.map MessageKind.tool, kind.isTool = true := by
    intro kind member
    obtain ⟨callId, -, rfl⟩ := List.mem_map.mp member
    rfl
  constructor
  · intro earlier callId later shape
    rcases List.append_eq_append_iff.mp shape with ⟨middle, rfl, rest⟩ | ⟨middle, rfl, rest⟩
    · cases middle with
      | nil => cases rest
      | cons kind block =>
        obtain ⟨rfl, isBlock⟩ := List.cons_eq_cons.mp rest
        refine ⟨kinds, calls, block, rfl, ?_, ?_⟩
        · intro kind member
          exact tools kind (isBlock ▸ List.mem_append_left _ member)
        · have isAnswer : MessageKind.tool callId ∈ answered.map MessageKind.tool :=
            isBlock ▸ List.mem_append_right _ List.mem_cons_self
          obtain ⟨other, isAnswered, sameId⟩ := List.mem_map.mp isAnswer
          cases sameId
          exact (same _).mpr isAnswered
    · cases middle with
      | nil => cases rest
      | cons kind middle =>
        obtain ⟨rfl, -⟩ := List.cons_eq_cons.mp rest
        exact adjacent.1 _ _ _ rfl
  · intro earlier others later shape callId isCall
    rcases List.append_eq_append_iff.mp shape with ⟨middle, rfl, rest⟩ | ⟨middle, rfl, rest⟩
    · cases middle with
      | nil =>
        obtain ⟨sameCalls, rfl⟩ := List.cons_eq_cons.mp rest
        cases sameCalls
        rw [List.takeWhile_eq_self_iff.mpr tools]
        exact List.mem_map_of_mem ((same _).mp isCall)
      | cons kind middle =>
        obtain ⟨rfl, isBlock⟩ := List.cons_eq_cons.mp rest
        have isAssistant : MessageKind.assistant others ∈ answered.map MessageKind.tool :=
          isBlock ▸ List.mem_append_right _ List.mem_cons_self
        exact absurd (tools _ isAssistant) (by simp [MessageKind.isTool])
    · cases middle with
      | nil =>
        obtain ⟨sameCalls, rfl⟩ := List.cons_eq_cons.mp rest
        cases sameCalls
        rw [List.takeWhile_eq_self_iff.mpr tools]
        exact List.mem_map_of_mem ((same _).mp isCall)
      | cons kind middle =>
        obtain ⟨rfl, rfl⟩ := List.cons_eq_cons.mp rest
        exact mem_takeWhile_append (adjacent.2 _ _ _ rfl callId isCall)

/-! ## Breaking -/

/-- Neighbours that cannot stand so: a message with calls before one that answers none, or an
answer behind a message without calls. -/
def Clash (first second : MessageKind) : Prop :=
  (∃ callId calls, first = .assistant (callId :: calls) ∧ second.isTool = false) ∨
    ((first = .other ∨ first = .assistant []) ∧ second.isTool = true)

/-- Two neighbours clash, in a list with the last message first. -/
def Broken (kinds : List MessageKind) : Prop :=
  ∃ later second first earlier, kinds = later ++ second :: first :: earlier ∧ Clash first second

theorem Broken.not_adjacent (broken : Broken kinds) : ¬ ToolsAdjacent kinds.reverse := by
  obtain ⟨later, second, first, earlier, rfl, clash⟩ := broken
  have shape : (later ++ second :: first :: earlier).reverse =
      earlier.reverse ++ first :: second :: later.reverse := by simp
  rw [shape]
  rintro ⟨called, answered⟩
  rcases clash with ⟨callId, calls, rfl, notTool⟩ | ⟨noCalls, isTool⟩
  · have member := answered _ _ _ rfl callId List.mem_cons_self
    rw [List.takeWhile_cons_of_neg (by simp [notTool])] at member
    cases member
  · cases second with
    | other => cases isTool
    | assistant => cases isTool
    | tool callId =>
      have split : earlier.reverse ++ first :: .tool callId :: later.reverse =
          (earlier.reverse ++ [first]) ++ .tool callId :: later.reverse := by simp
      obtain ⟨before, calls, block, same, tools, isCall⟩ := called _ _ _ split
      rcases List.eq_nil_or_concat' block with rfl | ⟨block, last, rfl⟩
      · obtain ⟨-, isFirst⟩ := List.append_inj' same rfl
        cases isFirst
        rcases noCalls with impossible | none
        · cases impossible
        · cases none
          cases isCall
      · rw [← List.cons_append, ← List.append_assoc] at same
        obtain ⟨-, isFirst⟩ := List.append_inj' same rfl
        cases isFirst
        have isTool := tools first (List.mem_append_right _ List.mem_cons_self)
        rcases noCalls with rfl | rfl <;> cases isTool

theorem Broken.cons {kinds : List MessageKind} (broken : Broken kinds) (kind : MessageKind) :
    Broken (kind :: kinds) := by
  obtain ⟨later, second, first, earlier, rfl, clash⟩ := broken
  exact ⟨kind :: later, second, first, earlier, rfl, clash⟩

/-- The last message may change as long as it stays no tool message. -/
theorem Broken.change {old new : MessageKind} (broken : Broken (old :: kinds))
    (isOld : old.isTool = false) (isNew : new.isTool = false) : Broken (new :: kinds) := by
  obtain ⟨later, second, first, earlier, shape, clash⟩ := broken
  cases later with
  | nil =>
    obtain ⟨rfl, rfl⟩ := List.cons_eq_cons.mp shape
    refine ⟨[], new, first, earlier, rfl, ?_⟩
    rcases clash with ⟨callId, calls, isFirst, -⟩ | ⟨-, isTool⟩
    · exact .inl ⟨callId, calls, isFirst, isNew⟩
    · rw [isOld] at isTool
      cases isTool
  | cons kind later =>
    obtain ⟨-, rfl⟩ := List.cons_eq_cons.mp shape
    exact ⟨new :: later, second, first, earlier, rfl, clash⟩

theorem broken_of_clash {first second : MessageKind} {earlier : List MessageKind}
    (clash : Clash first second) : Broken (second :: first :: earlier) :=
  ⟨[], second, first, earlier, rfl, clash⟩

end GhcGateway.Requests
