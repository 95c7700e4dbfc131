/-
# The turns of a Chat request

What `encodeChatMessages` builds, with the texts left out: system and user messages, tool
messages with the call they answer, and assistant turns with the calls they make and the
members that reasoning gave them. The encoder and this abstraction go in step, so what the
messages look like follows from the turns.
-/

import GhcGateway.Requests.Chat

namespace GhcGateway.Requests

open Conversion

variable {output : List WireJsonObject} {calls : List ToolCallItem}
  {message object state : WireJsonObject} {held : List JsString} {key : String} {value : WireJson}

/-- A message without its texts. -/
inductive Entry
  | other
  | turn (calls : List ToolCallItem) (held : List JsString)
  | answer (callId : JsString)

variable {entries : List Entry}

namespace Entry

/-- A turn takes the members of a reasoning item. -/
def hold (names : List JsString) : Entry → Entry
  | turn calls held => turn calls (held ++ names)
  | entry => entry

/-- How far back the last turn with calls is, of the turns at the end. -/
def lastCaller : List Entry → Option Nat
  | turn [] _ :: earlier => (lastCaller earlier).map (· + 1)
  | turn (_ :: _) _ :: _ => some 0
  | _ => none

/-- A text joins the last turn as long as that has no calls. -/
def reasonText : List Entry → List Entry
  | turn [] held :: earlier => turn [] (held ++ [js "reasoning_content"]) :: earlier
  | entries => turn [] [js "reasoning_content"] :: entries

/-- A state joins the last turn with calls, or the last turn if none of them has any. -/
def reasonState (names : List JsString) : List Entry → List Entry
  | turn calls held :: earlier =>
    (turn calls held :: earlier).modify ((lastCaller (turn calls held :: earlier)).getD 0)
      (hold names)
  | entries => turn [] names :: entries

def reason (parts : List ReasoningPart) (opaqueState : Option OpaqueReasoningState)
    (entries : List Entry) : List Entry :=
  match opaqueState with
  | none => if joinedText parts = [] then entries else reasonText entries
  | some (.chatState state) => reasonState (state.map Prod.fst) entries
  | some _ => if joinedText parts = [] then entries else turn [] [js "reasoning_content"] :: entries

/-- A call joins the last turn. -/
def call (item : ToolCallItem) : List Entry → List Entry
  | turn calls held :: earlier => turn (calls ++ [item]) held :: earlier
  | entries => turn [item] [] :: entries

/-- Results, and a user message if they have media. -/
def answers (results : List ToolResultItem) (entries : List Entry) : List Entry :=
  let answered := (results.map fun result => answer result.callId).reverse ++ entries
  if results.flatMap mediaOf = [] then answered else other :: answered

def speak (role : MessageRole) (entries : List Entry) : List Entry :=
  (if role = .assistant then turn [] [] else other) :: entries

/-- The entries of a list of items, the last one first. -/
def run : List SemanticRequestItem → List ToolResultItem → List Entry → List Entry
  | [], results, entries => answers results entries
  | .toolResult result :: items, results, entries => run items (results ++ [result]) entries
  | .message role _ :: items, results, entries =>
      run items [] (speak role (answers results entries))
  | .reasoning parts opaqueState :: items, results, entries =>
    run items [] (reason parts opaqueState (answers results entries))
  | .toolCall item :: items, results, entries => run items [] (call item (answers results entries))

end Entry

def chatEntries (request : SemanticRequest) : List Entry :=
  (Entry.run request.items [] (if request.instructions = [] then [] else [.other])).reverse

/-! ## Members -/

/-- The members that a Chat state is made of. -/
def chatStateNames : List JsString :=
  [js "reasoning_text", js "reasoning_content", js "reasoning", js "reasoning_details",
    js "reasoning_opaque"]

/-- The state of a reasoning item is one that the decoders keep of a Chat message. -/
def SemanticRequestItem.Decoded : SemanticRequestItem → Prop
  | .reasoning _ (some (.chatState state)) => ∀ member ∈ state, member.1 ∈ chatStateNames
  | _ => True

theorem oneMember_append (object more : WireJsonObject) (key : String) :
    oneMember (object ++ more) key = (oneMember object key).or (oneMember more key) := by
  simp [oneMember, memberValues, List.head?_append]

theorem oneMember_eq_none_iff : oneMember object key = none ↔ js key ∉ object.map Prod.fst := by
  rw [oneMember, memberValues, List.head?_eq_none_iff, List.map_eq_nil_iff,
    List.filter_eq_nil_iff, List.mem_map]
  constructor
  · rintro absent ⟨member, isMember, isName⟩
    exact absent member isMember (decide_eq_true isName)
  · intro absent member isMember isName
    exact absent ⟨member, isMember, of_decide_eq_true isName⟩

/-- Looking up a member of an object that is written out. -/
theorem oneMember_wireObject_cons (name key : String) (value : WireJson)
    (entries : List (String × Option WireJson)) :
    oneMember (wireObject ((name, some value) :: entries)) key =
      if js name = js key then some value else oneMember (wireObject entries) key := by
  by_cases same : js name = js key
  · simp [oneMember, memberValues, wireObject, same]
  · simp [oneMember, memberValues, wireObject, same]

theorem names_assignFirst (object : WireJsonObject) (key : String) (value : WireJson) :
    (assignFirst object key value).map Prod.fst = object.map Prod.fst := by
  induction object with
  | nil => rfl
  | cons member members ih =>
    rw [assignFirst]
    split
    · rfl
    · rw [List.map_cons, List.map_cons, ih]

theorem oneMember_assignFirst (some' : oneMember object key ≠ none) :
    oneMember (assignFirst object key value) key = some value := by
  induction object with
  | nil => exact absurd rfl some'
  | cons member members ih =>
    rw [assignFirst]
    split
    case isTrue same => simp [oneMember, memberValues, same]
    case isFalse apart =>
      have rest : oneMember members key ≠ none := by
        simpa [oneMember, memberValues, apart] using some'
      simpa [oneMember, memberValues, apart] using ih rest

theorem oneMember_assignFirst_of_ne {other : String} (apart : js other ≠ js key) :
    oneMember (assignFirst object key value) other = oneMember object other := by
  induction object with
  | nil => rfl
  | cons member members ih =>
    rw [assignFirst]
    split
    case isTrue same =>
      have notOther : member.1 ≠ js other := same ▸ apart.symm
      simp [oneMember, memberValues, notOther]
    case isFalse =>
      by_cases isOther : member.1 = js other
      · simp [oneMember, memberValues, isOther]
      · simpa [oneMember, memberValues, isOther] using ih

/-! ## Messages and entries -/

/-- `tool_calls`, as long as there are any. -/
def callsMember (calls : List ToolCallItem) : Option WireJson :=
  if calls = [] then none
  else some (.array (calls.map fun call => .object (encodeChatToolCall call)))

/-- The name of `tool_calls`, as long as there are any. -/
def callsName (calls : List ToolCallItem) : List JsString :=
  if calls = [] then [] else [js "tool_calls"]

/-- An entry is a message without its texts. -/
inductive Represents : Entry → WireJsonObject → Prop
  | other (role : JsString) (content : WireJson) (notAssistant : role ≠ js "assistant")
      (notTool : role ≠ js "tool") :
      Represents .other (wireObject [("role", some (.string role)), ("content", some content)])
  | turn {message : WireJsonObject} {calls : List ToolCallItem} {held : List JsString}
      (role : hasRole message "assistant")
      (called : oneMember message "tool_calls" = callsMember calls)
      (names : (message.map Prod.fst).Perm (js "role" :: js "content" :: (callsName calls ++ held)))
      (states : ∀ name ∈ held, name ∈ chatStateNames) : Represents (.turn calls held) message
  | answer (callId : JsString) (content : WireJson) :
      Represents (.answer callId) (wireObject [
        ("role", some (.string (js "tool"))),
        ("tool_call_id", some (.string callId)),
        ("content", some content)])

theorem Represents.hasRole_iff {entry : Entry} (represents : Represents entry message) :
    hasRole message "assistant" ↔ ∃ calls held, entry = .turn calls held := by
  cases represents with
  | other role content notAssistant _ =>
    have isRole : oneMember (wireObject [("role", some (.string role)), ("content", some content)])
        "role" = some (.string role) := by
      simp [oneMember, memberValues, wireObject]
    simp [hasRole, isRole, notAssistant]
  | turn role => exact ⟨fun _ => ⟨_, _, rfl⟩, fun _ => role⟩
  | answer callId content =>
    have isRole : oneMember (wireObject [("role", some (.string (js "tool"))),
        ("tool_call_id", some (.string callId)), ("content", some content)]) "role" =
          some (.string (js "tool")) := by
      simp [oneMember, memberValues, wireObject]
    have apart : js "tool" ≠ js "assistant" := by decide
    simp [hasRole, isRole, apart]

theorem callsMember_eq_none_iff : callsMember calls = none ↔ calls = [] := by
  simp [callsMember]

theorem represents_reasoningMessage (text : JsString) :
    Represents (.turn [] [js "reasoning_content"]) (reasoningMessage text) := by
  refine .turn rfl ?_ (.of_eq ?_) ?_
  · rw [reasoningMessage, oneMember_wireObject_cons, if_neg (by decide), oneMember_wireObject_cons,
      if_neg (by decide), oneMember_wireObject_cons, if_neg (by decide)]
    rfl
  · simp [reasoningMessage, wireObject, callsName]
  intro name member
  rw [List.mem_singleton.mp member]
  decide

/-- Members of a state do not hide those that a message has. -/
theorem Represents.hold {more : WireJsonObject} (represents : Represents (.turn calls held) message)
    (decoded : ∀ member ∈ more, member.1 ∈ chatStateNames) :
    Represents (.turn calls (held ++ more.map Prod.fst)) (message ++ more) := by
  cases represents with
  | turn role called names states =>
    have noCalls : oneMember more "tool_calls" = none := by
      rw [oneMember_eq_none_iff]
      intro inside
      obtain ⟨member, isMember, isName⟩ := List.mem_map.mp inside
      have isState := decoded member isMember
      rw [isName] at isState
      exact absurd isState (by decide)
    refine .turn ?_ ?_ ?_ ?_
    · rw [hasRole, oneMember_append, role]
      rfl
    · rw [oneMember_append, noCalls, Option.or_none, called]
    · rw [List.map_append]
      exact (names.append_right _).trans (by simp)
    · rw [List.forall_mem_append]
      refine ⟨states, ?_⟩
      intro name isName
      obtain ⟨member, isMember, rfl⟩ := List.mem_map.mp isName
      exact decoded member isMember

theorem Represents.call (represents : Represents (.turn calls held) message) (item : ToolCallItem) :
    Represents (.turn (calls ++ [item]) held)
      (let called := appendObjectArrayMember message "tool_calls" (encodeChatToolCall item)
        if oneMember called "content" = none then appendMember called "content" .null
        else called) := by
  cases represents with
  | turn role called names states =>
    have roleApart : js "role" ≠ js "tool_calls" := by decide
    have contentApart : js "content" ≠ js "tool_calls" := by decide
    have hasContent : oneMember message "content" ≠ none := by
      rw [Ne, oneMember_eq_none_iff, not_not, names.mem_iff]
      simp
    have member : callsMember (calls ++ [item]) =
        some (.array (calls.map (fun call => .object (encodeChatToolCall call)) ++
          [.object (encodeChatToolCall item)])) := by
      simp [callsMember]
    have name : callsName (calls ++ [item]) = [js "tool_calls"] := by simp [callsName]
    by_cases empty : calls = []
    · have absent : oneMember message "tool_calls" = none := by
        rw [called, callsMember_eq_none_iff]
        exact empty
      have content : oneMember (message ++ [(js "tool_calls",
          WireJson.array [.object (encodeChatToolCall item)])]) "content" ≠ none := by
        rw [oneMember_append]
        simp [hasContent]
      simp only [appendObjectArrayMember, absent, appendMember]
      rw [if_neg content]
      refine .turn ?_ ?_ ?_ states
      · rw [hasRole, oneMember_append, role]
        rfl
      · rw [oneMember_append, absent, member, empty]
        rfl
      · rw [name, List.map_append]
        rw [empty] at names
        refine (names.append_right _).trans ?_
        simp only [callsName, if_true, List.nil_append, List.cons_append, List.map_cons,
          List.map_nil]
        exact ((List.perm_append_singleton _ _).cons _).cons _
    · have present : oneMember message "tool_calls" =
          some (.array (calls.map fun call => .object (encodeChatToolCall call))) := by
        rw [called, callsMember, if_neg empty]
      have content : oneMember (assignFirst message "tool_calls"
          (.array (calls.map (fun call => .object (encodeChatToolCall call)) ++
            [.object (encodeChatToolCall item)]))) "content" ≠ none := by
        rw [oneMember_assignFirst_of_ne contentApart]
        exact hasContent
      simp only [appendObjectArrayMember, present]
      rw [if_neg content]
      refine .turn ?_ ?_ ?_ states
      · rw [hasRole, oneMember_assignFirst_of_ne roleApart]
        exact role
      · rw [member, oneMember_assignFirst (by rw [present]; simp)]
      · rw [names_assignFirst, name]
        rw [callsName, if_neg empty] at names
        exact names

/-! ## The encoder and the entries -/

abbrev Abstracts (entries : List Entry) (output : List WireJsonObject) : Prop :=
  List.Forall₂ Represents entries output

theorem Abstracts.lastWithCalls (abstracts : Abstracts entries output) :
    lastWithCalls output = Entry.lastCaller entries := by
  induction abstracts with
  | nil => rfl
  | @cons entry message entries output represents _ ih =>
    rw [Requests.lastWithCalls]
    cases entry with
    | other =>
      rw [if_pos (by simp [represents.hasRole_iff])]
      rfl
    | answer callId =>
      rw [if_pos (by simp [represents.hasRole_iff])]
      rfl
    | turn calls held =>
      rw [if_neg (by simp [represents.hasRole_iff])]
      cases represents with
      | turn role called names states =>
        rw [called, callsMember]
        cases calls with
        | nil => simp [Entry.lastCaller, ih]
        | cons call calls => simp [Entry.lastCaller]

theorem Abstracts.modify {index : Nat} (abstracts : Abstracts entries output)
    {change : Entry → Entry} {write : WireJsonObject → WireJsonObject}
    (kept : ∀ {entry message}, entries[index]? = some entry → Represents entry message →
      Represents (change entry) (write message)) :
    Abstracts (entries.modify index change) (output.modify index write) := by
  induction abstracts generalizing index with
  | nil => simp [Abstracts]
  | cons represents rest ih =>
    cases index with
    | zero => exact .cons (kept rfl represents) rest
    | succ index => exact .cons represents (ih kept)

theorem Abstracts.reasonText (abstracts : Abstracts entries output) (text : JsString) :
    Abstracts (Entry.reasonText entries) (pushReasoningText text output) := by
  cases abstracts with
  | nil => exact .cons (represents_reasoningMessage text) .nil
  | @cons entry message entries output represents rest =>
    rw [pushReasoningText]
    have fresh := List.Forall₂.cons (represents_reasoningMessage text) (.cons represents rest)
    cases entry with
    | other =>
      rw [if_pos (.inl (by simp [represents.hasRole_iff]))]
      exact fresh
    | answer callId =>
      rw [if_pos (.inl (by simp [represents.hasRole_iff]))]
      exact fresh
    | turn calls held =>
      have isTurn : hasRole message "assistant" := represents.hasRole_iff.mpr ⟨calls, held, rfl⟩
      have isCalled : oneMember message "tool_calls" = callsMember calls := by
        cases represents with
        | turn _ called _ _ => exact called
      rw [isCalled]
      cases calls with
      | nil =>
        rw [if_neg (by simp [isTurn, callsMember])]
        have isName : js "reasoning_content" ∈ chatStateNames := by decide
        have decoded : ∀ member ∈ [(js "reasoning_content", WireJson.string text)],
            member.1 ∈ chatStateNames := by
          intro member isMember
          rw [List.mem_singleton.mp isMember]
          exact isName
        exact .cons (represents.hold decoded) rest
      | cons call calls =>
        rw [if_pos (.inr (by simp [callsMember]))]
        exact fresh

/-- What the search for a turn with calls finds is a turn. -/
theorem lastCaller_isTurn (calls : List ToolCallItem) (held : List JsString)
    (entries : List Entry) :
    ∃ found names, (Entry.turn calls held :: entries)[
      (Entry.lastCaller (.turn calls held :: entries)).getD 0]? = some (.turn found names) := by
  have general (entries : List Entry) : ∀ {index}, Entry.lastCaller entries = some index →
      ∃ found names, entries[index]? = some (.turn found names) := by
    induction entries with
    | nil => intro index isIndex; cases isIndex
    | cons entry entries ih =>
      intro index isIndex
      cases entry with
      | other => cases isIndex
      | answer => cases isIndex
      | turn calls held =>
        cases calls with
        | cons call calls =>
          cases isIndex
          exact ⟨_, _, rfl⟩
        | nil =>
          obtain ⟨index, found, rfl⟩ := Option.map_eq_some_iff.mp isIndex
          simpa using ih found
  cases isIndex : Entry.lastCaller (.turn calls held :: entries) with
  | none => exact ⟨calls, held, rfl⟩
  | some index => exact general _ isIndex

theorem represents_state (decoded : ∀ member ∈ state, member.1 ∈ chatStateNames) :
    Represents (.turn [] (state.map Prod.fst))
      (wireObject [("role", some (.string (js "assistant"))), ("content", some .null)] ++
        state) := by
  have plain : Represents (.turn [] [])
      (wireObject [("role", some (.string (js "assistant"))), ("content", some .null)]) := by
    refine .turn rfl rfl (.of_eq ?_) (by simp)
    simp [wireObject, callsName]
  simpa using plain.hold decoded

theorem Abstracts.reasonState (abstracts : Abstracts entries output)
    (decoded : ∀ member ∈ state, member.1 ∈ chatStateNames) :
    Abstracts (Entry.reasonState (state.map Prod.fst) entries) (pushChatState state output) := by
  rw [pushChatState, abstracts.lastWithCalls]
  cases abstracts with
  | nil => exact .cons (represents_state decoded) .nil
  | @cons entry message entries output represents rest =>
    have fresh := List.Forall₂.cons (represents_state decoded) (.cons represents rest)
    cases entry with
    | other =>
      have notTurn : ¬ hasRole message "assistant" := by simp [represents.hasRole_iff]
      simpa [Entry.lastCaller, Entry.reasonState, notTurn] using fresh
    | answer callId =>
      have notTurn : ¬ hasRole message "assistant" := by simp [represents.hasRole_iff]
      simpa [Entry.lastCaller, Entry.reasonState, notTurn] using fresh
    | turn calls held =>
      have all : Abstracts (.turn calls held :: entries) (message :: output) :=
        .cons represents rest
      obtain ⟨found, names, isFound⟩ := lastCaller_isTurn calls held entries
      rw [Entry.reasonState]
      generalize (Entry.lastCaller (.turn calls held :: entries)).getD 0 = index at *
      obtain ⟨last, isLast, isTurn⟩ : ∃ last, (message :: output)[index]? = some last ∧
          Represents (.turn found names) last := by
        have related := (List.forall₂_iff_get.mp all)
        obtain ⟨small, isEntry⟩ := List.getElem?_eq_some_iff.mp isFound
        have smallOutput : index < (message :: output).length := related.1 ▸ small
        refine ⟨_, List.getElem?_eq_getElem smallOutput, ?_⟩
        rw [← isEntry]
        exact related.2 index small smallOutput
      simp only [isLast]
      rw [if_neg (by simp [isTurn.hasRole_iff])]
      apply all.modify
      intro entry other isEntry isOther
      rw [isFound] at isEntry
      cases isEntry
      exact isOther.hold decoded

theorem Abstracts.reason (abstracts : Abstracts entries output) {parts : List ReasoningPart}
    {opaqueState : Option OpaqueReasoningState}
    (decoded : (SemanticRequestItem.reasoning parts opaqueState).Decoded) :
    Abstracts (Entry.reason parts opaqueState entries)
      (pushChatReasoning parts opaqueState output) := by
  cases opaqueState with
  | none =>
    rw [Entry.reason, pushChatReasoning]
    split
    · exact abstracts
    · exact abstracts.reasonText _
  | some opaqueState =>
    cases opaqueState with
    | chatState state => exact abstracts.reasonState decoded
    | responsesItem item =>
      rw [Entry.reason, pushChatReasoning]
      · split
        · exact abstracts
        · exact .cons (represents_reasoningMessage _) abstracts
      · simp
      · simp
    | messagesBlock block =>
      rw [Entry.reason, pushChatReasoning]
      · split
        · exact abstracts
        · exact .cons (represents_reasoningMessage _) abstracts
      · simp
      · simp

theorem Abstracts.call (abstracts : Abstracts entries output) (item : ToolCallItem) :
    Abstracts (Entry.call item entries) (pushToolCall item output) := by
  have represents_fresh : Represents (.turn [item] []) (wireObject [
      ("role", some (.string (js "assistant"))),
      ("content", some .null),
      ("tool_calls", some (.array [.object (encodeChatToolCall item)]))]) := by
    refine .turn rfl ?_ (.of_eq ?_) (by simp)
    · rw [oneMember_wireObject_cons, if_neg (by decide), oneMember_wireObject_cons,
        if_neg (by decide), oneMember_wireObject_cons, if_pos rfl]
      rfl
    · simp [wireObject, callsName]
  cases abstracts with
  | nil => exact .cons represents_fresh .nil
  | @cons entry message entries output represents rest =>
    rw [pushToolCall]
    cases entry with
    | other =>
      rw [if_neg (by simp [represents.hasRole_iff])]
      exact .cons represents_fresh (.cons represents rest)
    | answer callId =>
      rw [if_neg (by simp [represents.hasRole_iff])]
      exact .cons represents_fresh (.cons represents rest)
    | turn calls held =>
      rw [if_pos (by simp [represents.hasRole_iff])]
      exact .cons (represents.call item) rest

theorem Abstracts.answers (abstracts : Abstracts entries output) (results : List ToolResultItem) :
    Abstracts (Entry.answers results entries) (pushToolResults results output) := by
  have answered : Abstracts (results.map fun result => Entry.answer result.callId).reverse
      (results.map toolMessage).reverse := by
    apply List.rel_reverse
    rw [List.forall₂_map_left_iff, List.forall₂_map_right_iff]
    exact List.forall₂_same.mpr fun result _ => .answer _ _
  rw [Entry.answers, pushToolResults]
  split
  · exact List.rel_append answered abstracts
  · exact .cons (.other _ _ (by decide) (by decide)) (List.rel_append answered abstracts)

theorem Abstracts.speak (abstracts : Abstracts entries output) (role : MessageRole)
    (content : List SemanticContent) :
    Abstracts (Entry.speak role entries)
      (wireObject [
        ("role", some (.string (js role.text))),
        ("content", some (encodeChatContent content))] :: output) := by
  refine .cons ?_ abstracts
  cases role with
  | assistant =>
    refine .turn rfl ?_ (.of_eq ?_) (by simp)
    · rw [oneMember_wireObject_cons, if_neg (by decide), oneMember_wireObject_cons,
        if_neg (by decide)]
      rfl
    · simp [MessageRole.text, wireObject, callsName]
  | system => exact .other _ _ (by decide) (by decide)
  | developer => exact .other _ _ (by decide) (by decide)
  | user => exact .other _ _ (by decide) (by decide)

/-- The loop keeps the messages in step with the entries. -/
theorem Abstracts.run {items : List SemanticRequestItem} (decoded : ∀ item ∈ items, item.Decoded)
    {results : List ToolResultItem} (abstracts : Abstracts entries output) :
    Abstracts (Entry.run items results entries) (encodeChatItems items results output) := by
  induction items generalizing results entries output with
  | nil => exact abstracts.answers results
  | cons item items ih =>
    rw [List.forall_mem_cons] at decoded
    cases item with
    | message role content => exact ih decoded.2 ((abstracts.answers results).speak role content)
    | reasoning parts opaqueState =>
        exact ih decoded.2 ((abstracts.answers results).reason decoded.1)
    | toolCall call => exact ih decoded.2 ((abstracts.answers results).call call)
    | toolResult result => exact ih decoded.2 abstracts

theorem encodeChatMessages_abstracts {request : SemanticRequest}
    (decoded : ∀ item ∈ request.items, item.Decoded)
    (degradations : List ConversionDegradationRule) :
    Abstracts (chatEntries request) (encodeChatMessages request degradations).1 := by
  apply List.rel_reverse
  apply Abstracts.run decoded
  split
  · exact .nil
  · exact .cons (.other _ _ (by decide) (by decide)) .nil

end GhcGateway.Requests
