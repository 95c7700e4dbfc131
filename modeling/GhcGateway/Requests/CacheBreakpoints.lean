/-
# Cache breakpoints of a Messages request

`withMessagesCacheBreakpoints` marks at most four places of a body: the last tool, the end of
the system prompt, the newest block of the messages that can be marked, and in a longer
history one of the second-newest user message. Of the messages it changes nothing else: a
marked message is the old one with `cache_control` added to one of its blocks.
-/

import GhcGateway.Requests.Types

namespace GhcGateway.Requests

open Conversion

variable {items : List WireJson} {index : Nat} {message : WireJson} {marked : WireJsonObject}

def maxCacheBreakpoints : Nat := 4

def ephemeral : WireJsonObject := wireObject [("type", some (.string (js "ephemeral")))]

def hasCacheControl (object : WireJsonObject) : Bool :=
    memberValues object (js "cache_control") ≠ []

def withCacheControl (object : WireJsonObject) : WireJsonObject :=
  object ++ [(js "cache_control", .object ephemeral)]

def withMember (object : WireJsonObject) (key : String) (value : WireJson) : WireJsonObject :=
  object.map fun member => if member.1 = js key then (js key, value) else member

/-- `countIn` of `countBreakpoints`. -/
def countIn (value : Option WireJson) : Nat :=
  match value with
  | some (.array items) => items.countP fun item =>
    match item with
    | .object block => hasCacheControl block
    | _ => false
  | _ => 0

def countBreakpoints (body : WireJsonObject) : Nat :=
  let inMessages : Nat :=
    match oneMember body "messages" with
    | some (.array messages) => (messages.map fun message =>
      match message with
      | .object message => countIn (oneMember message "content")
      | _ => 0).sum
    | _ => 0
  countIn (oneMember body "tools") + countIn (oneMember body "system") + inMessages

def isThinkingType (type : Option WireJson) : Bool :=
  type = some (.string (js "thinking")) || type = some (.string (js "redacted_thinking"))

/-- The block that `withMessageBreakpoint` marks and its index, in content with the last block
first. -/
def markableBlock : List WireJson → Option (Nat × WireJsonObject)
  | [] => none
  | .object block :: earlier =>
    -- thinking blocks cannot carry `cache_control`
    if isThinkingType (oneMember block "type") then markableBlock earlier
    else if hasCacheControl block then none
    else some (earlier.length, block)
  | _ :: _ => none

def withMessageBreakpoint (message : WireJson) : Option WireJsonObject :=
  match message with
  | .object message =>
    match oneMember message "content" with
    | some (.array content) =>
      (markableBlock content.reverse).map fun marked =>
        withMember message "content"
          (.array (content.set marked.1 (.object (withCacheControl marked.2))))
    | _ => none
  | _ => none

/-- The last item of an array marked, if it is an object without a mark. -/
def withLastMarked (items : List WireJson) : Option (List WireJson) :=
  match items.getLast? with
  | some (.object block) =>
    if hasCacheControl block then none
    else some (items.set (items.length - 1) (.object (withCacheControl block)))
  | _ => none

/-- The newest message that can be marked, marked, and its index; the last message comes
first. -/
def newestMarked : List WireJson → Option (Nat × WireJsonObject)
  | [] => none
  | message :: earlier =>
    match withMessageBreakpoint message with
    | some marked => some (earlier.length, marked)
    | none => newestMarked earlier

/-- The user message that so many user messages follow, and its index; the last message comes
first. -/
def userMessage : Nat → List WireJson → Option (Nat × WireJson)
  | _, [] => none
  | following, message :: earlier =>
    if (message.object?.bind fun message => oneMember message "role") = some (.string (js "user"))
    then
      match following with
      | 0 => some (earlier.length, message)
      | following + 1 => userMessage following earlier
    else userMessage following earlier

def markTools (body : WireJsonObject) (budget : Nat) : WireJsonObject × Nat :=
  match oneMember body "tools" with
  | some (.array tools) =>
    match withLastMarked tools with
    | some marked => (withMember body "tools" (.array marked), budget - 1)
    | none => (body, budget)
  | _ => (body, budget)

def markSystem (body : WireJsonObject) (budget : Nat) : WireJsonObject × Nat :=
  if budget = 0 then (body, budget)
  else
    let system : Option (List WireJson) :=
      match oneMember body "system" with
      | some (.string text) =>
        some [.object (wireObject [("type", some (.string (js "text"))),
          ("text", some (.string text))])]
      | some (.array items) => some items
      | _ => none
    match system.bind withLastMarked with
    | some marked => (withMember body "system" (.array marked), budget - 1)
    | none => (body, budget)

def markNewest (items : List WireJson) (budget : Nat) : List WireJson × Nat :=
  match newestMarked items.reverse with
  | some (index, marked) => (items.set index (.object marked), budget - 1)
  | none => (items, budget)

/-- The breakpoint of the second-newest user message of a longer history. -/
def markOlderUser (items : List WireJson) (budget : Nat) : List WireJson :=
  if 0 < budget ∧ 4 ≤ items.length then
    match userMessage 1 items.reverse with
    | some (index, message) =>
      match withMessageBreakpoint message with
      | some marked => items.set index (.object marked)
      | none => items
    | none => items
  else items

def withMessagesCacheBreakpoints (body : WireJsonObject) : WireJsonObject :=
  let budget := maxCacheBreakpoints - countBreakpoints body
  if budget = 0 then body
  else
    let (result, budget) := markTools body budget
    let (result, budget) := markSystem result budget
    if budget = 0 then result
    else
      match oneMember result "messages" with
      | some (.array items) =>
        let (newest, budget) := markNewest items budget
        let marked := markOlderUser newest budget
        if marked = items then result else withMember result "messages" (.array marked)
      | _ => result

/-! ## What marking changes -/

/-- A message with marks added to blocks of its content. -/
inductive Marked : WireJson → WireJson → Prop
  | refl (message : WireJson) : Marked message message
  | mark {message : WireJsonObject} {content : List WireJson} {index : Nat} {block : WireJsonObject}
      (isContent : oneMember message "content" = some (.array content))
      (isBlock : content[index]? = some (.object block)) :
      Marked (.object message)
        (.object (withMember message "content"
          (.array (content.set index (.object (withCacheControl block))))))
  | trans {first second third : WireJson} (before : Marked first second)
      (after : Marked second third) : Marked first third

theorem getElem?_reverse_cons {first item : WireJson} {earlier : List WireJson}
    (isItem : earlier.reverse[index]? = some item) :
    (first :: earlier).reverse[index]? = some item := by
  obtain ⟨small, -⟩ := List.getElem?_eq_some_iff.mp isItem
  rw [List.reverse_cons, List.getElem?_append_left small, isItem]

theorem markableBlock_spec {content : List WireJson} {block : WireJsonObject}
    (found : markableBlock content.reverse = some (index, block)) :
    content[index]? = some (.object block) := by
  have general : ∀ {blocks : List WireJson}, markableBlock blocks = some (index, block) →
      blocks.reverse[index]? = some (.object block) := by
    intro blocks
    induction blocks with
    | nil => intro found; cases found
    | cons first earlier ih =>
      intro found
      cases first with
      | object members =>
        rw [markableBlock] at found
        split at found
        · exact getElem?_reverse_cons (ih found)
        · split at found
          · cases found
          · cases found
            simp
      | null => cases found
      | bool => cases found
      | string => cases found
      | number => cases found
      | array => cases found
  simpa using general found

theorem marked_of_withMessageBreakpoint (isMarked : withMessageBreakpoint message = some marked) :
    Marked message (.object marked) := by
  unfold withMessageBreakpoint at isMarked
  split at isMarked
  · next members =>
    split at isMarked
    · next content isContent =>
      obtain ⟨⟨index, block⟩, found, rfl⟩ := Option.map_eq_some_iff.mp isMarked
      exact .mark isContent (markableBlock_spec found)
    · cases isMarked
  · cases isMarked

/-- The messages of a list, each with marks added. -/
abbrev AllMarked (items marked : List WireJson) : Prop := List.Forall₂ Marked items marked

theorem allMarked_refl (items : List WireJson) : AllMarked items items :=
  List.forall₂_same.mpr fun message _ => .refl message

theorem AllMarked.set {marked : WireJson} (isMessage : items[index]? = some message)
    (isMarked : Marked message marked) : AllMarked items (items.set index marked) := by
  induction items generalizing index with
  | nil => cases isMessage
  | cons first items ih =>
    cases index with
    | zero =>
      cases isMessage
      exact .cons isMarked (allMarked_refl items)
    | succ index => exact .cons (.refl first) (ih isMessage)

theorem AllMarked.trans {first second third : List WireJson} (before : AllMarked first second)
    (after : AllMarked second third) : AllMarked first third := by
  induction before generalizing third with
  | nil => exact after
  | cons isMarked _ ih =>
    cases after with
    | cons isNext rest => exact .cons (isMarked.trans isNext) (ih rest)

theorem newestMarked_spec (found : newestMarked items.reverse = some (index, marked)) :
    ∃ message, items[index]? = some message ∧ Marked message (.object marked) := by
  have general : ∀ {messages : List WireJson}, newestMarked messages = some (index, marked) →
      ∃ message, messages.reverse[index]? = some message ∧ Marked message (.object marked) := by
    intro messages
    induction messages with
    | nil => intro found; cases found
    | cons first earlier ih =>
      intro found
      rw [newestMarked] at found
      split at found
      · next other isMarked =>
        cases found
        exact ⟨first, by simp, marked_of_withMessageBreakpoint isMarked⟩
      · obtain ⟨message, isMessage, isMarked⟩ := ih found
        exact ⟨message, getElem?_reverse_cons isMessage, isMarked⟩
  simpa using general found

theorem userMessage_spec {following : Nat}
    (found : userMessage following items.reverse = some (index, message)) :
    items[index]? = some message := by
  have general : ∀ {messages : List WireJson} {following : Nat},
      userMessage following messages = some (index, message) →
        messages.reverse[index]? = some message := by
    intro messages
    induction messages with
    | nil => intro following found; cases found
    | cons first earlier ih =>
      intro following found
      unfold userMessage at found
      split at found
      · cases following with
        | zero =>
          cases found
          simp
        | succ following => exact getElem?_reverse_cons (ih found)
      · exact getElem?_reverse_cons (ih found)
  simpa using general found

theorem allMarked_markNewest (items : List WireJson) (budget : Nat) :
    AllMarked items (markNewest items budget).1 := by
  unfold markNewest
  split
  · next index marked found =>
    obtain ⟨message, isMessage, isMarked⟩ := newestMarked_spec found
    exact .set isMessage isMarked
  · exact allMarked_refl items

theorem allMarked_markOlderUser (items : List WireJson) (budget : Nat) :
    AllMarked items (markOlderUser items budget) := by
  unfold markOlderUser
  split
  · split
    · next index message found =>
      split
      · next marked isMarked =>
        exact .set (userMessage_spec found) (marked_of_withMessageBreakpoint isMarked)
      · exact allMarked_refl items
    · exact allMarked_refl items
  · exact allMarked_refl items

theorem oneMember_withMember (object : WireJsonObject) (key : String) (value : WireJson)
    (isMember : oneMember object key ≠ none) :
      oneMember (withMember object key value) key = some value := by
  induction object with
  | nil => exact absurd rfl isMember
  | cons member members ih =>
    by_cases same : member.1 = js key
    · simp [oneMember, memberValues, withMember, same]
    · have rest : oneMember members key ≠ none := by
        simpa [oneMember, memberValues, same] using isMember
      simpa [oneMember, memberValues, withMember, same] using ih rest

theorem oneMember_withMember_of_ne {object : WireJsonObject} {key other : String}
    (value : WireJson) (apart : js other ≠ js key) :
    oneMember (withMember object key value) other = oneMember object other := by
  induction object with
  | nil => rfl
  | cons member members ih =>
    by_cases same : member.1 = js key
    · have notOther : member.1 ≠ js other := same ▸ apart.symm
      simpa [oneMember, memberValues, withMember, same, apart.symm] using ih
    · by_cases isOther : member.1 = js other
      · simp [oneMember, memberValues, withMember, isOther, apart]
      · simpa [oneMember, memberValues, withMember, same, isOther] using ih

theorem messages_markTools (body : WireJsonObject) (budget : Nat) :
    oneMember (markTools body budget).1 "messages" = oneMember body "messages" := by
  unfold markTools
  split
  · split
    · exact oneMember_withMember_of_ne _ (by decide)
    · rfl
  · rfl

theorem messages_markSystem (body : WireJsonObject) (budget : Nat) :
    oneMember (markSystem body budget).1 "messages" = oneMember body "messages" := by
  unfold markSystem
  split
  · rfl
  · dsimp only
    split
    · exact oneMember_withMember_of_ne _ (by decide)
    · rfl

/-- Marking keeps the messages up to marks. -/
theorem withMessagesCacheBreakpoints_messages {body : WireJsonObject}
    (isMessages : oneMember body "messages" = some (.array items)) :
    ∃ marked, oneMember (withMessagesCacheBreakpoints body) "messages" = some (.array marked) ∧
      List.Forall₂ Marked items marked := by
  unfold withMessagesCacheBreakpoints
  dsimp only
  split
  · exact ⟨items, isMessages, allMarked_refl items⟩
  · have kept := (messages_markSystem (markTools body
        (maxCacheBreakpoints - countBreakpoints body)).1 (markTools body
          (maxCacheBreakpoints - countBreakpoints body)).2).trans
            ((messages_markTools body (maxCacheBreakpoints - countBreakpoints body)).trans
              isMessages)
    generalize markSystem (markTools body (maxCacheBreakpoints - countBreakpoints body)).1
      (markTools body (maxCacheBreakpoints - countBreakpoints body)).2 = state at *
    split
    · exact ⟨items, kept, allMarked_refl items⟩
    · rw [kept]
      dsimp only
      split
      · exact ⟨items, kept, allMarked_refl items⟩
      · refine ⟨_, oneMember_withMember _ _ _ (by rw [kept]; simp), ?_⟩
        have first := allMarked_markNewest items state.2
        have second := allMarked_markOlderUser (markNewest items state.2).1
          (markNewest items state.2).2
        exact AllMarked.trans first second

end GhcGateway.Requests
