/-
# The events of a Chat stream

What holds of the events that a Chat stream has yielded while it goes on: none ends
the stream, a part or an item, content is that of two messages, one after the other,
and a reasoning item with a state of its own is followed by progress at once, so it is
never the last thing a client hears of.
-/

import GhcGateway.Conversion.MessagesLinks
import GhcGateway.Conversion.StreamMeaning

namespace GhcGateway.Conversion

open Library

variable {more : List SemanticStreamEvent} {source : InferenceProtocol} {key : StreamKey}

/-- An event of a Chat stream that goes on. Content is that of the first two messages. -/
def SemanticStreamEvent.isChat : SemanticStreamEvent → Bool
  | .contentDelta _ (.chatMessage index) none _ => index ≤ 1
  | .contentDelta .. => false
  | .contentSnapshot .. => false
  | .contentDone .. => false
  | .itemDone .. => false
  | .messageStart _ => false
  | .reasoningSnapshot .. => false
  | .terminal _ => false
  | _ => true

/-- One that does not come with a state of its own. -/
def SemanticStreamEvent.isPlain : SemanticStreamEvent → Bool
  | .reasoningStart _ _ (some _) _ => false
  | event => event.isChat

/-- The message an event adds content to. -/
def SemanticStreamEvent.messageKey : SemanticStreamEvent → Option StreamKey
  | .contentDelta _ key _ _ => some key
  | _ => none

/-- The messages that some events add content to, in the order they come up. -/
def messagesOf (events : List SemanticStreamEvent) : List StreamKey :=
  events.foldl (fun keys event => event.messageKey.elim keys (addTo keys)) []

theorem messagesOf_append_one (events : List SemanticStreamEvent) (event : SemanticStreamEvent) :
    messagesOf (events ++ [event]) =
      event.messageKey.elim (messagesOf events) (addTo (messagesOf events)) := by
  rw [messagesOf, List.foldl_append]
  rfl

theorem addTo_sublist {keys : List StreamKey} {first second : StreamKey}
    (ordered : keys.Sublist [first, second])
    (which : key = second ∨ key = first ∧ second ∉ keys) :
    (addTo keys key).Sublist [first, second] := by
  obtain ⟨front, back, rfl, early, late⟩ :=
    List.sublist_append_iff.mp (show keys.Sublist ([first] ++ [second]) from ordered)
  rw [addTo]
  split
  · exact ordered
  · rcases List.sublist_singleton.mp early with rfl | rfl <;>
      rcases List.sublist_singleton.mp late with rfl | rfl <;> grind

/-- A reasoning item is done after output has begun, if it has a state of its own. -/
def Announced (events : List SemanticStreamEvent) : Prop :=
  ∀ before key status after, events = before ++ .reasoningDone key status :: after →
    ∀ itemId messagesState opaqueState,
      .reasoningStart key itemId (some messagesState) opaqueState ∈ before →
      ∃ event ∈ before, startsSemanticOutput event = true

structure Fair (events : List SemanticStreamEvent) : Prop where
  chat : ∀ event ∈ events, event.isChat = true
  announced : Announced events
  begun : ∀ key itemId messagesState opaqueState,
    .reasoningStart key itemId (some messagesState) opaqueState ∈ events →
    ∃ event ∈ events, startsSemanticOutput event = true

theorem fair_nil : Fair [] := by
  refine ⟨by rintro event ⟨⟩, ?_, by rintro _ _ _ _ ⟨⟩⟩
  intro before key status after whole
  cases before <;> cases whole

variable {events trace : List SemanticStreamEvent} {event : SemanticStreamEvent}

/-- An event that is done is the last one or was there before. -/
theorem Announced.append_one (announced : Announced events)
    (begun : ∀ key status, event = .reasoningDone key status →
      ∀ itemId messagesState opaqueState,
        .reasoningStart key itemId (some messagesState) opaqueState ∈ events →
        ∃ event ∈ events, startsSemanticOutput event = true) :
    Announced (events ++ [event]) := by
  intro before key status after whole
  rcases List.eq_nil_or_concat after with rfl | ⟨earlier, last, rfl⟩
  · obtain ⟨rfl, same⟩ := List.append_inj' whole rfl
    exact begun key status (List.singleton_inj.mp same)
  · rw [List.concat_eq_append, ← List.cons_append, ← List.append_assoc] at whole
    obtain ⟨rfl, -⟩ := List.append_inj' whole rfl
    exact announced before key status earlier rfl

theorem isChat_of_isPlain (plain : event.isPlain = true) : event.isChat = true := by
  cases event with
  | reasoningStart => rfl
  | _ => exact plain

/-- It does not end the stream, a part or an item. -/
theorem isChat_goesOn (chat : event.isChat = true) :
    event.endsPart = false ∧ ∀ terminal, event ≠ .terminal terminal := by
  refine ⟨?_, ?_⟩
  · cases event <;> first | rfl | cases chat
  · rintro terminal rfl
    cases chat

theorem isChat_content (chat : event.isChat = true) {kind : ContentKind} {saying : Saying}
    (about : event.saying = some (.content kind key, saying)) :
    key = .chatMessage 0 ∨ key = .chatMessage 1 := by
  cases event with
  | contentDelta other otherKey orderKey delta =>
    obtain ⟨⟩ := about
    cases key <;> cases orderKey <;> try cases chat
    next index =>
      have small : index ≤ 1 := of_decide_eq_true chat
      rcases Nat.le_one_iff_eq_zero_or_eq_one.mp small with rfl | rfl
      · exact .inl rfl
      · exact .inr rfl
  | contentSnapshot => cases chat
  | toolDone _ argumentsJson _ => cases argumentsJson <;> cases about
  | _ => cases about

theorem Fair.append_one (fair : Fair events) (plain : event.isPlain = true) :
    Fair (events ++ [event]) := by
  refine ⟨fun other member => ?_, fair.announced.append_one fun key _ _ itemId state opaqueState =>
    fair.begun key itemId state opaqueState, ?_⟩
  · rcases List.mem_append.mp member with old | single
    · exact fair.chat other old
    · rw [List.mem_singleton.mp single]
      exact isChat_of_isPlain plain
  · intro key itemId messagesState opaqueState member
    rcases List.mem_append.mp member with old | single
    · obtain ⟨other, there, starts⟩ := fair.begun key itemId messagesState opaqueState old
      exact ⟨other, List.mem_append_left _ there, starts⟩
    · rw [← List.mem_singleton.mp single] at plain
      cases plain

theorem Fair.append (fair : Fair events) (plain : ∀ event ∈ more, event.isPlain = true) :
    Fair (events ++ more) := by
  induction more generalizing events with
  | nil =>
    rw [List.append_nil]
    exact fair
  | cons event more ih =>
    have next := ih (fair.append_one (plain event List.mem_cons_self)) fun other member =>
      plain other (List.mem_cons_of_mem _ member)
    rw [List.append_assoc] at next
    exact next

/-- A reasoning item with a state of its own, and progress. -/
theorem Fair.announce (fair : Fair events) (key : StreamKey) (itemId : Option JsString)
    (messagesState : MessagesReasoningState) (opaqueState : Option OpaqueReasoningState) :
    Fair (events ++ [.reasoningStart key itemId (some messagesState) opaqueState] ++
      [.semanticProgress]) := by
  have started : Announced (events ++
      [.reasoningStart key itemId (some messagesState) opaqueState]) :=
    fair.announced.append_one (by rintro _ _ ⟨⟩)
  refine ⟨fun other member => ?_, started.append_one (by rintro _ _ ⟨⟩), fun _ _ _ _ _ =>
    ⟨.semanticProgress, List.mem_append_right _ (List.mem_singleton_self _), rfl⟩⟩
  rcases List.mem_append.mp member with old | single
  · rcases List.mem_append.mp old with older | start
    · exact fair.chat other older
    · rw [List.mem_singleton.mp start]
      rfl
  · rw [List.mem_singleton.mp single]
    rfl

/-- Nothing else is said to be content. -/
theorem Fair.silent (fair : Fair events) (kind : ContentKind) (first : key ≠ .chatMessage 0)
    (second : key ≠ .chatMessage 1) : said events (.content kind key) = [] := by
  rw [said]
  refine List.foldlRecOn (motive := (· = [])) events _ rfl fun so same event member => ?_
  rw [sayOne]
  cases about : event.saying with
  | none => exact same
  | some saying =>
    obtain ⟨slot, saying⟩ := saying
    refine (if_neg ?_).trans same
    rintro rfl
    exact (isChat_content (fair.chat event member) about).elim first second

theorem Fair.disciplined (fair : Fair events) (other : source ≠ .responses) :
    Disciplined source events :=
  ⟨fair.announced, fun same => absurd same other, fun _ event member =>
    (isChat_goesOn (fair.chat event member)).1⟩

/-- The terminal event comes after all. -/
theorem Fair.disciplined_terminal (fair : Fair events) (other : source ≠ .responses)
    (terminal : TerminalEvent) : Disciplined source (events ++ [.terminal terminal]) := by
  refine ⟨fair.announced.append_one (by rintro _ _ ⟨⟩), fun same => absurd same other,
    fun _ event member => ?_⟩
  rcases List.mem_append.mp member with old | single
  · exact (isChat_goesOn (fair.chat event old)).1
  · rw [List.mem_singleton.mp single]
    rfl

/-- An event that has nothing to do with content. -/
structure Aside (event : SemanticStreamEvent) : Prop where
  plain : event.isPlain = true
  silent : ∀ kind key so, sayOne (.content kind key) so event = so
  about : event.messageKey = none

theorem said_append (events more : List SemanticStreamEvent) (slot : Slot) :
    said (events ++ more) slot = more.foldl (sayOne slot) (said events slot) := by
  rw [said, List.foldl_append]
  rfl

/-- Content of the second message. -/
def Deferred (event : SemanticStreamEvent) : Prop :=
  ∃ kind delta, event = .contentDelta kind (.chatMessage 1) none delta

theorem said_deferred (deferred : ∀ event ∈ more, Deferred event) (kind : ContentKind)
    (so : JsString) : more.foldl (sayOne (.content kind (.chatMessage 0))) so = so := by
  induction more generalizing so with
  | nil => rfl
  | cons event more ih =>
    obtain ⟨other, delta, rfl⟩ := deferred event List.mem_cons_self
    rw [List.foldl_cons, sayOne]
    rw [show (SemanticStreamEvent.contentDelta other (.chatMessage 1) none delta).saying =
      some (.content other (.chatMessage 1), .more delta) from rfl]
    dsimp only
    rw [if_neg (by rintro ⟨⟩)]
    exact ih (fun event member => deferred event (List.mem_cons_of_mem _ member)) so

/-- What the second message says starts from what it has said. -/
theorem said_from (deferred : ∀ event ∈ more, Deferred event) (kind : ContentKind) (so : JsString) :
    more.foldl (sayOne (.content kind (.chatMessage 1))) so =
      so ++ said more (.content kind (.chatMessage 1)) := by
  have general : ∀ before, more.foldl (sayOne (.content kind (.chatMessage 1))) (so ++ before) =
      so ++ more.foldl (sayOne (.content kind (.chatMessage 1))) before := by
    induction more with
    | nil => exact fun before => rfl
    | cons event more ih =>
      intro before
      obtain ⟨other, delta, rfl⟩ := deferred event List.mem_cons_self
      have ih := ih fun event member => deferred event (List.mem_cons_of_mem _ member)
      rw [List.foldl_cons, List.foldl_cons, sayOne, sayOne]
      rw [show (SemanticStreamEvent.contentDelta other (.chatMessage 1) none delta).saying =
        some (.content other (.chatMessage 1), .more delta) from rfl]
      dsimp only [Saying.after]
      split
      · rw [List.append_assoc]
        exact ih (before ++ delta)
      · exact ih before
  have whole := general []
  rw [List.append_nil] at whole
  exact whole

end GhcGateway.Conversion
