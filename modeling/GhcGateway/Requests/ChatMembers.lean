/-
# Member names of Chat messages

An assistant message gets its members one reasoning item after the other, and nothing asks
whether a member of that name is there. Its names are distinct exactly if the reasoning that
its turn was given never brings a name twice; a second reasoning text behind a first one is
enough to break that.
-/

import GhcGateway.Requests.ChatTurns

namespace GhcGateway.Requests

open Conversion

/-- Reasoning gave a turn no member twice. -/
def Entry.HoldsOnce : Entry → Prop
  | .turn _ held => held.Nodup
  | _ => True

theorem Represents.nodup_iff {entry : Entry} {message : WireJsonObject}
    (represents : Represents entry message) :
    (message.map Prod.fst).Nodup ↔ entry.HoldsOnce := by
  cases represents with
  | other role content _ _ =>
    have distinct : [js "role", js "content"].Nodup := by decide
    simpa [wireObject, Entry.HoldsOnce] using distinct
  | answer callId content =>
    have distinct : [js "role", js "tool_call_id", js "content"].Nodup := by decide
    simpa [wireObject, Entry.HoldsOnce] using distinct
  | @turn message calls held role called names states =>
    have plain : (js "role" :: js "content" :: callsName calls).Nodup := by
      rw [callsName]
      split <;> decide
    have apart : ∀ name ∈ js "role" :: js "content" :: callsName calls, name ∉ held := by
      intro name isPlain isHeld
      have isState := states name isHeld
      have notState : ∀ name ∈ [js "role", js "content", js "tool_calls"],
          name ∉ chatStateNames := by decide
      refine notState name ?_ isState
      rw [callsName] at isPlain
      split at isPlain
      · exact List.mem_append_left [js "tool_calls"] isPlain
      · exact isPlain
    rw [names.nodup_iff, Entry.HoldsOnce, ← List.cons_append, ← List.cons_append,
      List.nodup_append']
    constructor
    · rintro ⟨-, distinct, -⟩
      exact distinct
    · intro distinct
      exact ⟨plain, distinct, fun name isPlain isHeld => apart name isPlain isHeld⟩

/-- The messages of a request have distinct member names exactly if reasoning gives no turn a
member twice. -/
theorem chatMessages_distinct_iff (request : SemanticRequest)
    (decoded : ∀ item ∈ request.items, item.Decoded)
    (degradations : List ConversionDegradationRule) :
    (∀ message ∈ (encodeChatMessages request degradations).1, (message.map Prod.fst).Nodup) ↔
      ∀ entry ∈ chatEntries request, entry.HoldsOnce := by
  have abstracts := encodeChatMessages_abstracts decoded degradations
  generalize chatEntries request = entries at *
  generalize (encodeChatMessages request degradations).1 = messages at *
  induction abstracts with
  | nil => simp
  | cons represents _ ih =>
    rw [List.forall_mem_cons, List.forall_mem_cons]
    exact and_congr represents.nodup_iff ih

def reasoningItem (text : String) : SemanticRequestItem :=
  .reasoning [⟨.summary, 0, js text⟩] none

/-- Two reasoning items, one behind the other. -/
def reasoningTwice : SemanticRequest where
  instructions := []
  items := [reasoningItem "first", reasoningItem "second"]
  degradations := []

def reasoningOnce : SemanticRequest where
  instructions := []
  items := [reasoningItem "first", .toolCall ⟨js "call", js "tool", js "input"⟩]
  degradations := []

theorem chatMessages_distinct_iff_once :
    (encodeChatMessages reasoningOnce []).1.Forall fun message =>
      (message.map Prod.fst).Nodup := by
  rw [List.forall_iff_forall_mem]
  apply (chatMessages_distinct_iff reasoningOnce ?_ []).mpr
  · intro entry member
    rw [List.mem_singleton.mp (show entry ∈ [.turn _ _] from member)]
    exact List.nodup_singleton _
  · simp [reasoningOnce, reasoningItem, SemanticRequestItem.Decoded]

/-- The second text is a second `reasoning_content` in the message of the first. -/
theorem chatMessages_not_distinct :
    ¬ ∀ message ∈ (encodeChatMessages reasoningTwice []).1, (message.map Prod.fst).Nodup := by
  decide

end GhcGateway.Requests
