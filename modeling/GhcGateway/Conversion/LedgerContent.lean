/-
# The content of the ledger

What the ledger holds under each kind and content key, and how the operations
change it: appending adds the delta, observing marks the kind as seen, and
everything else leaves both alone. The items of the ledger list every kind seen
under every key exactly once, with the text held.
-/

import GhcGateway.Conversion.LedgerInvariant
import GhcGateway.Conversion.EmissionFrontier

namespace GhcGateway.Conversion.SemanticItemLedger

open Library OrderedMap

variable {ledger next : SemanticItemLedger}
  {key other : StreamKey} {kind : ContentKind} {text delta : JsString}
  {part : MessagePartState}

/-- A kind has been seen under a content key. -/
def SeenAt (ledger : SemanticItemLedger) (kind : ContentKind) (key : StreamKey) : Prop :=
  ∃ part, ledger.messageParts.get key = some part ∧ part.seen kind = true

/-- The content is in order: the parts of a message are distinct, and there is no
text of a kind that has not been seen. -/
structure ContentSound (ledger : SemanticItemLedger) : Prop where
  wellFormed : ledger.WellFormed
  distinct : ∀ key message, ledger.messages.get key = some message → message.partKeys.Nodup
  blank : ∀ kind key, ¬ ledger.SeenAt kind key → ledger.contentValue kind key = []

theorem contentSound_new (maxBytes : Nat) : (new maxBytes).ContentSound where
  wellFormed := wellFormed_new maxBytes
  distinct := by
    intro key message found
    cases found
  blank := fun _ _ _ => rfl

/-- How an operation changes the content: a kind and key may be seen for the first
time and text may be added under them. -/
structure ContentChange (kind : ContentKind) (key : StreamKey) (delta : JsString)
    (ledger next : SemanticItemLedger) : Prop where
  sound : next.ContentSound
  frame : MessageStep ledger next
  value : ∀ otherKind other, next.contentValue otherKind other =
    ledger.contentValue otherKind other ++ if key = other ∧ kind = otherKind then delta else []
  seen : ∀ otherKind other, next.SeenAt otherKind other ↔
    (key = other ∧ kind = otherKind) ∨ ledger.SeenAt otherKind other

/-- An operation that leaves the content alone. -/
structure ContentKept (ledger next : SemanticItemLedger) : Prop where
  sound : next.ContentSound
  value : ∀ kind key, next.contentValue kind key = ledger.contentValue kind key
  seen : ∀ kind key, next.SeenAt kind key ↔ ledger.SeenAt kind key

theorem ContentKept.refl (sound : ledger.ContentSound) : ContentKept ledger ledger :=
  ⟨sound, fun _ _ => rfl, fun _ _ => Iff.rfl⟩

/-! ## Messages -/

theorem messages_addMessage (key other : StreamKey) (message : MessageState)
    (found : (ledger.addMessage key).messages.get other = some message) :
    ledger.messages.get other = some message ∨ message = ⟨[], false⟩ := by
  rw [addMessage] at found
  split at found
  · exact .inl found
  · simp only [get_set] at found
    split at found
    · cases found
      exact .inr rfl
    · exact .inl found

theorem distinct_addMessage (sound : ledger.ContentSound) (key : StreamKey) :
    ∀ other message, (ledger.addMessage key).messages.get other = some message →
      message.partKeys.Nodup := by
  intro other message found
  rcases messages_addMessage key other message found with old | rfl
  · exact sound.distinct other message old
  · exact List.nodup_nil

theorem get_replacePart (ledger : SemanticItemLedger) (key groupKey other : StreamKey)
    (part : MessagePartState) :
    (ledger.replacePart key groupKey part).messageParts.get other =
      if key = other then some part else ledger.messageParts.get other := by
  show (set _ _ _).get _ = _
  rw [get_set]
  by_cases same : key = other
  · rw [if_pos same, if_pos same]
  · rw [if_neg same, if_neg same, addPart]
    split
    · rw [messageParts_addMessage]
    · show (set _ _ _).get _ = _
      rw [get_set_of_ne same, messageParts_addMessage]

theorem distinct_replacePart (sound : ledger.ContentSound) (key groupKey : StreamKey)
    (part : MessagePartState) :
    ∀ other message, (ledger.replacePart key groupKey part).messages.get other = some message →
      message.partKeys.Nodup := by
  intro other message found
  have found : ((ledger.addMessage groupKey).addPart key groupKey).messages.get other =
      some message := found
  rw [addPart] at found
  split at found
  · exact distinct_addMessage sound groupKey other message found
  · next absent =>
    simp only [get_modify] at found
    split at found
    · next same =>
      subst same
      obtain ⟨old, there, rfl⟩ := Option.map_eq_some_iff.mp found
      refine List.nodup_append.mpr ⟨distinct_addMessage sound groupKey groupKey old there,
        List.nodup_singleton key, ?_⟩
      rintro one member _ single rfl
      obtain rfl := List.mem_singleton.mp single
      -- a part that is listed is there
      refine absent ?_
      have listed : (ledger.addMessage groupKey).skeleton.messages groupKey =
          some old.partKeys := by
        show ((ledger.addMessage groupKey).messages.get groupKey).map _ = _
        rw [there]
        rfl
      have owner := ((sound.wellFormed.addMessage groupKey).part_iff groupKey one).mpr
        ⟨old.partKeys, listed, member⟩
      obtain ⟨state, found, -⟩ := Option.map_eq_some_iff.mp owner
      rw [found]
      rfl
    · exact distinct_addMessage sound groupKey other message found

theorem value_append (part : MessagePartState) (kind other : ContentKind) (delta : JsString) :
    (part.append kind delta).value other =
      part.value other ++ if kind = other then delta else [] := by
  cases kind <;> cases other <;> simp [MessagePartState.append, MessagePartState.value]

theorem value_see (part : MessagePartState) (kind other : ContentKind) :
    (part.see kind).value other = part.value other := by
  cases kind <;> cases other <;> rfl

theorem contentValue_eq (ledger : SemanticItemLedger) (kind : ContentKind) (key : StreamKey) :
    ledger.contentValue kind key =
      ((ledger.messageParts.get key).map (MessagePartState.value · kind)).getD [] := by
  rw [contentValue]
  cases ledger.messageParts.get key <;> rfl

/-- The text of the part an operation starts from. -/
theorem value_partState (ledger : SemanticItemLedger) (key groupKey : StreamKey)
    (kind : ContentKind) :
    (ledger.partState key groupKey).value kind = ledger.contentValue kind key := by
  rw [partState, contentValue]
  cases ledger.messageParts.get key with
  | none => cases kind <;> rfl
  | some part => rfl

theorem seen_partState (ledger : SemanticItemLedger) (key groupKey : StreamKey)
    (kind : ContentKind) :
    (ledger.partState key groupKey).seen kind = true ↔ ledger.SeenAt kind key := by
  rw [partState, SeenAt]
  cases ledger.messageParts.get key with
  | none =>
    constructor
    · cases kind <;> rintro ⟨⟩
    · rintro ⟨part, ⟨⟩, -⟩
  | some part =>
    constructor
    · exact fun seen => ⟨part, rfl, seen⟩
    · rintro ⟨other, same, seen⟩
      cases same
      exact seen

section

variable (sound : ledger.ContentSound)

include sound

/-- A part replaced by one that has been seen and extended. -/
theorem contentChange_replacePart {groupKey : StreamKey} (group : part.groupKey = groupKey)
    (was : (ledger.partState key groupKey).groupKey = groupKey)
    (seen : ∀ other, part.seen other = true ↔
      other = kind ∨ (ledger.partState key groupKey).seen other = true)
    (value : ∀ other, part.value other = (ledger.partState key groupKey).value other ++
      if kind = other then delta else [])
    (charged : Charged (ledger.replacePart key groupKey part) next) :
    ContentChange kind key delta ledger next := by
  have frame := messageStep_replacePart sound.wellFormed group was charged
  obtain ⟨used, rfl⟩ := charged
  have values : ∀ otherKind other,
      ((ledger.replacePart key groupKey part).withUsed used).contentValue otherKind other =
        ledger.contentValue otherKind other ++
          if key = other ∧ kind = otherKind then delta else [] := by
    intro otherKind other
    rw [contentValue_eq]
    show (((ledger.replacePart key groupKey part).messageParts.get other).map
      (MessagePartState.value · otherKind)).getD [] = _
    rw [get_replacePart]
    by_cases same : key = other
    · subst same
      rw [if_pos rfl, Option.map_some, Option.getD_some, value, value_partState]
      simp only [true_and]
    · rw [if_neg same, if_neg fun both => same both.1, List.append_nil, contentValue_eq]
  have seenAt : ∀ otherKind other,
      ((ledger.replacePart key groupKey part).withUsed used).SeenAt otherKind other ↔
        (key = other ∧ kind = otherKind) ∨ ledger.SeenAt otherKind other := by
    intro otherKind other
    show (∃ state, (ledger.replacePart key groupKey part).messageParts.get other = some state ∧
      state.seen otherKind = true) ↔ _
    rw [get_replacePart]
    by_cases same : key = other
    · subst same
      rw [if_pos rfl, ← seen_partState ledger key groupKey]
      constructor
      · rintro ⟨state, eq, isSeen⟩
        cases eq
        rcases (seen otherKind).mp isSeen with eq | old
        · exact .inl ⟨rfl, eq.symm⟩
        · exact .inr old
      · rintro (⟨-, eq⟩ | old)
        · exact ⟨part, rfl, (seen otherKind).mpr (.inl eq.symm)⟩
        · exact ⟨part, rfl, (seen otherKind).mpr (.inr old)⟩
    · rw [if_neg same]
      constructor
      · exact .inr
      · rintro (⟨eq, -⟩ | old)
        · exact absurd eq same
        · exact old
  refine ⟨⟨frame.wellFormed, ?_, ?_⟩, frame, values, seenAt⟩
  · exact fun other message found =>
      distinct_replacePart sound key groupKey part other message found
  · intro otherKind other unseen
    rw [seenAt, not_or] at unseen
    rw [values, sound.blank otherKind other unseen.2, if_neg unseen.1]
    rfl

theorem contentChange_appendContent (kind : ContentKind) (key : StreamKey) (delta : JsString)
    (orderKey : Option StreamKey) :
    Ensures (ledger.appendContent kind key delta orderKey)
      (ContentChange kind key delta ledger) := by
  refine (ensures_appendContent kind key delta orderKey).mono ?_
  rintro next ⟨charged, group, -, -⟩
  refine contentChange_replacePart sound
    ((append_groupKey _ kind delta).trans ((see_groupKey _ kind).trans group)) group ?_ ?_ charged
  · intro other
    rw [append_seen]
    exact see_seen _ kind other
  · intro other
    rw [value_append, value_see]

theorem contentChange_observeContent (kind : ContentKind) (key : StreamKey)
    (orderKey : Option StreamKey) :
    Ensures (ledger.observeContent kind key orderKey) fun result =>
      ContentChange kind key [] ledger result.1 := by
  refine (ensures_observeContent kind key orderKey).mono ?_
  rintro ⟨next, first⟩ ⟨charged, -, group, -⟩
  refine contentChange_replacePart sound ((see_groupKey _ kind).trans group) group
    (see_seen _ kind) ?_ charged
  intro other
  rw [value_see]
  split <;> exact (List.append_nil _).symm

/-- Operations that only freeze parts. -/
theorem contentKept_of_parts (wellFormed : next.WellFormed)
    (distinct : ∀ key message, next.messages.get key = some message → message.partKeys.Nodup)
    (parts : ∀ key, (next.messageParts.get key).map
        (fun part => (part.text, part.refusal, part.textSeen, part.refusalSeen)) =
      (ledger.messageParts.get key).map
        fun part => (part.text, part.refusal, part.textSeen, part.refusalSeen)) :
    ContentKept ledger next := by
  have values : ∀ kind key, next.contentValue kind key = ledger.contentValue kind key := by
    intro kind key
    have same := parts key
    rw [contentValue, contentValue]
    cases after : next.messageParts.get key with
    | none =>
      cases before : ledger.messageParts.get key with
      | none => rfl
      | some part =>
        rw [after, before] at same
        cases same
    | some part =>
      cases before : ledger.messageParts.get key with
      | none =>
        rw [after, before] at same
        cases same
      | some old =>
        rw [after, before] at same
        simp only [Option.map_some, Option.some.injEq, Prod.mk.injEq] at same
        cases kind with
        | text => exact same.1
        | refusal => exact same.2.1
  have seen : ∀ kind key, next.SeenAt kind key ↔ ledger.SeenAt kind key := by
    intro kind key
    have same := parts key
    rw [SeenAt, SeenAt]
    cases after : next.messageParts.get key with
    | none =>
      cases before : ledger.messageParts.get key with
      | none => exact Iff.rfl
      | some part =>
        rw [after, before] at same
        cases same
    | some part =>
      cases before : ledger.messageParts.get key with
      | none =>
        rw [after, before] at same
        cases same
      | some old =>
        rw [after, before] at same
        simp only [Option.map_some, Option.some.injEq, Prod.mk.injEq] at same
        simp only [Option.some.injEq, exists_eq_left']
        cases kind with
        | text => rw [MessagePartState.seen, MessagePartState.seen, same.2.2.1]
        | refusal => rw [MessagePartState.seen, MessagePartState.seen, same.2.2.2]
  refine ⟨⟨wellFormed, distinct, fun kind key unseen => ?_⟩, values, seen⟩
  rw [values]
  exact sound.blank kind key fun was => unseen ((seen kind key).mpr was)

theorem contentKept_startMessage (key : StreamKey) :
    Ensures (ledger.startMessage key) fun next =>
      ContentKept ledger next ∧ MessageStep ledger next := by
  refine ((ensures_startMessage key).and (messageStep_startMessage sound.wellFormed key)).mono ?_
  rintro _ ⟨⟨used, rfl⟩, step⟩
  refine ⟨contentKept_of_parts sound step.wellFormed
    (fun other message found => distinct_addMessage sound key other message found) fun other => ?_,
    step⟩
  show ((ledger.addMessage key).messageParts.get other).map _ = _
  rw [messageParts_addMessage]

theorem contentKept_finishContent (key : StreamKey) :
    Ensures (ledger.finishContent key) fun next =>
      ContentKept ledger next ∧ MessageStep ledger next := by
  refine ((ensures_finishContent key).and (messageStep_finishContent sound.wellFormed key)).mono ?_
  rintro _ ⟨⟨part, found, rfl⟩, step⟩
  refine ⟨contentKept_of_parts sound step.wellFormed sound.distinct fun other => ?_,
    step⟩
  show ((ledger.messageParts.set key _).get other).map _ = _
  rw [get_set]
  by_cases same : key = other
  · subst same
    rw [if_pos rfl, found]
    rfl
  · rw [if_neg same]

theorem contentKept_finishMessage (key : StreamKey) :
    Ensures (ledger.finishMessage key) fun next =>
      ContentKept ledger next ∧ MessageStep ledger next := by
  refine ((ensures_finishMessage key).and (messageStep_finishMessage sound.wellFormed key)).mono ?_
  rintro _ ⟨⟨used, rfl⟩, step⟩
  refine ⟨contentKept_of_parts sound step.wellFormed ?_ fun other =>
    view_freezeParts _ (fun _ => rfl) _ _ other, step⟩
  intro other message found
  have found : ((ledger.addMessage key).messages.set key
      { (ledger.messages.get key).getD ⟨[], false⟩ with frozen := true }).get other =
        some message := found
  rw [get_set] at found
  split at found
  · cases found
    exact distinct_addMessage sound key key ((ledger.messages.get key).getD ⟨[], false⟩)
      (get_addMessage_self ledger key)
  · exact distinct_addMessage sound key other message found

/-- Operations on the rest of the ledger. -/
theorem ContentSound.kept (wellFormed : next.WellFormed)
    (messages : next.messages = ledger.messages)
    (messageParts : next.messageParts = ledger.messageParts) : ContentKept ledger next := by
  refine contentKept_of_parts sound wellFormed (fun key message found => ?_) fun key => ?_
  · rw [messages] at found
    exact sound.distinct key message found
  · rw [messageParts]

end

/-! ## Tools -/

structure ToolChange (ledger next : SemanticItemLedger) : Prop where
  step : ToolStep ledger next
  content : ContentKept ledger next
  messages : next.messages = ledger.messages

theorem ToolStep.change (step : ToolStep ledger next) (sound : ledger.ContentSound)
    (messages : next.messages = ledger.messages) : ToolChange ledger next :=
  ⟨step, sound.kept step.wellFormed messages step.messageParts, messages⟩

theorem toolChange_startTool (sound : ledger.ContentSound) (key : StreamKey)
    (itemId : Option JsString) (callId name : JsString) :
    Ensures (ledger.startTool key itemId callId name) fun next =>
      ToolChange ledger next ∧ ledger.tools.get key = none ∧
      next.tools = ledger.tools.set key ⟨itemId, callId, name, [], false⟩ := by
  refine ((ensures_startTool key itemId callId name).and
    (toolStep_startTool sound.wellFormed key itemId callId name)).mono ?_
  rintro _ ⟨⟨⟨used, rfl⟩, -⟩, step, absent, tools⟩
  exact ⟨step.change sound rfl, absent, tools⟩

theorem toolChange_appendToolArguments (sound : ledger.ContentSound) (key : StreamKey)
    (delta : JsString) :
    Ensures (ledger.appendToolArguments key delta) fun next => ToolChange ledger next ∧
      ∃ tool, ledger.tools.get key = some tool ∧ tool.done = false ∧
        next.tools = ledger.tools.set key
          { tool with argumentsJson := tool.argumentsJson ++ delta } := by
  refine ((ensures_appendToolArguments key delta).and
    (toolStep_appendToolArguments sound.wellFormed key delta)).mono ?_
  rintro _ ⟨⟨_, -, -, used, rfl⟩, step, there⟩
  exact ⟨step.change sound rfl, there⟩

theorem toolChange_finishTool (sound : ledger.ContentSound) (key : StreamKey)
    (snapshot : Option JsString) (completed validateCompleted : Bool) :
    Ensures (ledger.finishTool key snapshot completed validateCompleted) fun result =>
      ToolChange ledger result.1 ∧ ∃ tool, ledger.tools.get key = some tool ∧
        (tool.done = true → result.2 = []) ∧
        snapshot.getD tool.argumentsJson = tool.argumentsJson ++ result.2 ∧
        result.1.tools = ledger.tools.set key
          { tool with argumentsJson := tool.argumentsJson ++ result.2, done := true } := by
  refine ((ensures_finishTool key snapshot completed validateCompleted).and
    (toolStep_finishTool sound.wellFormed key snapshot completed validateCompleted)).mono ?_
  rintro ⟨next, suffix⟩ ⟨⟨_, -, -, -, used, same⟩, step, there⟩
  simp only at same step
  subst same
  exact ⟨step.change sound rfl, there⟩

theorem toolChange_finishOpenTools (sound : ledger.ContentSound)
    (validateCompleted : JsString → Fallible Bool) :
    Ensures (ledger.finishOpenTools validateCompleted) fun next => ToolChange ledger next ∧
      ∀ key, next.tools.get key =
        (ledger.tools.get key).map fun tool => { tool with done := true } := by
  refine ((ensures_finishOpenTools validateCompleted).and
    (toolStep_finishOpenTools sound.wellFormed validateCompleted)).mono ?_
  rintro _ ⟨⟨tools, rfl, -⟩, step, -, gets⟩
  exact ⟨step.change sound rfl, gets⟩

theorem ReasoningStep.content (step : ReasoningStep ledger next) (sound : ledger.ContentSound) :
    ContentKept ledger next :=
  sound.kept step.wellFormed step.messages step.messageParts

/-! ## Reasoning -/

/-- The state of a reasoning item that a Messages client can hold. -/
def messagesStateAt (ledger : SemanticItemLedger) (key : StreamKey) :
    Option MessagesReasoningState :=
  (ledger.reasoning.get key).bind ReasoningState.messagesState

theorem messagesState_of_reasoningAt {frozen : Bool} {item : SemanticReasoningItem StreamKey}
    (there : ledger.reasoningAt key =
      some (frozen, item)) : item.messagesState = ledger.messagesStateAt key := by
  obtain ⟨state, found, eq⟩ := Option.map_eq_some_iff.mp there
  cases eq
  rw [messagesStateAt, found]
  rfl

/-- A finished reasoning item later on: its parts are the same, and so is a state
that a Messages client can hold. -/
structure Later (item final : SemanticReasoningItem StreamKey) : Prop where
  key : final.key = item.key
  parts : final.parts = item.parts
  state : ∀ state, item.messagesState = some state → final.messagesState = some state

theorem Later.refl (item : SemanticReasoningItem StreamKey) : Later item item :=
  ⟨rfl, rfl, fun _ has => has⟩

theorem Later.trans {first second third : SemanticReasoningItem StreamKey}
    (one : Later first second) (two : Later second third) : Later first third :=
  ⟨two.key.trans one.key, two.parts.trans one.parts,
    fun state has => two.state state (one.state state has)⟩

def KeepsFinished (ledger next : SemanticItemLedger) : Prop :=
  ∀ key item, ledger.reasoningAt key = some (true, item) →
    ∃ final, next.reasoningAt key = some (true, final) ∧ Later item final

theorem KeepsFinished.trans {first second third : SemanticItemLedger}
    (one : KeepsFinished first second) (two : KeepsFinished second third) :
    KeepsFinished first third := by
  intro key item there
  obtain ⟨middle, at_, later⟩ := one key item there
  obtain ⟨final, atLast, again⟩ := two key middle at_
  exact ⟨final, atLast, later.trans again⟩

/-- Operations on the rest of the ledger. -/
theorem keepsFinished_of_same (reasoning : next.reasoning = ledger.reasoning)
    (reasoningParts : next.reasoningParts = ledger.reasoningParts) : KeepsFinished ledger next := by
  intro key item there
  refine ⟨item, ?_, .refl item⟩
  rw [reasoningAt_congr reasoning reasoningParts, there]

theorem messagesStateAt_of_same (reasoning : next.reasoning = ledger.reasoning) (key : StreamKey) :
    next.messagesStateAt key = ledger.messagesStateAt key := by
  rw [messagesStateAt, messagesStateAt, reasoning]

/-- A state offered to an item that has one is the same. -/
theorem agrees_startReasoning (key : StreamKey) (itemId : Option JsString)
    (messagesState : Option MessagesReasoningState) (opaqueState : Option OpaqueReasoningState) :
    Ensures (ledger.startReasoning key itemId messagesState opaqueState) fun _ =>
      ∀ state, ledger.messagesStateAt key = some state →
        messagesState = none ∨ messagesState = some state := by
  rw [startReasoning, reasoningState, messagesStateAt]
  cases found : ledger.reasoning.get key with
  | none =>
    refine ensures_bind fun _ _ => ensures_pure fun state has => ?_
    cases has
  | some old =>
    refine ensures_bind fun result returned => ensures_pure fun state has => ?_
    obtain ⟨resumedTo, resumes, -⟩ := bind_eq_ok.mp returned
    simp only [resumeReasoning] at resumes
    obtain ⟨_, -, resumes⟩ := bind_eq_ok.mp resumes
    cases messagesState with
    | none => exact .inl rfl
    | some incoming =>
      obtain ⟨_, agrees, -⟩ := bind_eq_ok.mp resumes
      rcases ensures_require _ agrees with absent | same
      · rw [Option.bind_some, absent] at has
        cases has
      · rw [Option.bind_some, same] at has
        exact .inr has

theorem reasoningChange_startReasoning (sound : ledger.ContentSound) (key : StreamKey)
    (itemId : Option JsString) (messagesState : Option MessagesReasoningState)
    (opaqueState : Option OpaqueReasoningState) :
    Ensures (ledger.startReasoning key itemId messagesState opaqueState) fun next =>
      ReasoningStep ledger next ∧ ContentKept ledger next ∧ KeepsFinished ledger next ∧
      ∀ other, next.messagesStateAt other = if key = other then
        messagesState.or (ledger.messagesStateAt key) else ledger.messagesStateAt other := by
  refine ((reasoningStep_startReasoning sound.wellFormed key itemId messagesState opaqueState).and
    ((reasoningAt_startReasoning sound.wellFormed key itemId messagesState opaqueState).and
      (agrees_startReasoning key itemId messagesState opaqueState))).mono ?_
  rintro next ⟨⟨step, -, gets⟩, ⟨-, others, own⟩, agrees⟩
  refine ⟨step, step.content sound, fun other item there => ?_, fun other => ?_⟩
  · by_cases same : other = key
    · subst same
      refine ⟨_, own true item there, rfl, rfl, fun state has => ?_⟩
      have was := (messagesState_of_reasoningAt there).symm.trans has
      show messagesState.or item.messagesState = some state
      rcases agrees state was with rfl | rfl
      · exact has
      · rfl
    · exact ⟨item, (others other same).trans there, .refl item⟩
  · rw [messagesStateAt, gets]
    by_cases same : key = other
    · subst same
      rw [if_pos rfl, if_pos rfl, messagesStateAt]
      cases ledger.reasoning.get key with
      | none => exact (Option.or_none).symm
      | some old => rfl
    · rw [if_neg same, if_neg same]
      rfl

theorem reasoningChange_appendReasoning (sound : ledger.ContentSound)
    (address : ReasoningPartAddress) (grows : delta ≠ []) :
    Ensures (ledger.appendReasoning address delta) fun next =>
      ReasoningStep ledger next ∧ ContentKept ledger next ∧ KeepsFinished ledger next ∧
      ∀ other, next.messagesStateAt other = ledger.messagesStateAt other := by
  refine ((ensures_appendReasoning address delta).and
    (reasoningAt_appendReasoning sound.wellFormed address grows)).mono ?_
  rintro next ⟨⟨⟨used, rfl⟩, -⟩, step, others, open_, -⟩
  refine ⟨step, step.content sound, fun other item there => ?_, fun other => ?_⟩
  · by_cases same : other = address.key
    · subst same
      cases open_ true item there
    · exact ⟨item, (others other same).trans there, .refl item⟩
  · show ((ledger.reasoning.set address.key (ledger.resumedWithPart address)).get other).bind _ = _
    rw [get_set]
    by_cases same : address.key = other
    · subst same
      rw [if_pos rfl, messagesStateAt, Option.bind_some, resumedWithPart]
      have states : (resumed (ledger.reasoning.get address.key) address.itemId none
          none).messagesState = (ledger.reasoning.get address.key).bind
            ReasoningState.messagesState := by
        cases ledger.reasoning.get address.key <;> rfl
      split <;> exact states
    · rw [if_neg same]
      rfl

/-- A finished item is the item there was, frozen. -/
theorem reasoningChange_finishReasoning (sound : ledger.ContentSound) (key : StreamKey)
    (status : ItemStatus) :
    Ensures (ledger.finishReasoning key status) fun result =>
      ReasoningStep ledger result.1 ∧ ContentKept ledger result.1 ∧
      KeepsFinished ledger result.1 ∧
      (∀ other, result.1.messagesStateAt other = ledger.messagesStateAt other) ∧
      result.2.key = key ∧ result.1.reasoningAt key = some (true, result.2) := by
  refine (reasoningAt_finishReasoning sound.wellFormed key status).mono ?_
  rintro ⟨next, finished⟩ ⟨step, ownKey, ⟨frozen, item, there, rfl⟩, gets⟩
  simp only at gets step ownKey ⊢
  have now := gets key
  rw [if_pos rfl] at now
  have sameState : (frozenItem status frozen item).messagesState = item.messagesState := by
    rw [frozenItem]
    split <;> rfl
  refine ⟨step, step.content sound, fun other old was => ?_, fun other => ?_, ownKey, now⟩
  · by_cases same : key = other
    · subst same
      rw [there] at was
      cases was
      exact ⟨_, now, .refl item⟩
    · refine ⟨old, ?_, .refl old⟩
      rw [gets, if_neg same, was]
  · by_cases same : key = other
    · subst same
      rw [← messagesState_of_reasoningAt now, sameState, messagesState_of_reasoningAt there]
    · have unchanged := gets other
      rw [if_neg same] at unchanged
      have first : ∀ some_ : SemanticItemLedger, some_.messagesStateAt other =
          (some_.reasoningAt other).bind fun entry => entry.2.messagesState := by
        intro some_
        rw [messagesStateAt, reasoningAt]
        cases some_.reasoning.get other <;> rfl
      rw [first, first, unchanged]

theorem reasoningChange_finishOpenReasoning (sound : ledger.ContentSound)
    (status : ResponseStatus) :
    Ensures (ledger.finishOpenReasoning status) fun result =>
      ReasoningStep ledger result.1 ∧ ContentKept ledger result.1 ∧
      KeepsFinished ledger result.1 ∧
      (∀ key frozen item, result.1.reasoningAt key = some (frozen, item) → frozen = true) ∧
      ∀ item ∈ result.2, result.1.reasoningAt item.key = some (true, item) := by
  refine (ensures_finishOpenReasoning sound.wellFormed status).mono ?_
  intro result upTo
  have listed : ∀ key, ledger.reasoningAt key ≠ none → .reasoning key ∈ ledger.order := by
    intro key there
    refine (sound.wellFormed.order_reasoning key).mpr ?_
    show ((ledger.reasoning.get key).map _).isSome = true
    cases found : ledger.reasoning.get key with
    | none =>
      rw [reasoningAt, found] at there
      exact absurd rfl there
    | some state => rfl
  refine ⟨upTo.step, upTo.step.content sound, fun key item there => ?_,
    fun key frozen item there => ?_, fun item member => (upTo.items_at item member).2⟩
  · refine ⟨item, ?_, .refl item⟩
    rw [upTo.visited_at key (listed key (by rw [there]; exact Option.some_ne_none _)), there]
    rfl
  · by_cases member : .reasoning key ∈ ledger.order
    · rw [upTo.visited_at key member] at there
      obtain ⟨_, -, eq⟩ := Option.map_eq_some_iff.mp there
      cases eq
      rfl
    · rw [upTo.others key member] at there
      exact absurd (listed key (by rw [there]; exact Option.some_ne_none _)) member

/-- When every reasoning item is finished, reading the items changes nothing. -/
theorem ensures_items_same (frozen : ∀ key frozen item,
    ledger.reasoningAt key = some (frozen, item) → frozen = true) (status : ResponseStatus) :
    Ensures (ledger.items status) fun result => result.1 = ledger := by
  rw [items]
  refine ensures_foldlM (fun result : SemanticItemLedger × List (SemanticResponseItem StreamKey) =>
    result.1 = ledger) ?_ rfl
  rintro ⟨current, items⟩ entry - rfl
  refine ensures_through (fun result => result.1 = current) ?_ fun result same =>
    ensures_pure same
  cases entry with
  | message key =>
    rw [entryItem]
    refine ensures_bind fun message _ => ensures_bind fun entries _ => ?_
    exact ensures_ite (fun _ => ensures_pure rfl) fun _ => ensures_pure rfl
  | reasoning key =>
    rw [entryItem]
    refine ensures_required.bind fun state found => ?_
    have isFrozen := frozen key _ _ (reasoningAt_of_get found)
    rw [if_pos isFrozen]
    exact ensures_bind fun _ _ => ensures_pure rfl
  | tool key =>
    rw [entryItem]
    exact ensures_bind fun _ _ => ensures_bind fun _ _ => ensures_pure rfl

/-! ## The content of the items -/

def itemParts : SemanticResponseItem StreamKey → List (StreamKey × SemanticContent)
  | .message key contentKeys content => keyedParts key contentKeys content
  | _ => []

theorem keyedParts_unzip (key : StreamKey) (entries : List (StreamKey × SemanticContent)) :
    keyedParts key (entries.map Prod.fst) (entries.map Prod.snd) = entries := by
  refine List.ext_getElem ?_ fun index bound below => ?_
  · simp [keyedParts]
  · simp only [keyedParts, List.getElem_map, List.getElem_zipIdx, Nat.zero_add]
    rw [List.getElem?_map, List.getElem?_eq_getElem below]
    rfl

def listedParts (ledger : SemanticItemLedger) (status : ResponseStatus) :
    List (StreamKey × SemanticContent) :=
  (ledger.sortedOrder.filterMap (ledger.itemOf status)).flatMap itemParts

def entryParts (ledger : SemanticItemLedger) : LedgerEntry → List (StreamKey × SemanticContent)
  | .message key =>
    match ledger.messages.get key with
    | some message => ledger.contentOf message
    | none => []
  | .reasoning _ => []
  | .tool _ => []

theorem flatMap_itemParts (ledger : SemanticItemLedger) (status : ResponseStatus)
    (entries : List LedgerEntry) :
    (entries.filterMap (ledger.itemOf status)).flatMap itemParts =
      entries.flatMap ledger.entryParts := by
  induction entries with
  | nil => rfl
  | cons entry rest ih =>
    rw [List.flatMap_cons, ← ih, List.filterMap_cons]
    cases entry with
    | message key =>
      rw [itemOf, entryParts]
      cases ledger.messages.get key with
      | none => rfl
      | some message =>
        simp only [Option.bind_some]
        split
        · next absent =>
          split at absent
          · cases absent
          · next empty =>
            rw [not_or, not_not] at empty
            rw [empty.1]
            rfl
        · next item there =>
          split at there
          · cases there
            rw [List.flatMap_cons, itemParts, keyedParts_unzip]
          · cases there
    | reasoning key =>
      rw [itemOf, entryParts]
      cases ledger.reasoningAt key <;> rfl
    | tool key =>
      rw [itemOf, entryParts]
      cases ledger.tools.get key <;> rfl

theorem mem_partContent_iff : (other, (⟨kind, text⟩ : SemanticContent)) ∈ partContent key part ↔
      other = key ∧ part.seen kind = true ∧ text = part.value kind := by
  rw [partContent]
  cases kind with
  | text =>
    cases seen : part.textSeen <;> cases refusal : part.refusalSeen <;>
      simp [MessagePartState.seen, MessagePartState.value, seen]
  | refusal =>
    cases seen : part.textSeen <;> cases refusal : part.refusalSeen <;>
      simp [MessagePartState.seen, MessagePartState.value, refusal]

def partEntries (ledger : SemanticItemLedger) (key : StreamKey) :
    List (StreamKey × SemanticContent) :=
  match ledger.messageParts.get key with
  | some part => partContent key part
  | none => []

theorem contentOf_eq (ledger : SemanticItemLedger) (message : MessageState) :
    ledger.contentOf message = (message.partKeys.insertionSort fun left right =>
      messagePartKeyLe left right).flatMap ledger.partEntries := rfl

theorem mem_partEntries_iff :
    (other, (⟨kind, text⟩ : SemanticContent)) ∈ ledger.partEntries key ↔
      other = key ∧ ledger.SeenAt kind key ∧ text = ledger.contentValue kind key := by
  rw [partEntries, SeenAt, contentValue]
  cases found : ledger.messageParts.get key with
  | none =>
    constructor
    · rintro ⟨⟩
    · rintro ⟨-, ⟨part, ⟨⟩, -⟩, -⟩
  | some part =>
    simp only [mem_partContent_iff, Option.some.injEq, exists_eq_left']

theorem mem_contentOf_iff {message : MessageState} :
    (key, (⟨kind, text⟩ : SemanticContent)) ∈ ledger.contentOf message ↔
      key ∈ message.partKeys ∧ ledger.SeenAt kind key ∧ text = ledger.contentValue kind key := by
  rw [contentOf_eq, List.mem_flatMap]
  constructor
  · rintro ⟨partKey, listed, member⟩
    obtain ⟨rfl, seen⟩ := mem_partEntries_iff.mp member
    exact ⟨(List.mem_insertionSort _).mp listed, seen⟩
  · rintro ⟨listed, seen⟩
    exact ⟨key, (List.mem_insertionSort _).mpr listed, mem_partEntries_iff.mpr ⟨rfl, seen⟩⟩

/-- A message lists the parts that name it. -/
theorem mem_entryParts (sound : ledger.ContentSound) {entry : LedgerEntry} :
    (key, (⟨kind, text⟩ : SemanticContent)) ∈ ledger.entryParts entry ↔
      ∃ messageKey, entry = .message messageKey ∧ ledger.skeleton.parts key = some messageKey ∧
        ledger.SeenAt kind key ∧ text = ledger.contentValue kind key := by
  cases entry with
  | message messageKey =>
    rw [entryParts]
    have owned : ledger.skeleton.parts key = some messageKey ↔ ∃ keys,
        (ledger.messages.get messageKey).map MessageState.partKeys = some keys ∧ key ∈ keys :=
      sound.wellFormed.part_iff messageKey key
    cases found : ledger.messages.get messageKey with
    | none =>
      rw [found] at owned
      refine ⟨by rintro ⟨⟩, ?_⟩
      rintro ⟨other, ⟨⟩, owner, -⟩
      obtain ⟨keys, ⟨⟩, -⟩ := owned.mp owner
    | some message =>
      rw [found] at owned
      refine mem_contentOf_iff.trans ⟨?_, ?_⟩
      · rintro ⟨member, seen⟩
        exact ⟨messageKey, rfl, owned.mpr ⟨_, rfl, member⟩, seen⟩
      · rintro ⟨other, ⟨⟩, owner, seen⟩
        obtain ⟨keys, ⟨⟩, member⟩ := owned.mp owner
        exact ⟨member, seen⟩
  | _ => exact ⟨by rintro ⟨⟩, by rintro ⟨other, ⟨⟩, -⟩⟩

/-- The message of a part that is there is listed. -/
theorem message_mem_order (wellFormed : ledger.WellFormed) {messageKey : StreamKey}
    (owner : ledger.skeleton.parts key = some messageKey) : .message messageKey ∈ ledger.order := by
  obtain ⟨keys, has, -⟩ := (wellFormed.part_iff messageKey key).mp owner
  exact (wellFormed.order_message messageKey).mpr (has ▸ rfl)

/-- The items list exactly what has been seen, with the text held. -/
theorem mem_listedParts (sound : ledger.ContentSound) (status : ResponseStatus) :
    (key, (⟨kind, text⟩ : SemanticContent)) ∈ ledger.listedParts status ↔
      ledger.SeenAt kind key ∧ text = ledger.contentValue kind key := by
  rw [listedParts, flatMap_itemParts, List.mem_flatMap]
  constructor
  · rintro ⟨entry, -, member⟩
    obtain ⟨messageKey, -, -, seen⟩ := (mem_entryParts sound).mp member
    exact seen
  · rintro ⟨⟨part, found, seen⟩, rfl⟩
    have owner : ledger.skeleton.parts key = some part.groupKey := by
      show (ledger.messageParts.get key).map _ = _
      rw [found]
      rfl
    exact ⟨.message part.groupKey,
      (mem_sortedOrder _).mpr (message_mem_order sound.wellFormed owner),
      (mem_entryParts sound).mpr ⟨_, rfl, owner, ⟨part, found, seen⟩, rfl⟩⟩

theorem nodup_partContent (key : StreamKey) (part : MessagePartState) :
    ((partContent key part).map fun entry => (entry.1, entry.2.kind)).Nodup := by
  rw [partContent]
  cases part.textSeen <;> cases part.refusalSeen <;> simp

/-- No content is listed twice. -/
theorem nodup_listedParts (sound : ledger.ContentSound) (status : ResponseStatus) :
    ((ledger.listedParts status).map fun entry => (entry.1, entry.2.kind)).Nodup := by
  rw [listedParts, flatMap_itemParts, List.map_flatMap, List.nodup_flatMap]
  constructor
  · intro entry _
    cases entry with
    | message messageKey =>
      rw [entryParts]
      cases found : ledger.messages.get messageKey with
      | none => exact List.nodup_nil
      | some message =>
        simp only
        rw [contentOf_eq, List.map_flatMap, List.nodup_flatMap]
        constructor
        · intro key _
          rw [partEntries]
          cases ledger.messageParts.get key with
          | none => exact List.nodup_nil
          | some part => exact nodup_partContent key part
        · refine ((List.perm_insertionSort _ _).nodup_iff.mpr
            (sound.distinct messageKey message found)).imp ?_
          intro first second apart one inFirst inSecond
          have keyOf : ∀ {key : StreamKey}, one ∈ (ledger.partEntries key).map
              (fun entry : StreamKey × SemanticContent => (entry.1, entry.2.kind)) →
              one.1 = key := by
            intro key member
            obtain ⟨⟨other, kind, text⟩, inPart, rfl⟩ := List.mem_map.mp member
            exact (mem_partEntries_iff.mp inPart).1
          exact apart ((keyOf inFirst).symm.trans (keyOf inSecond))
    | reasoning other => exact List.nodup_nil
    | tool other => exact List.nodup_nil
  · have nodup : ledger.sortedOrder.Nodup :=
      (List.perm_insertionSort _ _).nodup_iff.mpr sound.wellFormed.order_nodup
    refine nodup.imp ?_
    intro first second apart one inFirst inSecond
    have ownerOf : ∀ {entry : LedgerEntry}, one ∈ (ledger.entryParts entry).map
        (fun entry : StreamKey × SemanticContent => (entry.1, entry.2.kind)) →
          ∃ messageKey, entry = .message messageKey ∧
          ledger.skeleton.parts one.1 = some messageKey := by
      intro entry member
      obtain ⟨⟨key, kind, text⟩, inEntry, rfl⟩ := List.mem_map.mp member
      obtain ⟨messageKey, is, owner, -⟩ := (mem_entryParts sound).mp inEntry
      exact ⟨messageKey, is, owner⟩
    obtain ⟨firstKey, rfl, firstOwner⟩ := ownerOf inFirst
    obtain ⟨secondKey, rfl, secondOwner⟩ := ownerOf inSecond
    rw [firstOwner, Option.some.injEq] at secondOwner
    exact apart (congrArg LedgerEntry.message secondOwner)

end GhcGateway.Conversion.SemanticItemLedger
