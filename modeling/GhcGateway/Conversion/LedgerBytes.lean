/-
# The bytes of a ledger

The ledger charges what it retains: the keys, ids and names of its items, their
text, refusals, reasoning and arguments, and the state of a reasoning item. What it
has charged is at most its limit, so what it retains is within the limit as long as
the charge covers it.

The charge covers it with a slack while an operation has reserved what it is about
to store. One way to store more than was charged remains: a Responses item that
takes the place of one that differs from it in the id or the status only is not
charged for being longer.
-/

import GhcGateway.Conversion.LedgerFacts

namespace GhcGateway.Conversion

open Library

/-! ## What is retained -/

/-- The bytes of a value that may be missing. -/
def optionalByteLength : Option JsString → Nat
  | some value => utf8ByteLength value
  | none => 0

def MessagesReasoningState.byteLength : MessagesReasoningState → Nat
  | .thinking text signature => utf8ByteLength text + utf8ByteLength signature
  | .redactedThinking data => utf8ByteLength data

/-- The bytes of an opaque state in its canonical form, if it has one. -/
def OpaqueReasoningState.byteLength (state : OpaqueReasoningState) : Nat :=
  match opaqueStateByteLength state with
  | .ok count => count
  | .error _ => 0

def ToolState.byteLength (key : StreamKey) (tool : ToolState) : Nat :=
  utf8ByteLength key.render + optionalByteLength tool.itemId + utf8ByteLength tool.callId +
    utf8ByteLength tool.name + utf8ByteLength tool.argumentsJson

/-- What a message retains besides its parts. -/
def MessageState.byteLength (key : StreamKey) (_ : MessageState) : Nat :=
  utf8ByteLength key.render

/-- What a content part retains. A part that is named like its message shares the
key. -/
def MessagePartState.byteLength (key : StreamKey) (part : MessagePartState) : Nat :=
  (if key ≠ part.groupKey then utf8ByteLength key.render else 0) + utf8ByteLength part.text +
    utf8ByteLength part.refusal

/-- What a reasoning item retains besides its parts. -/
def ReasoningState.byteLength (key : StreamKey) (state : ReasoningState) : Nat :=
  utf8ByteLength key.render + optionalByteLength state.itemId +
    state.messagesState.elim 0 MessagesReasoningState.byteLength +
    state.opaqueState.elim 0 OpaqueReasoningState.byteLength

def ReasoningPartState.byteLength (partKey : StreamKey) (part : ReasoningPartState) : Nat :=
  (if partKey ≠ part.itemKey then utf8ByteLength partKey.render else 0) + utf8ByteLength part.text

namespace SemanticItemLedger

open OrderedMap MessagePartState

variable {key : StreamKey} {state : ReasoningState}

def retainedBytes (ledger : SemanticItemLedger) : Nat :=
  ledger.tools.weigh ToolState.byteLength + ledger.messages.weigh MessageState.byteLength +
    ledger.messageParts.weigh byteLength +
    ledger.reasoning.weigh ReasoningState.byteLength +
    ledger.reasoningParts.weigh ReasoningPartState.byteLength

/-- The charge is within the limit and covers what is retained and a slack besides. -/
structure Covers (limit slack : Nat) (ledger : SemanticItemLedger) : Prop where
  limited : ledger.maxBytes = limit
  within : ledger.usedBytes ≤ limit
  covered : ledger.retainedBytes + slack ≤ ledger.usedBytes

variable {ledger next : SemanticItemLedger} {limit slack more : Nat}

theorem covers_new (limit : Nat) : (new limit).Covers limit 0 where
  limited := rfl
  within := Nat.zero_le _
  covered := Nat.le_refl _

/-! ## Reservations -/

theorem ensures_reserveBytes_used (count : Nat) :
    Ensures (ledger.reserveBytes count) fun next =>
      next = ledger.withUsed (ledger.usedBytes + count) ∧
        ledger.usedBytes + count ≤ ledger.maxBytes := by
  rw [reserveBytes]
  exact ensures_ite (fun _ => ensures_error) fun room => ensures_ok ⟨rfl, Nat.le_of_not_lt room⟩

section

variable (covers : ledger.Covers limit slack)

include covers

theorem ensures_reserveBytes_covers (count : Nat) :
    Ensures (ledger.reserveBytes count) fun next =>
      next.Covers limit (slack + count) ∧ Charged ledger next := by
  refine (ensures_reserveBytes_used count).mono ?_
  rintro _ ⟨rfl, room⟩
  refine ⟨⟨covers.limited, covers.limited ▸ room, ?_⟩, _, rfl⟩
  have covered := covers.covered
  show ledger.retainedBytes + (slack + count) ≤ ledger.usedBytes + count
  omega

theorem ensures_reserve_covers (value : JsString) :
    Ensures (ledger.reserve value) fun next =>
      next.Covers limit (slack + utf8ByteLength value) ∧ Charged ledger next :=
  ensures_reserveBytes_covers covers _

theorem ensures_reserveOptional_covers (value : Option JsString) :
    Ensures (ledger.reserveOptional value) fun next =>
      next.Covers limit (slack + optionalByteLength value) ∧ Charged ledger next := by
  cases value with
  | none => exact ensures_ok ⟨covers, .refl _⟩
  | some value => exact ensures_reserve_covers covers value

theorem ensures_reserveIf_covers (condition : Prop) [Decidable condition] (value : JsString) :
    Ensures (ledger.reserveIf condition value) fun next =>
      next.Covers limit (slack + if condition then utf8ByteLength value else 0) ∧
        Charged ledger next := by
  rw [reserveIf]
  split
  · exact ensures_reserve_covers covers value
  · exact ensures_ok ⟨covers, .refl _⟩

theorem ensures_reserveMessagesState_covers (state : Option MessagesReasoningState) :
    Ensures (ledger.reserveMessagesState state) fun next =>
      next.Covers limit (slack + state.elim 0 MessagesReasoningState.byteLength) ∧
        Charged ledger next := by
  match state with
  | none => exact ensures_ok ⟨covers, .refl _⟩
  | some (.redactedThinking data) => exact ensures_reserve_covers covers data
  | some (.thinking thinking signature) =>
    refine (ensures_reserve_covers covers thinking).bind ?_
    rintro middle ⟨covers, first⟩
    refine (ensures_reserve_covers covers signature).mono ?_
    rintro last ⟨covers, second⟩
    rw [Nat.add_assoc] at covers
    exact ⟨covers, first.trans second⟩

end

theorem ensures_opaqueStateByteLength (state : OpaqueReasoningState) :
    Ensures (opaqueStateByteLength state) fun count => count = state.byteLength := by
  intro count returned
  rw [OpaqueReasoningState.byteLength, returned]

theorem ensures_reserveOpaqueState_covers (covers : ledger.Covers limit slack)
    (state : OpaqueReasoningState) : Ensures (ledger.reserveOpaqueState state) fun next =>
      next.Covers limit (slack + state.byteLength) ∧ Charged ledger next := by
  rw [reserveOpaqueState]
  refine (ensures_opaqueStateByteLength state).bind ?_
  rintro _ rfl
  exact ensures_reserveBytes_covers covers _

theorem ensures_reserveOptionalOpaqueState_covers (covers : ledger.Covers limit slack)
    (state : Option OpaqueReasoningState) :
    Ensures (ledger.reserveOptionalOpaqueState state) fun next =>
      next.Covers limit (slack + state.elim 0 OpaqueReasoningState.byteLength) ∧
        Charged ledger next := by
  cases state with
  | none => exact ensures_ok ⟨covers, .refl _⟩
  | some state => exact ensures_reserveOpaqueState_covers covers state

/-! ## Storing -/

/-- What is stored may retain more than what it takes the place of, by as much as
the slack gives up. -/
theorem Covers.store (covers : ledger.Covers limit (slack + more))
    (sameLimit : next.maxBytes = ledger.maxBytes) (sameUsed : next.usedBytes = ledger.usedBytes)
    (grows : next.retainedBytes ≤ ledger.retainedBytes + more) : next.Covers limit slack where
  limited := sameLimit.trans covers.limited
  within := sameUsed ▸ covers.within
  covered := by
    have covered := covers.covered
    omega

theorem Covers.setTool (covers : ledger.Covers limit (slack + more)) {tool : ToolState}
    (grows : tool.byteLength key ≤ ledger.tools.weighAt ToolState.byteLength key + more) :
    { ledger with tools := ledger.tools.set key tool }.Covers limit slack := by
  refine covers.store rfl rfl ?_
  have exchanged := ledger.tools.weigh_set key tool ToolState.byteLength
  simp only [retainedBytes]
  omega

theorem Covers.setMessage (covers : ledger.Covers limit (slack + more)) {message : MessageState}
    (grows : message.byteLength key ≤ ledger.messages.weighAt MessageState.byteLength key + more) :
    { ledger with messages := ledger.messages.set key message }.Covers limit slack := by
  refine covers.store rfl rfl ?_
  have exchanged := ledger.messages.weigh_set key message MessageState.byteLength
  simp only [retainedBytes]
  omega

/-- A message that is there retains nothing but its key. -/
theorem Covers.replaceMessage (covers : ledger.Covers limit slack) {old : MessageState}
    (there : ledger.messages.get key = some old) (message : MessageState) :
    { ledger with messages := ledger.messages.set key message }.Covers limit slack := by
  apply Covers.setMessage (show ledger.Covers limit (slack + 0) from covers)
  rw [weighAt_of_get there]
  exact Nat.le_refl _

theorem Covers.setPart (covers : ledger.Covers limit (slack + more)) {part : MessagePartState}
    (grows : part.byteLength key ≤ ledger.messageParts.weighAt byteLength key + more) :
    { ledger with messageParts := ledger.messageParts.set key part }.Covers limit slack := by
  refine covers.store rfl rfl ?_
  have exchanged := ledger.messageParts.weigh_set key part byteLength
  simp only [retainedBytes]
  omega

theorem Covers.setReasoning (covers : ledger.Covers limit (slack + more))
    (grows : state.byteLength key ≤ ledger.reasoning.weighAt ReasoningState.byteLength key + more) :
    { ledger with reasoning := ledger.reasoning.set key state }.Covers limit slack := by
  refine covers.store rfl rfl ?_
  have exchanged := ledger.reasoning.weigh_set key state ReasoningState.byteLength
  simp only [retainedBytes]
  omega

theorem Covers.setReasoningPart (covers : ledger.Covers limit (slack + more))
    {part : ReasoningPartState}
    (grows : part.byteLength key ≤
      ledger.reasoningParts.weighAt ReasoningPartState.byteLength key + more) :
    { ledger with reasoningParts := ledger.reasoningParts.set key part }.Covers limit slack := by
  refine covers.store rfl rfl ?_
  have exchanged := ledger.reasoningParts.weigh_set key part ReasoningPartState.byteLength
  simp only [retainedBytes]
  omega

/-- A part that is there is replaced by one that retains as much. -/
theorem Covers.replacePart (covers : ledger.Covers limit slack) {old part : MessagePartState}
    (there : ledger.messageParts.get key = some old)
    (same : part.byteLength key = old.byteLength key) :
    { ledger with messageParts := ledger.messageParts.set key part }.Covers limit slack := by
  apply Covers.setPart (show ledger.Covers limit (slack + 0) from covers)
  rw [weighAt_of_get there, same]
  exact Nat.le_refl _

/-! ## Messages -/

theorem ensures_message_covers (covers : ledger.Covers limit slack) (key : StreamKey) :
    Ensures (ledger.message key) fun (next, message) =>
      next.Covers limit slack ∧ next.messages.get key = some message ∧
        next.messageParts = ledger.messageParts := by
  rw [message]
  cases found : ledger.messages.get key with
  | some message => exact ensures_ok ⟨covers, found, rfl⟩
  | none =>
    refine (ensures_reserve_covers covers key.render).bind ?_
    rintro _ ⟨covers, used, rfl⟩
    have stored := @Covers.setMessage key _ _ _ _ covers ⟨[], false⟩ (Nat.le_add_left _ _)
    exact ensures_pure ⟨⟨stored.limited, stored.within, stored.covered⟩,
      get_set_self _ _ _, rfl⟩

theorem ensures_messagePart_covers (covers : ledger.Covers limit slack) (key groupKey : StreamKey) :
    Ensures (ledger.messagePart key groupKey) fun (next, part) =>
      next.Covers limit slack ∧ next.messageParts.get key = some part := by
  rw [messagePart]
  cases found : ledger.messageParts.get key with
  | some part => exact ensures_bind fun _ _ => ensures_pure ⟨covers, found⟩
  | none =>
    refine (ensures_reserveIf_covers covers (key ≠ groupKey) key.render).bind ?_
    rintro _ ⟨covers, used, rfl⟩
    have stored := @Covers.setPart key _ _ _ _ covers ⟨groupKey, [], [], false, false, false⟩
      (Nat.le_add_left _ _)
    refine (ensures_message_covers stored groupKey).bind ?_
    rintro ⟨last, message⟩ ⟨covers, there, parts⟩
    refine ensures_pure ⟨covers.replaceMessage there _, ?_⟩
    show last.messageParts.get key = _
    rw [parts]
    exact get_set_self _ _ _

theorem byteLength_see (part : MessagePartState) (kind : ContentKind) (key : StreamKey) :
    (part.see kind).byteLength key = part.byteLength key := by
  cases kind with
  | text => rfl
  | refusal => rfl

theorem byteLength_append_le (part : MessagePartState) (kind : ContentKind) (delta : JsString)
    (key : StreamKey) :
    (part.append kind delta).byteLength key ≤ part.byteLength key + utf8ByteLength delta := by
  cases kind with
  | text =>
    have longer := utf8ByteLength_append_le part.text delta
    rw [byteLength, byteLength]
    show (if key ≠ part.groupKey then _ else 0) + utf8ByteLength (part.text ++ delta) +
      utf8ByteLength part.refusal ≤ _
    omega
  | refusal =>
    have longer := utf8ByteLength_append_le part.refusal delta
    rw [byteLength, byteLength]
    show (if key ≠ part.groupKey then _ else 0) + utf8ByteLength part.text +
      utf8ByteLength (part.refusal ++ delta) ≤ _
    omega

theorem ensures_observeContent_covers (covers : ledger.Covers limit slack) (kind : ContentKind)
    (key : StreamKey) (orderKey : Option StreamKey) :
    Ensures (ledger.observeContent kind key orderKey) fun (next, _) => next.Covers limit slack := by
  rw [observeContent]
  refine (ensures_message_covers covers _).bind ?_
  rintro ⟨first, message⟩ ⟨covers, -, -⟩
  refine ensures_bind fun _ _ => (ensures_messagePart_covers covers key _).bind ?_
  rintro ⟨second, part⟩ ⟨covers, there⟩
  exact ensures_pure (covers.replacePart there (byteLength_see part kind key))

theorem ensures_appendContent_covers (covers : ledger.Covers limit slack) (kind : ContentKind)
    (key : StreamKey) (delta : JsString) (orderKey : Option StreamKey) :
    Ensures (ledger.appendContent kind key delta orderKey) (Covers limit slack) := by
  rw [appendContent]
  refine (ensures_reserve_covers covers delta).bind ?_
  rintro first ⟨covers, -⟩
  refine (ensures_observeContent_covers covers kind key orderKey).bind ?_
  rintro ⟨second, first⟩ covers
  refine (ensures_messagePart_covers covers key _).bind ?_
  rintro ⟨third, part⟩ ⟨covers, there⟩
  refine ensures_bind fun _ _ => ensures_pure (covers.setPart ?_)
  rw [weighAt_of_get there]
  exact byteLength_append_le part kind delta key

theorem ensures_finishContent_covers (covers : ledger.Covers limit slack) (key : StreamKey) :
    Ensures (ledger.finishContent key) (Covers limit slack) := by
  rw [finishContent]
  exact ensures_required.bind fun part there => ensures_pure (covers.replacePart there rfl)

theorem weigh_freezeParts (parts : OrderedMap StreamKey MessagePartState) (keys : List StreamKey) :
    (freezeParts parts keys).weigh byteLength =
      parts.weigh byteLength := by
  rw [freezeParts]
  apply weigh_foldl_modify
  intro key part
  rfl

theorem ensures_finishMessage_covers (covers : ledger.Covers limit slack) (key : StreamKey) :
    Ensures (ledger.finishMessage key) (Covers limit slack) := by
  rw [finishMessage]
  refine (ensures_message_covers covers key).bind ?_
  rintro ⟨first, message⟩ ⟨covers, there, -⟩
  have shared := covers.replaceMessage there { message with frozen := true }
  refine ensures_pure ⟨shared.limited, shared.within, ?_⟩
  have covered := shared.covered
  rw [retainedBytes] at covered
  show _ + _ + (freezeParts first.messageParts message.partKeys).weigh _ + _ + _ + slack ≤ _
  rw [weigh_freezeParts]
  exact covered

/-! ## Reasoning -/

/-- The state an item takes on is no longer than the state it is taken for. -/
def ExchangesWithin (state : ReasoningState) (incoming : OpaqueReasoningState) : Prop :=
  ∀ existing, state.opaqueState = some existing → sameOpaqueState existing incoming = .ok true →
    ∃ count, opaqueStateByteLength incoming = .ok count ∧ count ≤ existing.byteLength

theorem ensures_reserveOptionalOpaqueState_measured (state : OpaqueReasoningState) :
    Ensures (ledger.reserveOptionalOpaqueState (some state)) fun _ =>
      ∃ count, opaqueStateByteLength state = .ok count := by
  rw [reserveOptionalOpaqueState, reserveOpaqueState]
  refine ensures_bind fun count measured => ?_
  intro _ _
  exact ⟨count, measured⟩

/-- The state of an item that is started is charged in full. -/
theorem ensures_addReasoning_covers (covers : ledger.Covers limit slack) (key : StreamKey)
    (itemId : Option JsString) (messagesState : Option MessagesReasoningState)
    (opaqueState : Option OpaqueReasoningState) :
    Ensures (ledger.addReasoning key itemId messagesState opaqueState) fun (next, state) =>
      next.Covers limit slack ∧ next.reasoning.get key = some state ∧
        ∀ incoming, opaqueState = some incoming → ExchangesWithin state incoming := by
  rw [addReasoning]
  refine (ensures_reserve_covers covers key.render).bind ?_
  rintro first ⟨covers, -⟩
  refine (ensures_reserveOptional_covers covers itemId).bind ?_
  rintro second ⟨covers, -⟩
  refine (ensures_reserveMessagesState_covers covers messagesState).bind ?_
  rintro third ⟨covers, -⟩
  have measured : Ensures (third.reserveOptionalOpaqueState opaqueState) fun _ =>
      ∀ incoming, opaqueState = some incoming →
        ∃ count, opaqueStateByteLength incoming = .ok count := by
    rintro fourth returned incoming rfl
    exact ensures_reserveOptionalOpaqueState_measured incoming fourth returned
  refine ((ensures_reserveOptionalOpaqueState_covers covers opaqueState).and measured).bind ?_
  rintro fourth ⟨⟨covers, -⟩, measured⟩
  rw [Nat.add_assoc, Nat.add_assoc, Nat.add_assoc, ← Nat.add_assoc (utf8ByteLength _),
    ← Nat.add_assoc (_ + _)] at covers
  have stored := @Covers.setReasoning key
    ⟨itemId, [], none, false, messagesState, opaqueState⟩ _ _ _ _ covers (Nat.le_add_left _ _)
  refine ensures_pure ⟨⟨stored.limited, stored.within, stored.covered⟩,
    get_set_self _ _ _, ?_⟩
  rintro incoming isIncoming existing held -
  obtain ⟨count, returned⟩ := measured incoming isIncoming
  cases held.symm.trans isIncoming
  exact ⟨count, returned, Nat.le_of_eq (ensures_opaqueStateByteLength _ count returned)⟩

theorem ensures_resumeReasoning_covers (covers : ledger.Covers limit slack)
    (there : ledger.reasoning.get key = some state) (itemId : Option JsString)
    (messagesState : Option MessagesReasoningState) :
    Ensures (ledger.resumeReasoning key state itemId messagesState) fun (next, resumed) =>
      next.Covers limit slack ∧ next.reasoning.get key = some resumed ∧
        resumed.opaqueState = state.opaqueState := by
  unfold resumeReasoning
  refine ensures_bind fun _ _ => ?_
  cases messagesState with
  | none => exact ensures_pure ⟨covers, there, rfl⟩
  | some incoming =>
    refine ensures_require.bind fun _ agrees => ?_
    refine (ensures_reserveMessagesState_covers covers _).bind ?_
    rintro _ ⟨covers, used, rfl⟩
    refine ensures_pure ⟨covers.setReasoning ?_, get_set_self _ _ _, rfl⟩
    have weight : (ledger.withUsed used).reasoning.weighAt ReasoningState.byteLength key =
      state.byteLength key := weighAt_of_get there _
    rw [weight, ReasoningState.byteLength, ReasoningState.byteLength]
    -- a state that is there already has been charged before
    by_cases first : state.messagesState = none
    · rw [if_pos first, first]
      simp only [Option.elim_none, Option.elim_some]
      omega
    · rw [if_neg first, agrees.resolve_left first]
      exact Nat.le_add_right _ _

/-- The opaque state of an item is exchanged for another. -/
theorem covers_exchanged (charged : Charged ledger next) (limited : ledger.maxBytes = limit)
    (within : next.usedBytes ≤ limit) (there : ledger.reasoning.get key = some state)
    {incoming : OpaqueReasoningState} (room : ledger.retainedBytes + slack + incoming.byteLength ≤
      next.usedBytes + state.opaqueState.elim 0 OpaqueReasoningState.byteLength) :
    { next with reasoning := next.reasoning.set key { state with
      opaqueState := some incoming } }.Covers limit slack := by
  obtain ⟨used, rfl⟩ := charged
  refine ⟨limited, within, ?_⟩
  have exchanged := ledger.reasoning.weigh_set key { state with opaqueState := some incoming }
    ReasoningState.byteLength
  rw [weighAt_of_get there, ReasoningState.byteLength,
    ReasoningState.byteLength] at exchanged
  simp only [retainedBytes, withUsed, Option.elim_some] at room exchanged ⊢
  omega

theorem ensures_bindOpaqueState_covers (covers : ledger.Covers limit slack) {key : StreamKey}
    {state : ReasoningState} (there : ledger.reasoning.get key = some state)
    {incoming : OpaqueReasoningState} (exchanges : ExchangesWithin state incoming) :
    Ensures (ledger.bindOpaqueState state incoming) fun next =>
      { next with reasoning := next.reasoning.set key { state with
        opaqueState := some incoming } }.Covers limit slack := by
  have covered := covers.covered
  -- a reservation in full makes room for the state, whatever it takes the place of
  have reserved : Ensures (ledger.reserveOpaqueState incoming) fun next =>
      { next with reasoning := next.reasoning.set key { state with
        opaqueState := some incoming } }.Covers limit slack := by
    refine (ensures_reserveOpaqueState_covers covers incoming).mono ?_
    rintro next ⟨full, charged⟩
    refine covers_exchanged charged covers.limited full.within there ?_
    have fullyCovered := full.covered
    obtain ⟨used, rfl⟩ := charged
    simp only [retainedBytes, withUsed] at fullyCovered ⊢
    omega
  rw [bindOpaqueState]
  cases held : state.opaqueState with
  | none => exact reserved
  | some existing =>
    refine ensures_bind fun same compared => ?_
    cases same with
    | true =>
      refine ensures_pure (covers_exchanged (.refl _) covers.limited covers.within there ?_)
      obtain ⟨count, measured, shorter⟩ := exchanges existing held compared
      have length : incoming.byteLength = count :=
        (ensures_opaqueStateByteLength incoming count measured).symm
      rw [held, length, Option.elim_some]
      omega
    | false =>
      simp only [Bool.false_eq_true, if_false]
      split
      · exact reserved
      · refine ensures_bind fun grows _ => ensures_ite (fun _ => ?_) fun _ => ensures_error
        rw [rebindOpaqueState]
        refine (ensures_opaqueStateByteLength existing).bind ?_
        rintro _ rfl
        rw [reserveOpaqueState]
        refine (ensures_opaqueStateByteLength _).bind ?_
        rintro _ rfl
        refine (ensures_reserveBytes_used _).mono ?_
        rintro _ ⟨rfl, room⟩
        refine covers_exchanged ⟨_, rfl⟩ covers.limited (covers.limited ▸ room) there ?_
        rw [held, Option.elim_some]
        simp only [withUsed]
        omega
      · exact ensures_error

theorem ensures_reasoningState_covers (covers : ledger.Covers limit slack) (key : StreamKey)
    (itemId : Option JsString) (messagesState : Option MessagesReasoningState)
    (opaqueState : Option OpaqueReasoningState)
    (exchanges : ∀ state incoming, ledger.reasoning.get key = some state →
      opaqueState = some incoming → ExchangesWithin state incoming) :
    Ensures (ledger.reasoningState key itemId messagesState opaqueState) fun (next, state) =>
      next.Covers limit slack ∧ next.reasoning.get key = some state := by
  rw [reasoningState]
  refine Ensures.bind (show Ensures _ fun result : SemanticItemLedger × ReasoningState =>
    result.1.Covers limit slack ∧ result.1.reasoning.get key = some result.2 ∧
      ∀ incoming, opaqueState = some incoming → ExchangesWithin result.2 incoming from ?_) ?_
  · cases there : ledger.reasoning.get key with
    | none => exact ensures_addReasoning_covers covers key itemId messagesState opaqueState
    | some state =>
      refine (ensures_resumeReasoning_covers covers there itemId messagesState).mono ?_
      rintro ⟨next, resumed⟩ ⟨covers, thereNext, same⟩
      refine ⟨covers, thereNext, fun incoming isIncoming existing held => ?_⟩
      exact exchanges state incoming there isIncoming existing (same.symm.trans held)
  rintro ⟨middle, state⟩ ⟨covers, there, exchanges⟩
  cases opaqueState with
  | none => exact ensures_pure ⟨covers, there⟩
  | some incoming =>
    refine (ensures_bindOpaqueState_covers covers there (exchanges incoming rfl)).bind ?_
    intro last covers
    exact ensures_pure ⟨covers, get_set_self _ _ _⟩

/-- Without an opaque state there is nothing to exchange. -/
theorem ensures_reasoningState_none_covers (covers : ledger.Covers limit slack) (key : StreamKey)
    (itemId : Option JsString) :
    Ensures (ledger.reasoningState key itemId none none) fun (next, state) =>
      next.Covers limit slack ∧ next.reasoning.get key = some state := by
  apply ensures_reasoningState_covers covers
  intro state incoming there absurd
  cases absurd

/-- An item that is there is replaced by one that retains as much. -/
theorem Covers.replaceReasoning (covers : ledger.Covers limit slack) {key : StreamKey}
    {old state : ReasoningState} (there : ledger.reasoning.get key = some old)
    (same : state.byteLength key = old.byteLength key) :
    { ledger with reasoning := ledger.reasoning.set key state }.Covers limit slack := by
  apply Covers.setReasoning (show ledger.Covers limit (slack + 0) from covers)
  rw [weighAt_of_get there, same]
  exact Nat.le_refl _

section

variable (covers : ledger.Covers limit slack)

include covers

theorem ensures_reasoningPart_covers (address : ReasoningPartAddress) :
    Ensures (ledger.reasoningPart address) fun (next, part) =>
      next.Covers limit slack ∧ next.reasoningParts.get address.partKey = some part := by
  rw [reasoningPart]
  refine (ensures_reasoningState_none_covers covers _ _).bind ?_
  rintro ⟨first, state⟩ ⟨covers, there⟩
  refine ensures_bind fun _ _ => ?_
  cases found : first.reasoningParts.get address.partKey with
  | some part => exact ensures_bind fun _ _ => ensures_pure ⟨covers, found⟩
  | none =>
    refine (ensures_reserveIf_covers covers _ _).bind ?_
    rintro _ ⟨covers, used, rfl⟩
    have stored := @Covers.setReasoningPart address.partKey _ _ _ _ covers
      ⟨address.key, address.presentation, address.partIndex, [], false⟩ (Nat.le_add_left _ _)
    exact ensures_pure ⟨stored.replaceReasoning there rfl, get_set_self _ _ _⟩

theorem ensures_appendReasoning_covers (address : ReasoningPartAddress) (delta : JsString) :
    Ensures (ledger.appendReasoning address delta) (Covers limit slack) := by
  rw [appendReasoning]
  refine (ensures_reserve_covers covers delta).bind ?_
  rintro first ⟨covers, -⟩
  refine (ensures_reasoningPart_covers covers address).bind ?_
  rintro ⟨second, part⟩ ⟨covers, there⟩
  refine ensures_bind fun _ _ => ensures_pure (covers.setReasoningPart ?_)
  have longer := utf8ByteLength_append_le part.text delta
  rw [weighAt_of_get there, ReasoningPartState.byteLength,
    ReasoningPartState.byteLength]
  show (if address.partKey ≠ part.itemKey then _ else 0) + utf8ByteLength (part.text ++ delta) ≤ _
  omega

/-- Freezing an item stores nothing. -/
theorem Covers.freezeReasoning (there : ledger.reasoning.get key = some state)
    (status : ItemStatus) : (ledger.freezeReasoning key state status).Covers limit slack := by
  have replaced := @Covers.replaceReasoning _ _ _ covers key _
    { state with frozen := true, status := some status } there rfl
  refine ⟨replaced.limited, replaced.within, ?_⟩
  have parts : (ledger.freezeReasoning key state status).reasoningParts.weigh
      ReasoningPartState.byteLength =
        ledger.reasoningParts.weigh ReasoningPartState.byteLength := by
    apply weigh_foldl_modify
    intro partKey part
    rfl
  have covered := replaced.covered
  rw [retainedBytes] at covered ⊢
  rw [parts]
  exact covered

theorem ensures_finishReasoning_covers (key : StreamKey) (status : ItemStatus) :
    Ensures (ledger.finishReasoning key status) fun (next, _) => next.Covers limit slack := by
  rw [finishReasoning]
  refine ensures_required.bind fun state there => ensures_ite (fun _ => ?_) fun _ => ?_
  · exact ensures_bind fun _ _ => ensures_bind fun _ _ => ensures_pure covers
  · exact ensures_bind fun _ _ => ensures_pure (covers.freezeReasoning there status)

theorem ensures_finishOpenReasoning_covers (status : ResponseStatus) :
    Ensures (ledger.finishOpenReasoning status) fun (next, _) => next.Covers limit slack := by
  rw [finishOpenReasoning]
  refine ensures_foldlM (Covers limit slack ∘ Prod.fst) ?_ covers
  rintro ⟨ledger, items⟩ entry - covers
  cases entry with
  | message key => exact ensures_pure covers
  | tool key => exact ensures_pure covers
  | reasoning key =>
    cases found : ledger.reasoning.get key with
    | none =>
      simp only [found]
      exact ensures_pure covers
    | some state =>
      simp only [found]
      refine ensures_ite (fun _ => ensures_pure covers) fun _ => ?_
      refine (ensures_finishReasoning_covers covers key status.item).bind ?_
      rintro ⟨next, item⟩ covers
      exact ensures_pure covers

end

/-! ## Tools -/

section

variable (covers : ledger.Covers limit slack)

include covers

theorem ensures_startTool_covers (key : StreamKey) (itemId : Option JsString)
    (callId name : JsString) :
    Ensures (ledger.startTool key itemId callId name) (Covers limit slack) := by
  rw [startTool]
  refine ensures_bind fun _ _ => (ensures_reserve_covers covers key.render).bind ?_
  rintro first ⟨covers, -⟩
  refine (ensures_reserveOptional_covers covers itemId).bind ?_
  rintro second ⟨covers, -⟩
  refine (ensures_reserve_covers covers callId).bind ?_
  rintro third ⟨covers, -⟩
  refine (ensures_reserve_covers covers name).bind ?_
  rintro fourth ⟨covers, -⟩
  rw [Nat.add_assoc, Nat.add_assoc, Nat.add_assoc, ← Nat.add_assoc (utf8ByteLength _),
    ← Nat.add_assoc (_ + _)] at covers
  have stored := @Covers.setTool key _ _ _ _ covers ⟨itemId, callId, name, [], false⟩
    (Nat.le_add_left _ _)
  exact ensures_pure ⟨stored.limited, stored.within, stored.covered⟩

theorem ensures_appendToolArguments_covers (key : StreamKey) (delta : JsString) :
    Ensures (ledger.appendToolArguments key delta) (Covers limit slack) := by
  rw [appendToolArguments]
  refine (ensures_tool key).bind fun tool there => ensures_bind fun _ _ => ?_
  refine (ensures_reserve_covers covers delta).bind ?_
  rintro _ ⟨covers, used, rfl⟩
  refine ensures_pure (covers.setTool ?_)
  have weight : (ledger.withUsed used).tools.weighAt ToolState.byteLength key =
    tool.byteLength key := weighAt_of_get there _
  have longer := utf8ByteLength_append_le tool.argumentsJson delta
  rw [weight, ToolState.byteLength, ToolState.byteLength]
  simp only
  omega

/-- A snapshot is charged for what it adds to the arguments. -/
theorem ensures_applySnapshot_covers (tool : ToolState) (snapshot : Option JsString) :
    Ensures (ledger.applySnapshot tool snapshot) fun (next, argumentsJson, suffix) =>
      next.Covers limit (slack + utf8ByteLength suffix) ∧ Charged ledger next ∧
        argumentsJson = tool.argumentsJson ++ suffix := by
  cases snapshot with
  | none => exact ensures_ok ⟨covers, .refl _, (List.append_nil _).symm⟩
  | some snapshot =>
    refine ensures_require.bind ?_
    rintro _ ⟨suffix, rfl⟩
    rw [List.drop_left]
    refine (ensures_reserve_covers covers suffix).bind ?_
    rintro next ⟨covers, charged⟩
    exact ensures_pure ⟨covers, charged, rfl⟩

theorem ensures_finishTool_covers (key : StreamKey) (snapshot : Option JsString)
    (completed validateCompleted : Bool) :
    Ensures (ledger.finishTool key snapshot completed validateCompleted) fun (next, _) =>
      next.Covers limit slack := by
  rw [finishTool]
  refine (ensures_tool key).bind fun tool there => ensures_ite (fun _ => ?_) fun _ => ?_
  · exact ensures_bind fun _ _ => ensures_bind fun _ _ => ensures_pure covers
  · refine (ensures_applySnapshot_covers covers tool snapshot).bind ?_
    rintro ⟨_, argumentsJson, suffix⟩ ⟨covers, ⟨used, rfl⟩, rfl⟩
    refine ensures_bind fun _ _ => ensures_pure (covers.setTool ?_)
    have weight : (ledger.withUsed used).tools.weighAt ToolState.byteLength key =
      tool.byteLength key := weighAt_of_get there _
    have longer := utf8ByteLength_append_le tool.argumentsJson suffix
    rw [weight, ToolState.byteLength, ToolState.byteLength]
    simp only
    omega

theorem ensures_finishOpenTools_covers (validateCompleted : JsString → Fallible Bool) :
    Ensures (ledger.finishOpenTools validateCompleted) (Covers limit slack) := by
  rw [finishOpenTools]
  apply ensures_foldlM (Covers limit slack) ?_ covers
  intro ledger key _ covers
  refine (ensures_tool key).bind fun tool there => ?_
  refine ensures_bind fun _ _ => ensures_bind fun _ _ => ensures_pure ?_
  apply Covers.setTool (show ledger.Covers limit (slack + 0) from covers)
  rw [weighAt_of_get there]
  exact Nat.le_refl _

end

/-! ## Items -/

theorem ensures_entryItem_covers (covers : ledger.Covers limit slack) (status : ResponseStatus)
    (entry : LedgerEntry) :
    Ensures (ledger.entryItem status entry) fun (next, _) => next.Covers limit slack := by
  cases entry with
  | message key =>
    refine ensures_bind fun message _ => ensures_bind fun entries _ => ?_
    exact ensures_ite (fun _ => ensures_pure covers) fun _ => ensures_pure covers
  | reasoning key =>
    refine ensures_required.bind fun state there => ensures_ite (fun _ => ?_) fun _ => ?_
    · exact ensures_bind fun _ _ => ensures_pure covers
    · exact ensures_bind fun _ _ => ensures_pure (covers.freezeReasoning there status.item)
  | tool key => exact ensures_bind fun _ _ => ensures_bind fun _ _ => ensures_pure covers

theorem ensures_items_covers (covers : ledger.Covers limit slack) (status : ResponseStatus) :
    Ensures (ledger.items status) fun (next, _) => next.Covers limit slack := by
  rw [items]
  refine ensures_foldlM (Covers limit slack ∘ Prod.fst) ?_ covers
  rintro ⟨ledger, items⟩ entry - covers
  refine (ensures_entryItem_covers covers status entry).bind ?_
  rintro ⟨next, item⟩ covers
  exact ensures_pure covers

end SemanticItemLedger

/-! ## Runs -/

inductive LedgerOperation
  | startMessage (key : StreamKey)
  | observeContent (kind : ContentKind) (key : StreamKey) (orderKey : Option StreamKey)
  | appendContent (kind : ContentKind) (key : StreamKey) (delta : JsString)
      (orderKey : Option StreamKey)
  | finishContent (key : StreamKey)
  | finishMessage (key : StreamKey)
  | startReasoning (key : StreamKey) (itemId : Option JsString)
      (messagesState : Option MessagesReasoningState) (opaqueState : Option OpaqueReasoningState)
  | appendReasoning (address : ReasoningPartAddress) (delta : JsString)
  | finishReasoning (key : StreamKey) (status : ItemStatus)
  | finishOpenReasoning (status : ResponseStatus)
  | startTool (key : StreamKey) (itemId : Option JsString) (callId name : JsString)
  | appendToolArguments (key : StreamKey) (delta : JsString)
  | finishTool (key : StreamKey) (snapshot : Option JsString) (completed validateCompleted : Bool)
  | finishOpenTools (validateCompleted : JsString → Fallible Bool)
  | items (status : ResponseStatus)

namespace LedgerOperation

def apply (ledger : SemanticItemLedger) : LedgerOperation → Fallible SemanticItemLedger
  | startMessage key => ledger.startMessage key
  | observeContent kind key orderKey => do
    let (next, _) ← ledger.observeContent kind key orderKey
    return next
  | appendContent kind key delta orderKey => ledger.appendContent kind key delta orderKey
  | finishContent key => ledger.finishContent key
  | finishMessage key => ledger.finishMessage key
  | startReasoning key itemId messagesState opaqueState =>
    ledger.startReasoning key itemId messagesState opaqueState
  | appendReasoning address delta => ledger.appendReasoning address delta
  | finishReasoning key status => do
    let (next, _) ← ledger.finishReasoning key status
    return next
  | finishOpenReasoning status => do
    let (next, _) ← ledger.finishOpenReasoning status
    return next
  | startTool key itemId callId name => ledger.startTool key itemId callId name
  | appendToolArguments key delta => ledger.appendToolArguments key delta
  | finishTool key snapshot completed validateCompleted => do
    let (next, _) ← ledger.finishTool key snapshot completed validateCompleted
    return next
  | finishOpenTools validateCompleted => ledger.finishOpenTools validateCompleted
  | items status => do
    let (next, _) ← ledger.items status
    return next

/-- An opaque state that counts as the one the item has already is no longer than
it. -/
def ExchangesWithin (ledger : SemanticItemLedger) : LedgerOperation → Prop
  | startReasoning key _ _ (some incoming) => ∀ state, ledger.reasoning.get key = some state →
    SemanticItemLedger.ExchangesWithin state incoming
  | _ => True

variable {ledger : SemanticItemLedger} {limit : Nat}

open SemanticItemLedger

/-- The ledger that an operation returns beside its answer. -/
theorem ensures_ledger {α : Type} {computation : Fallible (SemanticItemLedger × α)}
    {post : SemanticItemLedger → Prop} (ensured : Ensures computation fun (next, _) => post next) :
    Ensures (do
      let (next, _) ← computation
      return next) post := by
  refine ensured.bind ?_
  rintro ⟨next, answer⟩ holds
  exact ensures_pure holds

/-- No operation that exchanges within lets the ledger retain more than it charges. -/
theorem ensures_apply_covers (covers : ledger.Covers limit 0) {operation : LedgerOperation}
    (exchanges : operation.ExchangesWithin ledger) :
    Ensures (operation.apply ledger) (Covers limit 0) := by
  cases operation with
  | startMessage key =>
    refine (ensures_message_covers covers key).bind ?_
    rintro ⟨next, message⟩ ⟨covers, -, -⟩
    exact ensures_pure covers
  | observeContent kind key orderKey =>
    exact ensures_ledger (ensures_observeContent_covers covers kind key orderKey)
  | appendContent kind key delta orderKey =>
    exact ensures_appendContent_covers covers kind key delta orderKey
  | finishContent key => exact ensures_finishContent_covers covers key
  | finishMessage key => exact ensures_finishMessage_covers covers key
  | startReasoning key itemId messagesState opaqueState =>
    have started := ensures_reasoningState_covers covers key itemId messagesState opaqueState
      (fun state incoming there isIncoming => by
        subst isIncoming
        exact exchanges state there)
    refine started.bind ?_
    rintro ⟨next, state⟩ ⟨covers, -⟩
    exact ensures_pure covers
  | appendReasoning address delta => exact ensures_appendReasoning_covers covers address delta
  | finishReasoning key status =>
    exact ensures_ledger (ensures_finishReasoning_covers covers key status)
  | finishOpenReasoning status =>
    exact ensures_ledger (ensures_finishOpenReasoning_covers covers status)
  | startTool key itemId callId name => exact ensures_startTool_covers covers key itemId callId name
  | appendToolArguments key delta => exact ensures_appendToolArguments_covers covers key delta
  | finishTool key snapshot completed validateCompleted =>
    exact ensures_ledger (ensures_finishTool_covers covers key snapshot completed validateCompleted)
  | finishOpenTools validateCompleted =>
    exact ensures_finishOpenTools_covers covers validateCompleted
  | items status => exact ensures_ledger (ensures_items_covers covers status)

end LedgerOperation

/-- The states a ledger reaches by operations that meet a condition and do not
throw. -/
inductive SemanticItemLedger.Reached (maxBytes : Nat)
    (meets : SemanticItemLedger → LedgerOperation → Prop) : SemanticItemLedger → Prop
  | new : Reached maxBytes meets (.new maxBytes)
  | step {ledger next : SemanticItemLedger} (reached : Reached maxBytes meets ledger)
      (operation : LedgerOperation) (condition : meets ledger operation)
      (returned : operation.apply ledger = .ok next) : Reached maxBytes meets next

namespace SemanticItemLedger

theorem covers_of_reached {maxBytes : Nat} {ledger : SemanticItemLedger}
    (reached : Reached maxBytes (fun ledger operation => operation.ExchangesWithin ledger) ledger) :
    ledger.Covers maxBytes 0 := by
  induction reached with
  | new => exact covers_new maxBytes
  | step reached operation exchanges returned covers =>
    exact operation.ensures_apply_covers covers exchanges _ returned

/-- As long as no opaque state is exchanged for a longer one that counts as the same,
a ledger retains no more bytes than its limit. -/
theorem retainedBytes_le {maxBytes : Nat} {ledger : SemanticItemLedger}
    (reached : Reached maxBytes (fun ledger operation => operation.ExchangesWithin ledger) ledger) :
    ledger.retainedBytes ≤ maxBytes := by
  have covers := covers_of_reached reached
  calc ledger.retainedBytes ≤ ledger.usedBytes := covers.covered
    _ ≤ maxBytes := covers.within

/-- A reasoning item as a Responses stream reports it when it is done. -/
def doneItem : WireJsonObject :=
  [(js "type", .string (js "reasoning")), (js "id", .string (js "rs")),
    (js "encrypted_content", .string (js "e"))]

/-- The same item as the terminal event repeats it. -/
def completedItem : WireJsonObject := doneItem ++ [(js "status", .string (js "completed"))]

/-- The first reasoning item of a response with its state. -/
def startsWith (item : WireJsonObject) : LedgerOperation :=
  .startReasoning (.responsesReasoning 0) (some (js "rs")) none (some (.responsesItem item))

set_option maxRecDepth 4000 in
/-- An item that is taken on in place of a longer one. -/
theorem retainedBytes_le_exchanged : ∃ first second,
    (startsWith completedItem).apply (.new 98) = .ok first ∧
    (startsWith doneItem).apply first = .ok second ∧ first.retainedBytes = 98 ∧
    second.retainedBytes ≤ 98 := by
  refine ⟨_, _, rfl, rfl, rfl, retainedBytes_le
    (.step (.step .new (startsWith completedItem) ?_ rfl) (startsWith doneItem) ?_ rfl)⟩
  · intro state absurd
    cases absurd
  · intro state there
    obtain rfl := Option.some.inj there
    rintro existing found -
    obtain rfl := Option.some.inj found
    exact ⟨_, rfl, by decide⟩

set_option maxRecDepth 4000 in
/-- The status of the repeated item is not charged. -/
theorem not_retainedBytes_le : ¬ ∀ (maxBytes : Nat) (ledger : SemanticItemLedger),
    Reached maxBytes (fun _ _ => True) ledger → ledger.retainedBytes ≤ maxBytes := by
  intro bounded
  obtain ⟨first, one⟩ : ∃ first, (startsWith doneItem).apply (.new 77) = .ok first := ⟨_, rfl⟩
  have retains : (do
      let ledger ← (startsWith doneItem).apply (.new 77)
      (startsWith completedItem).apply ledger).toOption.map retainedBytes = some 98 := by
    decide
  rw [one] at retains
  cases two : (startsWith completedItem).apply first with
  | error error => simp [bind, Except.bind, two, Except.toOption] at retains
  | ok second =>
    have bound := bounded 77 second
      (.step (.step .new _ trivial one) (startsWith completedItem) trivial two)
    simp [bind, Except.bind, two, Except.toOption] at retains
    omega

end SemanticItemLedger

end GhcGateway.Conversion
