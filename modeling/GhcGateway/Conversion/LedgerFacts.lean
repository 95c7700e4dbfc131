/-
# What the ledger's operations do

One statement for each operation of the ledger that returns: the ledger it
returns is explicit, but for the bytes charged. Everything proved about runs
starts from these statements and never unfolds an operation again.

`WellFormed` ties the order of the items to the maps that hold them.
-/

import GhcGateway.Conversion.Ledger

namespace GhcGateway.Conversion

open Library

theorem ensures_require {condition : Prop} [Decidable condition] :
    Ensures (require condition) fun _ => condition := by
  rw [require]
  exact ensures_ite (fun holds => ensures_ok holds) fun _ => ensures_error

theorem ensures_required {α : Type} {value : Option α} :
    Ensures (required value) fun found => value = some found := by
  cases value with
  | none => exact ensures_error
  | some found => exact ensures_ok rfl

namespace SemanticItemLedger

open OrderedMap

variable {ledger next : SemanticItemLedger}

/-! ## Charges -/

/-- The ledger with another number of bytes used. -/
def withUsed (ledger : SemanticItemLedger) (used : Nat) : SemanticItemLedger :=
  { ledger with usedBytes := used }

/-- The same ledger but for the bytes used. -/
def Charged (ledger next : SemanticItemLedger) : Prop := ∃ used, next = ledger.withUsed used

theorem Charged.refl (ledger : SemanticItemLedger) : Charged ledger ledger :=
  ⟨ledger.usedBytes, rfl⟩

theorem Charged.trans {first second third : SemanticItemLedger} (one : Charged first second)
    (two : Charged second third) : Charged first third := by
  obtain ⟨used, rfl⟩ := one
  obtain ⟨used', rfl⟩ := two
  exact ⟨used', rfl⟩

theorem ensures_reserveBytes (count : Nat) :
    Ensures (ledger.reserveBytes count) (Charged ledger) := by
  rw [reserveBytes]
  exact ensures_ite (fun _ => ensures_error) fun _ => ensures_ok ⟨_, rfl⟩

theorem ensures_reserve (value : JsString) : Ensures (ledger.reserve value) (Charged ledger) :=
  ensures_reserveBytes _

theorem ensures_reserveOptional (value : Option JsString) :
    Ensures (ledger.reserveOptional value) (Charged ledger) := by
  cases value with
  | none => exact ensures_ok (.refl _)
  | some value => exact ensures_reserve value

theorem ensures_reserveOpaqueState (state : OpaqueReasoningState) :
    Ensures (ledger.reserveOpaqueState state) (Charged ledger) := by
  rw [reserveOpaqueState]
  exact ensures_bind fun count _ => ensures_reserveBytes count

theorem ensures_reserveIf (condition : Prop) [Decidable condition] (value : JsString) :
    Ensures (ledger.reserveIf condition value) (Charged ledger) := by
  rw [reserveIf]
  exact ensures_ite (fun _ => ensures_reserve value) fun _ => ensures_ok (.refl _)

theorem ensures_reserveOptionalOpaqueState (state : Option OpaqueReasoningState) :
    Ensures (ledger.reserveOptionalOpaqueState state) (Charged ledger) := by
  cases state with
  | none => exact ensures_ok (.refl _)
  | some state => exact ensures_reserveOpaqueState state

theorem ensures_reserveMessagesState (state : Option MessagesReasoningState) :
    Ensures (ledger.reserveMessagesState state) (Charged ledger) := by
  match state with
  | none => exact ensures_ok (.refl _)
  | some (.redactedThinking data) => exact ensures_reserve data
  | some (.thinking thinking signature) =>
    refine (ensures_reserve thinking).bind fun middle charged => ?_
    exact (ensures_reserve signature).mono fun last => charged.trans

theorem ensures_rebindOpaqueState (previous incoming : OpaqueReasoningState) :
    Ensures (ledger.rebindOpaqueState previous incoming) (Charged ledger) := by
  rw [rebindOpaqueState]
  refine ensures_bind fun count _ => ?_
  refine (ensures_reserveOpaqueState incoming).mono fun last charged => ?_
  exact Charged.trans ⟨_, rfl⟩ charged

theorem ensures_bindOpaqueState (state : ReasoningState) (incoming : OpaqueReasoningState) :
    Ensures (ledger.bindOpaqueState state incoming) (Charged ledger) := by
  rw [bindOpaqueState]
  split
  · exact ensures_reserveOpaqueState incoming
  · refine ensures_bind fun same _ => ?_
    refine ensures_ite (fun _ => ensures_pure (.refl _)) fun _ => ?_
    split
    · exact ensures_reserveOpaqueState _
    · refine ensures_bind fun grows _ => ?_
      exact ensures_ite (fun _ => ensures_rebindOpaqueState _ _) fun _ => ensures_error
    · exact ensures_error

/-! ## Messages -/

def addMessage (ledger : SemanticItemLedger) (key : StreamKey) : SemanticItemLedger :=
  if (ledger.messages.get key).isSome then ledger
  else { ledger with
    messages := ledger.messages.set key ⟨[], false⟩
    order := ledger.order ++ [.message key] }

/-- The ledger with a content part started in a message that is there. -/
def addPart (ledger : SemanticItemLedger) (key groupKey : StreamKey) : SemanticItemLedger :=
  if (ledger.messageParts.get key).isSome then ledger
  else { ledger with
    messageParts := ledger.messageParts.set key ⟨groupKey, [], [], false, false, false⟩
    messages := ledger.messages.modify groupKey fun message =>
      { message with partKeys := message.partKeys ++ [key] } }

def setPart (ledger : SemanticItemLedger) (key : StreamKey) (part : MessagePartState) :
    SemanticItemLedger :=
  { ledger with messageParts := ledger.messageParts.set key part }

/-- The content part of a key, or the one `messagePart` starts. -/
def partState (ledger : SemanticItemLedger) (key groupKey : StreamKey) : MessagePartState :=
  (ledger.messageParts.get key).getD ⟨groupKey, [], [], false, false, false⟩

theorem addMessage_withUsed (ledger : SemanticItemLedger) (used : Nat) (key : StreamKey) :
    (ledger.withUsed used).addMessage key = (ledger.addMessage key).withUsed used := by
  unfold addMessage
  by_cases present : (ledger.messages.get key).isSome
  · rw [if_pos present]
    exact if_pos present
  · rw [if_neg present]
    exact if_neg present

theorem addPart_withUsed (ledger : SemanticItemLedger) (used : Nat) (key groupKey : StreamKey) :
    (ledger.withUsed used).addPart key groupKey = (ledger.addPart key groupKey).withUsed used := by
  unfold addPart
  by_cases present : (ledger.messageParts.get key).isSome
  · rw [if_pos present]
    exact if_pos present
  · rw [if_neg present]
    exact if_neg present

theorem get_addMessage_self (ledger : SemanticItemLedger) (key : StreamKey) :
    (ledger.addMessage key).messages.get key =
      some ((ledger.messages.get key).getD ⟨[], false⟩) := by
  unfold addMessage
  cases found : ledger.messages.get key with
  | none => simp
  | some message => simp [found]

theorem ensures_message (key : StreamKey) :
    Ensures (ledger.message key) fun result =>
      Charged (ledger.addMessage key) result.1 ∧
        result.2 = (ledger.messages.get key).getD ⟨[], false⟩ := by
  rw [message, addMessage]
  cases found : ledger.messages.get key with
  | some message => exact ensures_ok ⟨.refl _, rfl⟩
  | none =>
    refine (ensures_reserve _).bind ?_
    rintro _ ⟨used, rfl⟩
    exact ensures_pure ⟨⟨used, rfl⟩, rfl⟩

theorem ensures_startMessage (key : StreamKey) :
    Ensures (ledger.startMessage key) (Charged (ledger.addMessage key)) := by
  rw [startMessage]
  exact (ensures_message key).bind fun result fact => ensures_pure fact.1

theorem ensures_messagePart {key groupKey : StreamKey}
    (present : (ledger.messages.get groupKey).isSome) :
    Ensures (ledger.messagePart key groupKey) fun result =>
      Charged (ledger.addPart key groupKey) result.1 ∧
        result.2 = ledger.partState key groupKey ∧ result.2.groupKey = groupKey := by
  obtain ⟨there, found⟩ := Option.isSome_iff_exists.mp present
  rw [messagePart, addPart, partState]
  cases foundPart : ledger.messageParts.get key with
  | some part =>
    refine ensures_require.bind fun _ same => ?_
    exact ensures_pure ⟨.refl _, rfl, same⟩
  | none =>
    refine (ensures_reserveIf _ _).bind ?_
    rintro _ ⟨used, rfl⟩
    simp only [message, withUsed, found, OrderedMap.modify]
    exact ensures_pure ⟨⟨used, rfl⟩, rfl, rfl⟩

/-- The ledger after a content part has been replaced by `part`, started first if
it was not there. -/
def replacePart (ledger : SemanticItemLedger) (key groupKey : StreamKey)
    (part : MessagePartState) : SemanticItemLedger :=
  ((ledger.addMessage groupKey).addPart key groupKey).setPart key part

theorem messageParts_addMessage (ledger : SemanticItemLedger) (key : StreamKey) :
    (ledger.addMessage key).messageParts = ledger.messageParts := by
  unfold addMessage
  split <;> rfl

/-- The message a part belongs to was not finished before the part was there. -/
def AcceptsPart (ledger : SemanticItemLedger) (key groupKey : StreamKey) : Prop :=
  ∀ message, ledger.messages.get groupKey = some message → message.frozen →
    (ledger.messageParts.get key).isSome

theorem see_groupKey (part : MessagePartState) (kind : ContentKind) :
    (part.see kind).groupKey = part.groupKey := by
  cases kind <;> rfl

theorem see_frozen (part : MessagePartState) (kind : ContentKind) :
    (part.see kind).frozen = part.frozen := by
  cases kind <;> rfl

theorem ensures_observeContent (kind : ContentKind) (key : StreamKey)
    (orderKey : Option StreamKey) :
    Ensures (ledger.observeContent kind key orderKey) fun result =>
      let part := ledger.partState key (orderKey.getD key)
      Charged (ledger.replacePart key (orderKey.getD key) (part.see kind)) result.1 ∧
        result.2 = (!part.seen kind) ∧ part.groupKey = orderKey.getD key ∧
        AcceptsPart ledger key (orderKey.getD key) := by
  rw [observeContent]
  generalize groupKey_eq : orderKey.getD key = groupKey
  refine (ensures_message _).bind ?_
  rintro ⟨first, message⟩ ⟨⟨used, rfl⟩, there⟩
  refine ensures_require.bind fun _ accepts => ?_
  have present : (((ledger.addMessage groupKey).withUsed used).messages.get groupKey).isSome := by
    have := get_addMessage_self ledger groupKey
    simp only [withUsed, this]
    rfl
  refine (ensures_messagePart present).bind ?_
  rintro ⟨second, part⟩ ⟨⟨used', rfl⟩, isPart, group⟩
  have same : ((ledger.addMessage groupKey).withUsed used).partState key groupKey =
      ledger.partState key groupKey := by
    rw [partState, partState]
    simp only [withUsed, messageParts_addMessage]
  obtain rfl : part = ledger.partState key groupKey := isPart.trans same
  rw [addPart_withUsed]
  refine ensures_pure ⟨⟨used', rfl⟩, rfl, group, ?_⟩
  intro message' there' frozen
  rw [there', Option.getD_some] at there
  subst there
  rw [not_and, not_not, OrderedMap.has] at accepts
  simp only [withUsed, messageParts_addMessage] at accepts
  exact accepts frozen

theorem get_replacePart_self (ledger : SemanticItemLedger) (key groupKey : StreamKey)
    (part : MessagePartState) :
    (ledger.replacePart key groupKey part).messageParts.get key = some part :=
  get_set_self _ _ _

theorem ensures_appendContent (kind : ContentKind) (key : StreamKey) (delta : JsString)
    (orderKey : Option StreamKey) :
    Ensures (ledger.appendContent kind key delta orderKey) fun result =>
      let part := ledger.partState key (orderKey.getD key)
      Charged (ledger.replacePart key (orderKey.getD key) ((part.see kind).append kind delta))
          result ∧
        part.groupKey = orderKey.getD key ∧ part.frozen = false ∧
        AcceptsPart ledger key (orderKey.getD key) := by
  rw [appendContent]
  refine (ensures_reserve delta).bind ?_
  rintro _ ⟨used, rfl⟩
  refine (ensures_observeContent kind key orderKey).bind ?_
  rintro ⟨second, first⟩ ⟨⟨used', rfl⟩, -, group, accepts⟩
  have same : ((ledger.withUsed used).partState key (orderKey.getD key)) =
      ledger.partState key (orderKey.getD key) := rfl
  rw [same] at group ⊢
  have found := get_replacePart_self (ledger.withUsed used) key (orderKey.getD key)
    ((ledger.partState key (orderKey.getD key)).see kind)
  have again : Ensures (messagePart
      (((ledger.withUsed used).replacePart key (orderKey.getD key)
        ((ledger.partState key (orderKey.getD key)).see kind)).withUsed used') key
      (orderKey.getD key)) fun result => result =
        (((ledger.withUsed used).replacePart key (orderKey.getD key)
          ((ledger.partState key (orderKey.getD key)).see kind)).withUsed used',
          (ledger.partState key (orderKey.getD key)).see kind) := by
    rw [messagePart]
    simp only [withUsed] at found ⊢
    rw [found]
    exact ensures_require.bind fun _ _ => ensures_pure rfl
  refine again.bind ?_
  rintro _ rfl
  refine ensures_require.bind fun _ open_ => ?_
  refine ensures_pure ⟨⟨used', ?_⟩, group, ?_, accepts⟩
  · simp only [replacePart, addMessage_withUsed, addPart_withUsed]
    simp only [setPart, withUsed, set_set]
  · rw [see_frozen] at open_
    simpa using open_

theorem ensures_finishContent (key : StreamKey) :
    Ensures (ledger.finishContent key) fun result =>
      ∃ part, ledger.messageParts.get key = some part ∧
        result = ledger.setPart key { part with frozen := true } := by
  rw [finishContent]
  exact ensures_required.bind fun part found => ensures_pure ⟨part, found, rfl⟩

def freezeParts (parts : OrderedMap StreamKey MessagePartState) (keys : List StreamKey) :
    OrderedMap StreamKey MessagePartState :=
  keys.foldl (fun parts key => parts.modify key fun part => { part with frozen := true }) parts

theorem ensures_finishMessage (key : StreamKey) :
    Ensures (ledger.finishMessage key) fun result =>
      let message := (ledger.messages.get key).getD ⟨[], false⟩
      Charged { ledger.addMessage key with
        messages := (ledger.addMessage key).messages.set key { message with frozen := true }
        messageParts := freezeParts ledger.messageParts message.partKeys } result := by
  rw [finishMessage]
  refine (ensures_message key).bind ?_
  rintro ⟨next, message⟩ ⟨⟨used, rfl⟩, rfl⟩
  refine ensures_pure ⟨used, ?_⟩
  simp only [withUsed, freezeParts, messageParts_addMessage]

/-! ## Reasoning -/

/-- The reasoning state of a key after `reasoningState`. -/
def resumed (old : Option ReasoningState) (itemId : Option JsString)
    (messagesState : Option MessagesReasoningState) (opaqueState : Option OpaqueReasoningState) :
    ReasoningState :=
  match old with
  | none => ⟨itemId, [], none, false, messagesState, opaqueState⟩
  | some state => { state with
    messagesState := messagesState.or state.messagesState
    opaqueState := opaqueState.or state.opaqueState }

/-- The ledger with the state of a reasoning item, started if it was not there. -/
def withReasoning (ledger : SemanticItemLedger) (key : StreamKey) (state : ReasoningState) :
    SemanticItemLedger :=
  { ledger with
    reasoning := ledger.reasoning.set key state
    order := if (ledger.reasoning.get key).isSome then ledger.order
      else ledger.order ++ [.reasoning key] }

theorem ensures_addReasoning (key : StreamKey) (itemId : Option JsString)
    (messagesState : Option MessagesReasoningState) (opaqueState : Option OpaqueReasoningState) :
    Ensures (ledger.addReasoning key itemId messagesState opaqueState) fun result =>
      Charged { ledger with
        reasoning := ledger.reasoning.set key ⟨itemId, [], none, false, messagesState, opaqueState⟩
        order := ledger.order ++ [.reasoning key] } result.1 ∧
      result.2 = ⟨itemId, [], none, false, messagesState, opaqueState⟩ := by
  rw [addReasoning]
  refine (ensures_reserve _).bind ?_
  rintro _ ⟨_, rfl⟩
  refine (ensures_reserveOptional _).bind ?_
  rintro _ ⟨_, rfl⟩
  refine (ensures_reserveMessagesState _).bind ?_
  rintro _ ⟨_, rfl⟩
  refine (ensures_reserveOptionalOpaqueState _).bind ?_
  rintro _ ⟨used, rfl⟩
  exact ensures_pure ⟨⟨used, rfl⟩, rfl⟩

theorem ensures_resumeReasoning (key : StreamKey) {state : ReasoningState}
    (found : ledger.reasoning.get key = some state) (itemId : Option JsString)
    (messagesState : Option MessagesReasoningState) :
    Ensures (ledger.resumeReasoning key state itemId messagesState) fun result =>
      Charged { ledger with
        reasoning := ledger.reasoning.set key
          { state with messagesState := messagesState.or state.messagesState } } result.1 ∧
      result.2 = { state with messagesState := messagesState.or state.messagesState } ∧
      state.itemId = itemId := by
  unfold resumeReasoning
  refine ensures_require.bind fun _ same => ?_
  cases messagesState with
  | none =>
    refine ensures_pure ⟨⟨ledger.usedBytes, ?_⟩, rfl, same⟩
    rw [Option.none_or, set_of_get found]
    rfl
  | some incoming =>
    refine ensures_bind fun _ _ => (ensures_reserveMessagesState _).bind ?_
    rintro _ ⟨used, rfl⟩
    exact ensures_pure ⟨⟨used, rfl⟩, rfl, same⟩

theorem ensures_reasoningState (key : StreamKey) (itemId : Option JsString)
    (messagesState : Option MessagesReasoningState) (opaqueState : Option OpaqueReasoningState) :
    Ensures (ledger.reasoningState key itemId messagesState opaqueState) fun result =>
      let state := resumed (ledger.reasoning.get key) itemId messagesState opaqueState
      Charged (ledger.withReasoning key state) result.1 ∧ result.2 = state ∧
        ∀ old, ledger.reasoning.get key = some old → old.itemId = itemId := by
  rw [reasoningState]
  cases found : ledger.reasoning.get key with
  | none =>
    refine (ensures_addReasoning key itemId messagesState opaqueState).bind ?_
    rintro ⟨next, state⟩ ⟨⟨used, rfl⟩, rfl⟩
    have absent : ∀ old : ReasoningState, none = some old → old.itemId = itemId := by
      intro old impossible
      cases impossible
    cases opaqueState with
    | none =>
      refine ensures_pure ⟨⟨used, ?_⟩, rfl, absent⟩
      simp only [withReasoning, found, resumed]
      rfl
    | some incoming =>
      refine (ensures_bindOpaqueState _ incoming).bind ?_
      rintro _ ⟨used', rfl⟩
      refine ensures_pure ⟨⟨used', ?_⟩, rfl, absent⟩
      simp only [withReasoning, found, resumed, withUsed, set_set]
      rfl
  | some old =>
    refine (ensures_resumeReasoning key found itemId messagesState).bind ?_
    rintro ⟨next, state⟩ ⟨⟨used, rfl⟩, rfl, same⟩
    have agree : ∀ other, some old = some other → other.itemId = itemId := by
      intro other eq
      cases eq
      exact same
    cases opaqueState with
    | none =>
      refine ensures_pure ⟨⟨used, ?_⟩, ?_, agree⟩
      · simp only [withReasoning, found, resumed, Option.none_or]
        rfl
      · simp only [resumed, Option.none_or]
    | some incoming =>
      refine (ensures_bindOpaqueState _ incoming).bind ?_
      rintro _ ⟨used', rfl⟩
      refine ensures_pure ⟨⟨used', ?_⟩, rfl, agree⟩
      simp only [withReasoning, found, resumed, withUsed, set_set, Option.some_or]
      rfl

theorem ensures_startReasoning (key : StreamKey) (itemId : Option JsString)
    (messagesState : Option MessagesReasoningState) (opaqueState : Option OpaqueReasoningState) :
    Ensures (ledger.startReasoning key itemId messagesState opaqueState) fun result =>
      Charged (ledger.withReasoning key
        (resumed (ledger.reasoning.get key) itemId messagesState opaqueState)) result ∧
      ∀ old, ledger.reasoning.get key = some old → old.itemId = itemId := by
  rw [startReasoning]
  refine (ensures_reasoningState _ _ _ _).bind ?_
  rintro ⟨next, state⟩ ⟨charged, -, same⟩
  exact ensures_pure ⟨charged, same⟩

/-- The reasoning part of an address, or the one `reasoningPart` starts. -/
def reasoningPartState (ledger : SemanticItemLedger) (address : ReasoningPartAddress) :
    ReasoningPartState :=
  (ledger.reasoningParts.get address.partKey).getD
    ⟨address.key, address.presentation, address.partIndex, [], false⟩

def resumedWithPart (ledger : SemanticItemLedger) (address : ReasoningPartAddress) :
    ReasoningState :=
  let state := resumed (ledger.reasoning.get address.key) address.itemId none none
  if (ledger.reasoningParts.get address.partKey).isSome then state
  else { state with partKeys := state.partKeys ++ [address.partKey] }

def AgreesWith (part : ReasoningPartState) (address : ReasoningPartAddress) : Prop :=
  part.itemKey = address.key ∧ part.presentation = address.presentation ∧
    part.index = address.partIndex

theorem ensures_appendReasoning (address : ReasoningPartAddress) (delta : JsString) :
    Ensures (ledger.appendReasoning address delta) fun result =>
      let part := ledger.reasoningPartState address
      Charged { ledger.withReasoning address.key (ledger.resumedWithPart address) with
        reasoningParts := ledger.reasoningParts.set address.partKey
          { part with text := part.text ++ delta } } result ∧
      AgreesWith part address ∧ part.frozen = false ∧
      (ledger.resumedWithPart address).frozen = false ∧
      ∀ old, ledger.reasoning.get address.key = some old → old.itemId = address.itemId := by
  rw [appendReasoning]
  refine (ensures_reserve delta).bind ?_
  rintro _ ⟨used, rfl⟩
  rw [reasoningPart]
  refine ensures_bind ?_
  rintro ⟨third, part⟩ returned
  obtain ⟨⟨second, state⟩, opened, returned⟩ := bind_eq_ok.mp returned
  obtain ⟨⟨used', rfl⟩, rfl, same⟩ := ensures_reasoningState _ _ _ _ _ opened
  obtain ⟨_, notFrozen, returned⟩ := bind_eq_ok.mp returned
  have notFrozen := ensures_require _ notFrozen
  simp only [withUsed, withReasoning] at notFrozen returned
  refine ensures_require.bind fun _ open_ => ?_
  simp only [resumedWithPart, reasoningPartState]
  cases found : ledger.reasoningParts.get address.partKey with
  | none =>
    rw [found] at returned
    obtain ⟨_, charged, returned⟩ := bind_eq_ok.mp returned
    obtain ⟨used'', rfl⟩ := ensures_reserveIf _ _ _ charged
    simp only [pure, Except.pure, Except.ok.injEq, Prod.mk.injEq] at returned
    obtain ⟨rfl, rfl⟩ := returned
    refine ensures_pure ⟨⟨used'', ?_⟩, ⟨rfl, rfl, rfl⟩, rfl, by simpa using notFrozen, same⟩
    simp only [withUsed, withReasoning, set_set]
    rfl
  | some part' =>
    rw [found] at returned
    obtain ⟨_, agrees, returned⟩ := bind_eq_ok.mp returned
    simp only [pure, Except.pure, Except.ok.injEq, Prod.mk.injEq] at returned
    obtain ⟨rfl, rfl⟩ := returned
    have agrees := ensures_require _ agrees
    refine ensures_pure ⟨⟨used', ?_⟩, agrees, by simpa using open_,
      by simpa using notFrozen, same⟩
    simp only [withUsed, withReasoning]
    rfl

/-- A reasoning state frozen with a status, unless it already was. -/
def frozenWith (status : ItemStatus) (state : ReasoningState) : ReasoningState :=
  if state.frozen then state else { state with frozen := true, status := some status }

def semanticPart (ledger : SemanticItemLedger) (partKey : StreamKey) :
    Option (SemanticReasoningPart StreamKey) :=
  (ledger.reasoningParts.get partKey).map fun part =>
    ⟨partKey, part.presentation, part.index, part.text⟩

/-- The item `reasoningItem` returns. -/
def semanticReasoning (ledger : SemanticItemLedger) (key : StreamKey) (state : ReasoningState) :
    SemanticReasoningItem StreamKey where
  key := key
  itemId := state.itemId
  parts := (state.partKeys.filterMap ledger.semanticPart).insertionSort
    fun left right => reasoningPartLe left right
  status := state.status
  hasOpaqueState := state.opaqueState.isSome
  messagesState := state.messagesState
  opaqueState := state.opaqueState

theorem ensures_reasoningItem (key : StreamKey) (state : ReasoningState) :
    Ensures (ledger.reasoningItem key state) fun item =>
      item = ledger.semanticReasoning key state := by
  rw [reasoningItem]
  refine ensures_bind fun parts mapped => ensures_pure ?_
  have same : parts = state.partKeys.filterMap ledger.semanticPart := by
    have each := mapM_eq_ok.mp mapped
    clear mapped
    generalize state.partKeys = keys at each
    induction each with
    | nil => rfl
    | cons first _ ih =>
      obtain ⟨part, found, returned⟩ := bind_eq_ok.mp first
      cases returned
      rw [List.filterMap_cons, semanticPart, ensures_required _ found, ih]
      rfl
  rw [same, semanticReasoning]

theorem ensures_finishReasoning (key : StreamKey) (status : ItemStatus) :
    Ensures (ledger.finishReasoning key status) fun result =>
      ∃ state, ledger.reasoning.get key = some state ∧
        (state.frozen = true → state.status = some status) ∧
        result.1 = (if state.frozen then ledger else ledger.freezeReasoning key state status) ∧
        result.2 = result.1.semanticReasoning key (frozenWith status state) := by
  rw [finishReasoning]
  refine ensures_required.bind fun state found => ?_
  refine ensures_ite (fun frozen => ?_) fun open_ => ?_
  · refine ensures_require.bind fun _ same => ?_
    refine (ensures_reasoningItem key state).bind fun item built => ensures_pure ?_
    refine ⟨state, found, fun _ => same, ?_, ?_⟩
    · rw [if_pos frozen]
    · rw [frozenWith, if_pos frozen]
      exact built
  · refine (ensures_reasoningItem _ _).bind fun item built => ensures_pure ?_
    refine ⟨state, found, fun frozen => absurd frozen open_, ?_, ?_⟩
    · rw [if_neg open_]
    · rw [frozenWith, if_neg open_]
      exact built

/-! ## Tools -/

theorem ensures_startTool (key : StreamKey) (itemId : Option JsString) (callId name : JsString) :
    Ensures (ledger.startTool key itemId callId name) fun result =>
      Charged { ledger with
        callIds := ledger.callIds ++ [callId]
        tools := ledger.tools.set key ⟨itemId, callId, name, [], false⟩
        order := ledger.order ++ [.tool key] } result ∧
      ledger.tools.get key = none ∧ callId ∉ ledger.callIds ∧ callId ≠ [] ∧ name ≠ [] := by
  rw [startTool]
  refine ensures_require.bind fun _ fresh => ?_
  simp only [not_or, OrderedMap.has, Bool.not_eq_true, Option.isSome_eq_false_iff,
    Option.isNone_iff_eq_none] at fresh
  refine (ensures_reserve _).bind ?_
  rintro _ ⟨_, rfl⟩
  refine (ensures_reserveOptional _).bind ?_
  rintro _ ⟨_, rfl⟩
  refine (ensures_reserve _).bind ?_
  rintro _ ⟨_, rfl⟩
  refine (ensures_reserve _).bind ?_
  rintro _ ⟨used, rfl⟩
  exact ensures_pure ⟨⟨used, rfl⟩, fresh⟩

theorem ensures_tool (key : StreamKey) :
    Ensures (ledger.tool key) fun tool => ledger.tools.get key = some tool :=
  ensures_required

theorem ensures_appendToolArguments (key : StreamKey) (delta : JsString) :
    Ensures (ledger.appendToolArguments key delta) fun result =>
      ∃ tool, ledger.tools.get key = some tool ∧ tool.done = false ∧
        Charged { ledger with
          tools := ledger.tools.set key
            { tool with argumentsJson := tool.argumentsJson ++ delta } } result := by
  rw [appendToolArguments]
  refine (ensures_tool key).bind fun tool found => ?_
  refine ensures_require.bind fun _ open_ => ?_
  refine (ensures_reserve delta).bind ?_
  rintro _ ⟨used, rfl⟩
  exact ensures_pure ⟨tool, found, by simpa using open_, used, rfl⟩

theorem ensures_applySnapshot (tool : ToolState) (snapshot : Option JsString) :
    Ensures (ledger.applySnapshot tool snapshot) fun result =>
      Charged ledger result.1 ∧ result.2.1 = tool.argumentsJson ++ result.2.2 ∧
        result.2.1 = snapshot.getD tool.argumentsJson := by
  cases snapshot with
  | none => exact ensures_ok ⟨.refl _, (List.append_nil _).symm, rfl⟩
  | some snapshot =>
    rw [applySnapshot]
    refine ensures_require.bind fun _ grows => ?_
    refine (ensures_reserve _).bind ?_
    rintro _ ⟨used, rfl⟩
    obtain ⟨suffix, rfl⟩ := grows
    refine ensures_pure ⟨⟨used, rfl⟩, ?_, rfl⟩
    simp

theorem ensures_finishTool (key : StreamKey) (snapshot : Option JsString)
    (completed validateCompleted : Bool) :
    Ensures (ledger.finishTool key snapshot completed validateCompleted) fun result =>
      ∃ tool, ledger.tools.get key = some tool ∧
        (tool.done = true → result.2 = []) ∧
        snapshot.getD tool.argumentsJson = tool.argumentsJson ++ result.2 ∧
        Charged { ledger with
          tools := ledger.tools.set key
            { tool with argumentsJson := tool.argumentsJson ++ result.2, done := true } }
          result.1 := by
  rw [finishTool]
  refine (ensures_tool key).bind fun tool found => ?_
  refine ensures_ite (fun done => ?_) fun open_ => ?_
  · refine ensures_require.bind fun _ same => ensures_bind fun _ _ => ensures_pure ?_
    refine ⟨tool, found, fun _ => rfl, ?_, ledger.usedBytes, ?_⟩
    · rw [List.append_nil]
      rcases same with rfl | rfl <;> rfl
    · obtain ⟨itemId, callId, name, argumentsJson, isDone⟩ := tool
      simp only at done
      subst done
      simp only [List.append_nil, set_of_get found]
      rfl
  · refine (ensures_applySnapshot tool snapshot).bind ?_
    rintro ⟨_, argumentsJson, suffix⟩ ⟨⟨used, rfl⟩, whole, same⟩
    refine ensures_bind fun _ _ => ensures_pure ?_
    refine ⟨tool, found, fun done => absurd done open_, same.symm.trans whole, used, ?_⟩
    simp only at whole
    subst whole
    rfl

/-- Finishing the open tools leaves their arguments as they are. -/
theorem ensures_finishOpenTools (validateCompleted : JsString → Fallible Bool) :
    Ensures (ledger.finishOpenTools validateCompleted) fun result =>
      ∃ tools : OrderedMap StreamKey ToolState, result = { ledger with tools := tools } ∧
        tools.keys = ledger.tools.keys ∧
        ∀ key, tools.get key = (ledger.tools.get key).map fun tool =>
          { tool with done := true } := by
  rw [finishOpenTools]
  -- the tools visited so far are done, the others are as they were
  refine (ensures_foldlM_visited (fun visited result =>
      ∃ tools : OrderedMap StreamKey ToolState, result = { ledger with tools := tools } ∧
        tools.keys = ledger.tools.keys ∧
        ∀ key, tools.get key = if key ∈ visited then
          (ledger.tools.get key).map fun tool => { tool with done := true }
          else ledger.tools.get key) ?_ ?_).mono ?_
  · rintro visited _ key rest whole ⟨tools, rfl, keys, gets⟩
    refine (ensures_tool key).bind fun tool found => ?_
    refine ensures_bind fun _ _ => ensures_bind fun _ _ => ensures_pure ?_
    refine ⟨_, rfl, ?_, fun other => ?_⟩
    · rw [keys_set_of_get found, keys]
    · have fresh : key ∉ visited := by
        have nodup := ledger.tools.nodup
        have : ledger.tools.keys.Nodup := nodup
        rw [whole, List.nodup_append] at this
        exact fun member => this.2.2 key member key List.mem_cons_self rfl
      rw [get_set, gets]
      simp only [gets, if_neg fresh] at found
      by_cases same : key = other
      · subst same
        simp [found]
      · have apart : other ≠ key := fun eq => same eq.symm
        simp [same, apart]
  · exact ⟨ledger.tools, rfl, rfl, fun key => by simp⟩
  · rintro result ⟨tools, rfl, keys, gets⟩
    refine ⟨tools, rfl, keys, fun key => ?_⟩
    rw [gets]
    by_cases member : key ∈ ledger.tools.keys
    · rw [if_pos member]
    · rw [if_neg member, get_eq_none.mpr member]
      rfl

end SemanticItemLedger

end GhcGateway.Conversion
