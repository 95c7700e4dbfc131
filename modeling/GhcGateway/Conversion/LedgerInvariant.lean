/-
# The shape of a ledger

The ledger keeps its items in five maps and one order, which refer to one another
by key. `Skeleton` is that net of references, without the texts, and `WellFormed`
says that it is in order: every item is listed once, and the parts of an item are
the ones that name it. Most operations leave the skeleton alone.
-/

import GhcGateway.Conversion.LedgerFacts
import Mathlib.Logic.Function.Basic

namespace GhcGateway.Conversion

open Library ReasoningState OrderedMap

variable {key partKey : StreamKey} {entry : LedgerEntry}

def LedgerEntry.messageKey : LedgerEntry → Option StreamKey
  | .message key => some key
  | _ => none

structure Skeleton where
  order : List LedgerEntry
  messageKeys : List StreamKey
  messages : StreamKey → Option (List StreamKey)
  parts : StreamKey → Option StreamKey
  reasoning : StreamKey → Option (List StreamKey)
  reasoningParts : StreamKey → Option StreamKey
  tools : StreamKey → Bool

/-- The parts of an item are the ones that name it. -/
def Owned (listed : StreamKey → Option (List StreamKey)) (owner : StreamKey → Option StreamKey) :
    Prop :=
  ∀ key partKey, owner partKey = some key ↔ ∃ keys, listed key = some keys ∧ partKey ∈ keys

structure Skeleton.Consistent (skeleton : Skeleton) : Prop where
  order_nodup : skeleton.order.Nodup
  order_message : ∀ key, .message key ∈ skeleton.order ↔ (skeleton.messages key).isSome
  order_reasoning : ∀ key, .reasoning key ∈ skeleton.order ↔ (skeleton.reasoning key).isSome
  order_tool : ∀ key, .tool key ∈ skeleton.order ↔ skeleton.tools key = true
  part_iff : Owned skeleton.messages skeleton.parts
  reasoningPart_iff : Owned skeleton.reasoning skeleton.reasoningParts
  order_keys : skeleton.order.filterMap LedgerEntry.messageKey = skeleton.messageKeys

section Owners

variable {listed : StreamKey → Option (List StreamKey)} {owner : StreamKey → Option StreamKey}
  {keys : List StreamKey}

/-- A new item has no parts. -/
theorem Owned.start (owned : Owned listed owner) (absent : listed key = none) :
    Owned (Function.update listed key (some [])) owner := by
  intro other partKey
  rw [owned]
  by_cases same : other = key
  · subst same
    simp [absent]
  · rw [Function.update_of_ne same]

/-- A new part of an item. -/
theorem Owned.add (owned : Owned listed owner) (there : listed key = some keys)
    (fresh : owner partKey = none) :
    Owned (Function.update listed key (some (keys ++ [partKey])))
      (Function.update owner partKey (some key)) := by
  intro other otherPart
  have was := owned other otherPart
  by_cases samePart : otherPart = partKey
  · subst samePart
    rw [Function.update_self]
    by_cases same : other = key
    · subst same
      simp
    · have apart : key ≠ other := fun eq => same eq.symm
      rw [fresh] at was
      rw [Function.update_of_ne same, ← was]
      simp [apart]
  · rw [Function.update_of_ne samePart, was]
    by_cases same : other = key
    · subst same
      simp [there, samePart]
    · rw [Function.update_of_ne same]

theorem isSome_update (there : listed key = some keys) (more : List StreamKey)
    (other : StreamKey) :
    (Function.update listed key (some more) other).isSome = (listed other).isSome := by
  by_cases same : other = key
  · subst same
    simp [there]
  · rw [Function.update_of_ne same]

end Owners

namespace Skeleton

variable {skeleton : Skeleton} {keys : List StreamKey}

/-- A new item at the end of the order. -/
def append (skeleton : Skeleton) (entry : LedgerEntry) : Skeleton :=
  { skeleton with
    order := skeleton.order ++ [entry]
    messageKeys := match entry with
      | .message key => skeleton.messageKeys ++ [key]
      | _ => skeleton.messageKeys
    messages := match entry with
      | .message key => Function.update skeleton.messages key (some [])
      | _ => skeleton.messages
    reasoning := match entry with
      | .reasoning key => Function.update skeleton.reasoning key (some [])
      | _ => skeleton.reasoning
    tools := match entry with
      | .tool key => Function.update skeleton.tools key true
      | _ => skeleton.tools }

/-- A new content part of a message. -/
def appendPart (skeleton : Skeleton) (key partKey : StreamKey) (keys : List StreamKey) :
    Skeleton :=
  { skeleton with
    messages := Function.update skeleton.messages key (some (keys ++ [partKey]))
    parts := Function.update skeleton.parts partKey (some key) }

def appendReasoningPart (skeleton : Skeleton) (key partKey : StreamKey)
    (keys : List StreamKey) : Skeleton :=
  { skeleton with
    reasoning := Function.update skeleton.reasoning key (some (keys ++ [partKey]))
    reasoningParts := Function.update skeleton.reasoningParts partKey (some key) }

theorem Consistent.append (consistent : skeleton.Consistent) (fresh : entry ∉ skeleton.order) :
    (skeleton.append entry).Consistent := by
  obtain ⟨nodup, message, reasoning, tool, part, reasoningPart, keys⟩ := consistent
  have nodup' : (skeleton.order ++ [entry]).Nodup := by
    refine List.nodup_append.mpr ⟨nodup, List.nodup_singleton entry, ?_⟩
    intro one member other single eq
    rw [List.mem_singleton] at single
    exact fresh (single ▸ eq ▸ member)
  have keys' : (skeleton.order ++ [entry]).filterMap LedgerEntry.messageKey =
      (skeleton.append entry).messageKeys := by
    rw [List.filterMap_append, keys]
    cases entry <;> first | rfl | exact List.append_nil _
  cases entry with
  | message key =>
    refine ⟨nodup', fun other => ?_, fun other => ?_, fun other => ?_, part.start ?_,
      reasoningPart, keys'⟩
    · show _ ∈ skeleton.order ++ [_] ↔
          (Function.update skeleton.messages key (some []) other).isSome
      rw [List.mem_append, message, List.mem_singleton, LedgerEntry.message.injEq]
      by_cases same : other = key
      · subst same
        simp
      · rw [Function.update_of_ne same]
        simp [same]
    · show _ ∈ skeleton.order ++ [_] ↔ _
      simp [reasoning, Skeleton.append]
    · show _ ∈ skeleton.order ++ [_] ↔ _
      simp [tool, Skeleton.append]
    · rw [message] at fresh
      simpa using fresh
  | reasoning key =>
    refine ⟨nodup', fun other => ?_, fun other => ?_, fun other => ?_, part,
      reasoningPart.start ?_, keys'⟩
    · show _ ∈ skeleton.order ++ [_] ↔ _
      simp [message, Skeleton.append]
    · show _ ∈ skeleton.order ++ [_] ↔
        (Function.update skeleton.reasoning key (some []) other).isSome
      rw [List.mem_append, reasoning, List.mem_singleton, LedgerEntry.reasoning.injEq]
      by_cases same : other = key
      · subst same
        simp
      · rw [Function.update_of_ne same]
        simp [same]
    · show _ ∈ skeleton.order ++ [_] ↔ _
      simp [tool, Skeleton.append]
    · rw [reasoning] at fresh
      simpa using fresh
  | tool key =>
    refine ⟨nodup', fun other => ?_, fun other => ?_, fun other => ?_, part, reasoningPart, keys'⟩
    · show _ ∈ skeleton.order ++ [_] ↔ _
      simp [message, Skeleton.append]
    · show _ ∈ skeleton.order ++ [_] ↔ _
      simp [reasoning, Skeleton.append]
    · show _ ∈ skeleton.order ++ [_] ↔ Function.update skeleton.tools key true other = true
      rw [List.mem_append, tool, List.mem_singleton, LedgerEntry.tool.injEq]
      by_cases same : other = key
      · subst same
        simp
      · rw [Function.update_of_ne same]
        simp [same]

theorem Consistent.appendPart (consistent : skeleton.Consistent)
    (there : skeleton.messages key = some keys) (fresh : skeleton.parts partKey = none) :
    (skeleton.appendPart key partKey keys).Consistent := by
  obtain ⟨nodup, message, reasoning, tool, part, reasoningPart, keys⟩ := consistent
  refine ⟨nodup, fun other => ?_, reasoning, tool, part.add there fresh, reasoningPart,
    keys⟩
  exact (message other).trans (by rw [← isSome_update there]; rfl)

theorem Consistent.appendReasoningPart (consistent : skeleton.Consistent)
    (there : skeleton.reasoning key = some keys) (fresh : skeleton.reasoningParts partKey = none) :
    (skeleton.appendReasoningPart key partKey keys).Consistent := by
  obtain ⟨nodup, message, reasoning, tool, part, reasoningPart, keys⟩ := consistent
  refine ⟨nodup, message, fun other => ?_, tool, part, reasoningPart.add there fresh,
    keys⟩
  exact (reasoning other).trans (by rw [← isSome_update there]; rfl)

end Skeleton

namespace SemanticItemLedger

variable {ledger next : SemanticItemLedger}
  {result : SemanticItemLedger × List (SemanticReasoningItem StreamKey)}
  {item : SemanticReasoningItem StreamKey} {state : ReasoningState} {visited : List LedgerEntry}
  {part : ReasoningPartState} {status : ResponseStatus} {groupKey : StreamKey} {α : Type}

def skeleton (ledger : SemanticItemLedger) : Skeleton where
  order := ledger.order
  messageKeys := ledger.messages.keys
  messages key := (ledger.messages.get key).map MessageState.partKeys
  parts key := (ledger.messageParts.get key).map MessagePartState.groupKey
  reasoning key := (ledger.reasoning.get key).map partKeys
  reasoningParts key := (ledger.reasoningParts.get key).map ReasoningPartState.itemKey
  tools key := (ledger.tools.get key).isSome

/-- The references of the ledger are in order. -/
def WellFormed (ledger : SemanticItemLedger) : Prop := ledger.skeleton.Consistent

theorem wellFormed_new (maxBytes : Nat) : (new maxBytes).WellFormed where
  order_nodup := List.nodup_nil
  order_message key := by simp [skeleton, new]
  order_reasoning key := by simp [skeleton, new]
  order_tool key := by simp [skeleton, new]
  part_iff key partKey := by simp [skeleton, new]
  reasoningPart_iff key partKey := by simp [skeleton, new]
  order_keys := rfl

theorem WellFormed.charged (wellFormed : ledger.WellFormed) (charged : Charged ledger next) :
    next.WellFormed := by
  obtain ⟨used, rfl⟩ := charged
  exact wellFormed

/-! ## Messages -/

theorem WellFormed.addMessage (wellFormed : ledger.WellFormed) (key : StreamKey) :
    (ledger.addMessage key).WellFormed := by
  rw [SemanticItemLedger.addMessage]
  split
  · exact wellFormed
  · next absent =>
    have absent : ledger.messages.get key = none := by simpa using absent
    have fresh : LedgerEntry.message key ∉ ledger.skeleton.order := by
      rw [wellFormed.order_message]
      simp [skeleton, absent]
    have same : ({ ledger with
        messages := ledger.messages.set key ⟨[], false⟩
        order := ledger.order ++ [.message key] } : SemanticItemLedger).skeleton =
        ledger.skeleton.append (.message key) := by
      simp only [skeleton, map_get_set, keys_set_of_absent absent]
      rfl
    rw [WellFormed, same]
    exact Skeleton.Consistent.append wellFormed fresh

theorem WellFormed.addPart (wellFormed : ledger.WellFormed) (key groupKey : StreamKey)
    (present : (ledger.messages.get groupKey).isSome) :
      (ledger.addPart key groupKey).WellFormed := by
  rw [SemanticItemLedger.addPart]
  split
  · exact wellFormed
  · next absent =>
    have absent : ledger.messageParts.get key = none := by simpa using absent
    obtain ⟨message, found⟩ := Option.isSome_iff_exists.mp present
    have there : ledger.skeleton.messages groupKey = some message.partKeys := by
      show (ledger.messages.get groupKey).map _ = _
      rw [found]
      rfl
    have fresh : ledger.skeleton.parts key = none := by
      show (ledger.messageParts.get key).map _ = _
      rw [absent]
      rfl
    have same : ({ ledger with
        messageParts := ledger.messageParts.set key ⟨groupKey, [], [], false, false, false⟩
        messages := ledger.messages.modify groupKey fun message =>
          { message with partKeys := message.partKeys ++ [key] } } :
        SemanticItemLedger).skeleton =
        ledger.skeleton.appendPart groupKey key message.partKeys := by
      simp only [skeleton, OrderedMap.modify, found, map_get_set,
        keys_set_of_get found]
      rfl
    rw [WellFormed, same]
    exact Skeleton.Consistent.appendPart wellFormed there fresh

/-- A part replaced by one of the same message. -/
theorem WellFormed.setPart (wellFormed : ledger.WellFormed) {key : StreamKey}
    {old part : MessagePartState} (found : ledger.messageParts.get key = some old)
    (group : part.groupKey = old.groupKey) : (ledger.setPart key part).WellFormed := by
  have same : (ledger.setPart key part).skeleton = ledger.skeleton := by
    simp only [skeleton, SemanticItemLedger.setPart]
    rw [map_get_set_same found group]
  rw [WellFormed, same]
  exact wellFormed

theorem get_addPart_self (ledger : SemanticItemLedger) (key groupKey : StreamKey) :
    (ledger.addPart key groupKey).messageParts.get key = some (ledger.partState key groupKey) := by
  rw [SemanticItemLedger.addPart, partState]
  cases found : ledger.messageParts.get key with
  | none => simp
  | some part => simp [found]

theorem partState_addMessage (ledger : SemanticItemLedger) (key groupKey other : StreamKey) :
    (ledger.addMessage other).partState key groupKey = ledger.partState key groupKey := by
  rw [partState, partState, messageParts_addMessage]

theorem WellFormed.replacePart (wellFormed : ledger.WellFormed) {part : MessagePartState}
    (group : part.groupKey = groupKey) (was : (ledger.partState key groupKey).groupKey = groupKey) :
    (ledger.replacePart key groupKey part).WellFormed := by
  have present : ((ledger.addMessage groupKey).messages.get groupKey).isSome := by
    rw [get_addMessage_self]
    rfl
  have added := (wellFormed.addMessage groupKey).addPart key groupKey present
  have found := get_addPart_self (ledger.addMessage groupKey) key groupKey
  rw [partState_addMessage] at found
  exact added.setPart found (group.trans was.symm)

theorem see_seen (part : MessagePartState) (kind other : ContentKind) :
    (part.see kind).seen other = true ↔ other = kind ∨ part.seen other = true := by
  cases kind <;> cases other <;>
    simp [MessagePartState.see, MessagePartState.seen]

theorem append_seen (part : MessagePartState) (kind : ContentKind) (delta : JsString) :
    (part.append kind delta).seen = part.seen := by
  funext other
  cases kind <;> cases other <;> rfl

theorem append_groupKey (part : MessagePartState) (kind : ContentKind) (delta : JsString) :
    (part.append kind delta).groupKey = part.groupKey := by
  cases kind <;> rfl

/-- What an operation on messages does to the rest of the ledger: nothing. -/
structure MessageStep (ledger next : SemanticItemLedger) : Prop where
  wellFormed : next.WellFormed
  tools : next.tools = ledger.tools
  reasoning : next.reasoning = ledger.reasoning
  reasoningParts : next.reasoningParts = ledger.reasoningParts

theorem frame_addMessage (ledger : SemanticItemLedger) (key : StreamKey) :
    (ledger.addMessage key).tools = ledger.tools ∧
      (ledger.addMessage key).reasoning = ledger.reasoning ∧
      (ledger.addMessage key).reasoningParts = ledger.reasoningParts := by
  rw [addMessage]
  split <;> exact ⟨rfl, rfl, rfl⟩

theorem frame_replacePart (ledger : SemanticItemLedger) (key groupKey : StreamKey)
    (part : MessagePartState) :
    (ledger.replacePart key groupKey part).tools = ledger.tools ∧
      (ledger.replacePart key groupKey part).reasoning = ledger.reasoning ∧
      (ledger.replacePart key groupKey part).reasoningParts = ledger.reasoningParts := by
  rw [replacePart, setPart, addPart]
  split <;> exact frame_addMessage ledger groupKey

theorem messageStep_replacePart (wellFormed : ledger.WellFormed) {part : MessagePartState}
    (group : part.groupKey = groupKey) (was : (ledger.partState key groupKey).groupKey = groupKey)
    (charged : Charged (ledger.replacePart key groupKey part) next) : MessageStep ledger next := by
  obtain ⟨tools, reasoning, reasoningParts⟩ := frame_replacePart ledger key groupKey part
  refine ⟨(wellFormed.replacePart group was).charged charged, ?_, ?_, ?_⟩ <;>
    obtain ⟨used, rfl⟩ := charged
  · exact tools
  · exact reasoning
  · exact reasoningParts

theorem messageStep_startMessage (wellFormed : ledger.WellFormed) (key : StreamKey) :
    Ensures (ledger.startMessage key) (MessageStep ledger) := by
  refine (ensures_startMessage key).mono ?_
  rintro next ⟨used, rfl⟩
  obtain ⟨tools, reasoning, reasoningParts⟩ := frame_addMessage ledger key
  exact ⟨wellFormed.addMessage key, tools, reasoning, reasoningParts⟩

theorem get_freezeParts (parts : OrderedMap StreamKey MessagePartState) (keys : List StreamKey)
    (partKey : StreamKey) : (freezeParts parts keys).get partKey =
      if partKey ∈ keys then (parts.get partKey).map fun part => { part with frozen := true }
      else parts.get partKey := by
  induction keys generalizing parts with
  | nil => rfl
  | cons key keys ih =>
    rw [freezeParts, List.foldl_cons, ← freezeParts, ih, get_modify]
    by_cases member : partKey ∈ keys
    · rw [if_pos member, if_pos (List.mem_cons_of_mem _ member)]
      split
      · rw [Option.map_map]
        rfl
      · rfl
    · rw [if_neg member]
      by_cases same : key = partKey
      · subst same
        rw [if_pos rfl, if_pos List.mem_cons_self]
      · have absent : partKey ∉ key :: keys := by
          simp only [List.mem_cons, not_or]
          exact ⟨fun eq => same eq.symm, member⟩
        rw [if_neg same, if_neg absent]

/-- Freezing parts keeps everything else about them. -/
theorem view_freezeParts (view : MessagePartState → α)
    (kept : ∀ part, view { part with frozen := true } = view part)
    (parts : OrderedMap StreamKey MessagePartState) (keys : List StreamKey) (partKey : StreamKey) :
    ((freezeParts parts keys).get partKey).map view = (parts.get partKey).map view := by
  rw [get_freezeParts]
  split
  · rw [Option.map_map]
    exact congrArg (fun f => Option.map f (parts.get partKey)) (funext kept)
  · rfl

theorem messageStep_finishContent (wellFormed : ledger.WellFormed) (key : StreamKey) :
    Ensures (ledger.finishContent key) (MessageStep ledger) := by
  refine (ensures_finishContent key).mono ?_
  rintro next ⟨part, found, rfl⟩
  exact ⟨wellFormed.setPart found rfl, rfl, rfl, rfl⟩

theorem messageStep_finishMessage (wellFormed : ledger.WellFormed) (key : StreamKey) :
    Ensures (ledger.finishMessage key) (MessageStep ledger) := by
  refine (ensures_finishMessage key).mono ?_
  rintro next ⟨used, rfl⟩
  obtain ⟨tools, reasoning, reasoningParts⟩ := frame_addMessage ledger key
  refine ⟨?_, tools, reasoning, reasoningParts⟩
  have added := wellFormed.addMessage key
  have found := get_addMessage_self ledger key
  generalize (ledger.messages.get key).getD ⟨[], false⟩ = message at found
  have same : (({ ledger.addMessage key with
      messages := (ledger.addMessage key).messages.set key { message with frozen := true }
      messageParts := freezeParts ledger.messageParts message.partKeys } :
        SemanticItemLedger).withUsed used).skeleton = (ledger.addMessage key).skeleton := by
    have messages_same : (fun other => (((ledger.addMessage key).messages.set key
        { message with frozen := true }).get other).map MessageState.partKeys) =
        fun other => ((ledger.addMessage key).messages.get other).map MessageState.partKeys :=
      map_get_set_same found rfl
    simp only [skeleton, withUsed, messages_same, keys_set_of_get found]
    simp only [view_freezeParts MessagePartState.groupKey (fun _ => rfl), messageParts_addMessage]
  rw [WellFormed, same]
  exact added

/-! ## Reasoning -/

/-- What an operation on reasoning does to the rest of the ledger: nothing. -/
structure ReasoningStep (ledger next : SemanticItemLedger) : Prop where
  wellFormed : next.WellFormed
  messages : next.messages = ledger.messages
  messageParts : next.messageParts = ledger.messageParts
  tools : next.tools = ledger.tools

/-- The reasoning item of a key as it is now, and whether it is frozen. -/
def reasoningAt (ledger : SemanticItemLedger) (key : StreamKey) :
    Option (Bool × SemanticReasoningItem StreamKey) :=
  (ledger.reasoning.get key).map fun state => (state.frozen, ledger.semanticReasoning key state)

theorem reasoningAt_of_get (found : ledger.reasoning.get key = some state) :
    ledger.reasoningAt key = some (state.frozen, ledger.semanticReasoning key state) := by
  rw [reasoningAt, found]
  rfl

theorem reasoningAt_congr (reasoning : next.reasoning = ledger.reasoning)
    (reasoningParts : next.reasoningParts = ledger.reasoningParts) :
    next.reasoningAt = ledger.reasoningAt := by
  have part_eq : next.semanticPart = ledger.semanticPart := by
    funext partKey
    rw [semanticPart, semanticPart, reasoningParts]
  funext key
  rw [reasoningAt, reasoningAt, reasoning]
  congr 1
  funext state
  simp only [semanticReasoning, part_eq]

/-- The item of another key, whose state and parts have not changed. -/
theorem reasoningAt_of_parts (same : next.reasoning.get key = ledger.reasoning.get key)
    (parts : ∀ state, ledger.reasoning.get key = some state → ∀ partKey ∈ state.partKeys,
      next.semanticPart partKey = ledger.semanticPart partKey) :
    next.reasoningAt key = ledger.reasoningAt key := by
  rw [reasoningAt, reasoningAt, same]
  cases found : ledger.reasoning.get key with
  | none => rfl
  | some state =>
    have : state.partKeys.filterMap next.semanticPart =
        state.partKeys.filterMap ledger.semanticPart :=
      List.filterMap_congr (parts state found)
    simp only [Option.map_some, semanticReasoning, this]

theorem reasoningAt_key {frozen : Bool} (found : ledger.reasoningAt key = some (frozen, item)) :
    item.key = key := by
  obtain ⟨state, -, eq⟩ := Option.map_eq_some_iff.mp found
  cases eq
  rfl

theorem WellFormed.withReasoning (wellFormed : ledger.WellFormed)
    (parts : state.partKeys = ((ledger.reasoning.get key).map partKeys).getD []) :
    (ledger.withReasoning key state).WellFormed := by
  cases found : ledger.reasoning.get key with
  | none =>
    rw [found] at parts
    have fresh : LedgerEntry.reasoning key ∉ ledger.skeleton.order := by
      rw [wellFormed.order_reasoning]
      simp [skeleton, found]
    have same : (ledger.withReasoning key state).skeleton =
        ledger.skeleton.append (.reasoning key) := by
      simp only [skeleton, SemanticItemLedger.withReasoning, found, map_get_set, parts]
      rfl
    rw [WellFormed, same]
    exact Skeleton.Consistent.append wellFormed fresh
  | some old =>
    rw [found] at parts
    have reasoning_same : (fun other => ((ledger.reasoning.set key state).get other).map
        partKeys) =
        fun other => (ledger.reasoning.get other).map partKeys :=
      map_get_set_same found parts
    have same : (ledger.withReasoning key state).skeleton = ledger.skeleton := by
      simp only [skeleton, SemanticItemLedger.withReasoning, found, reasoning_same]
      rfl
    rw [WellFormed, same]
    exact wellFormed

theorem resumed_partKeys (old : Option ReasoningState) (itemId : Option JsString)
    (messagesState : Option MessagesReasoningState) (opaqueState : Option OpaqueReasoningState) :
    (resumed old itemId messagesState opaqueState).partKeys =
      (old.map partKeys).getD [] := by
  cases old <;> rfl

/-- `startReasoning` leaves the items that are there alone, but for their states. -/
theorem reasoningStep_startReasoning (wellFormed : ledger.WellFormed) (key : StreamKey)
    (itemId : Option JsString) (messagesState : Option MessagesReasoningState)
    (opaqueState : Option OpaqueReasoningState) :
    Ensures (ledger.startReasoning key itemId messagesState opaqueState) fun next =>
      ReasoningStep ledger next ∧ next.reasoningParts = ledger.reasoningParts ∧
      ∀ other, next.reasoning.get other = if key = other then
        some (resumed (ledger.reasoning.get key) itemId messagesState opaqueState)
        else ledger.reasoning.get other := by
  refine (ensures_startReasoning key itemId messagesState opaqueState).mono ?_
  rintro next ⟨⟨used, rfl⟩, -⟩
  refine ⟨⟨?_, rfl, rfl, rfl⟩, rfl, fun other => get_set _ _ _ _⟩
  exact wellFormed.withReasoning (resumed_partKeys _ itemId messagesState opaqueState)

theorem WellFormed.appendReasoning (wellFormed : ledger.WellFormed) (address : ReasoningPartAddress)
    (agrees : AgreesWith (ledger.reasoningPartState address) address)
    (key : part.itemKey = address.key) :
    ({ ledger.withReasoning address.key (ledger.resumedWithPart address) with
      reasoningParts := ledger.reasoningParts.set address.partKey part } :
        SemanticItemLedger).WellFormed := by
  have based : (ledger.withReasoning address.key
      (resumed (ledger.reasoning.get address.key) address.itemId none none)).WellFormed :=
    wellFormed.withReasoning (resumed_partKeys _ address.itemId none none)
  cases found : ledger.reasoningParts.get address.partKey with
  | some old =>
    have old_eq : ledger.reasoningPartState address = old := by
      rw [reasoningPartState, found]
      rfl
    rw [old_eq] at agrees
    have parts_same : (fun other => ((ledger.reasoningParts.set address.partKey part).get
        other).map ReasoningPartState.itemKey) =
        fun other => (ledger.reasoningParts.get other).map ReasoningPartState.itemKey :=
      map_get_set_same found (key.trans agrees.1.symm)
    have same : ({ ledger.withReasoning address.key (ledger.resumedWithPart address) with
        reasoningParts := ledger.reasoningParts.set address.partKey part } :
        SemanticItemLedger).skeleton = (ledger.withReasoning address.key
          (resumed (ledger.reasoning.get address.key) address.itemId none none)).skeleton := by
      simp only [skeleton, SemanticItemLedger.withReasoning, resumedWithPart, found, parts_same]
      rfl
    rw [WellFormed, same]
    exact based
  | none =>
    generalize state_eq : resumed (ledger.reasoning.get address.key) address.itemId none none =
      state at based
    have same : ({ ledger.withReasoning address.key (ledger.resumedWithPart address) with
        reasoningParts := ledger.reasoningParts.set address.partKey part } :
        SemanticItemLedger).skeleton =
          (ledger.withReasoning address.key state).skeleton.appendReasoningPart
          address.key address.partKey state.partKeys := by
      simp only [skeleton, SemanticItemLedger.withReasoning, resumedWithPart, found, state_eq,
        map_get_set, Skeleton.appendReasoningPart, Function.update_idem, key]
      rfl
    rw [WellFormed, same]
    refine Skeleton.Consistent.appendReasoningPart based ?_ ?_
    · show ((ledger.reasoning.set address.key state).get address.key).map _ = _
      rw [get_set_self]
      rfl
    · show (ledger.reasoningParts.get address.partKey).map _ = none
      rw [found]
      rfl

def startedItem (item : SemanticReasoningItem StreamKey)
    (messagesState : Option MessagesReasoningState) (opaqueState : Option OpaqueReasoningState) :
    SemanticReasoningItem StreamKey :=
  { item with
    messagesState := messagesState.or item.messagesState
    opaqueState := opaqueState.or item.opaqueState
    hasOpaqueState := (opaqueState.or item.opaqueState).isSome }

theorem reasoningAt_startReasoning (wellFormed : ledger.WellFormed) (key : StreamKey)
    (itemId : Option JsString) (messagesState : Option MessagesReasoningState)
    (opaqueState : Option OpaqueReasoningState) :
    Ensures (ledger.startReasoning key itemId messagesState opaqueState) fun next =>
      ReasoningStep ledger next ∧
      (∀ other, other ≠ key → next.reasoningAt other = ledger.reasoningAt other) ∧
      ∀ frozen item, ledger.reasoningAt key = some (frozen, item) →
        next.reasoningAt key = some (frozen, startedItem item messagesState opaqueState) := by
  refine (reasoningStep_startReasoning wellFormed key itemId messagesState opaqueState).mono ?_
  rintro next ⟨step, parts, gets⟩
  have part_eq : next.semanticPart = ledger.semanticPart := by
    funext partKey
    rw [semanticPart, semanticPart, parts]
  refine ⟨step, fun other apart => ?_, fun frozen item found => ?_⟩
  · have same : next.reasoning.get other = ledger.reasoning.get other := by
      rw [gets, if_neg fun eq => apart eq.symm]
    exact reasoningAt_of_parts same fun _ _ partKey _ => congrFun part_eq partKey
  · obtain ⟨state, there, eq⟩ := Option.map_eq_some_iff.mp found
    cases eq
    have now := gets key
    rw [if_pos rfl, there] at now
    rw [reasoningAt_of_get now]
    simp only [semanticReasoning, resumed, startedItem, part_eq]

theorem semanticPart_appendReasoning (address : ReasoningPartAddress)
    (parts : next.reasoningParts = ledger.reasoningParts.set address.partKey part)
    (apart : partKey ≠ address.partKey) :
    next.semanticPart partKey = ledger.semanticPart partKey := by
  rw [semanticPart, semanticPart, parts, get_set_of_ne fun eq => apart eq.symm]

/-- A delta changes the item it is for, which is not frozen and shows text then. -/
theorem reasoningAt_appendReasoning (wellFormed : ledger.WellFormed)
    (address : ReasoningPartAddress) {delta : JsString} (grows : delta ≠ []) :
    Ensures (ledger.appendReasoning address delta) fun next =>
      ReasoningStep ledger next ∧
      (∀ other, other ≠ address.key → next.reasoningAt other = ledger.reasoningAt other) ∧
      (∀ frozen item, ledger.reasoningAt address.key = some (frozen, item) → frozen = false) ∧
      ∃ item, next.reasoningAt address.key = some (false, item) ∧ item.visible = true := by
  refine (ensures_appendReasoning address delta).mono ?_
  rintro next ⟨charged, agrees, -, open_, -⟩
  generalize part_eq : ({ ledger.reasoningPartState address with
    text := (ledger.reasoningPartState address).text ++ delta } : ReasoningPartState) = part
    at charged
  have itemKey : part.itemKey = address.key := part_eq ▸ agrees.1
  have wellFormed' := (wellFormed.appendReasoning address agrees itemKey).charged charged
  obtain ⟨used, charged⟩ := charged
  have reasoning_eq : next.reasoning =
      ledger.reasoning.set address.key (ledger.resumedWithPart address) := by
    rw [charged]
    rfl
  have parts_eq : next.reasoningParts = ledger.reasoningParts.set address.partKey part := by
    rw [charged]
    rfl
  have step : ReasoningStep ledger next :=
    ⟨wellFormed', by rw [charged]; rfl, by rw [charged]; rfl, by rw [charged]; rfl⟩
  clear charged
  refine ⟨step, fun other apart => ?_, fun frozen item found => ?_, ?_⟩
  · have same : next.reasoning.get other = ledger.reasoning.get other := by
      rw [reasoning_eq, get_set_of_ne fun eq => apart eq.symm]
    refine reasoningAt_of_parts same fun state there partKey member => ?_
    refine semanticPart_appendReasoning address parts_eq ?_
    rintro rfl
    -- the part of another item cannot agree with the address
    have owner : (ledger.reasoningParts.get address.partKey).map ReasoningPartState.itemKey =
        some other := by
      refine (wellFormed.reasoningPart_iff other address.partKey).mpr ⟨state.partKeys, ?_, member⟩
      show (ledger.reasoning.get other).map _ = _
      rw [there]
      rfl
    obtain ⟨old, was, ownKey⟩ := Option.map_eq_some_iff.mp owner
    have : ledger.reasoningPartState address = old := by
      rw [reasoningPartState, was]
      rfl
    rw [this] at agrees
    exact apart (ownKey.symm.trans agrees.1)
  · obtain ⟨state, there, eq⟩ := Option.map_eq_some_iff.mp found
    cases eq
    rw [resumedWithPart, there] at open_
    split at open_ <;> exact open_
  · have now : next.reasoning.get address.key = some (ledger.resumedWithPart address) := by
      rw [reasoning_eq, get_set_self]
    refine ⟨_, (reasoningAt_of_get now).trans (by rw [open_]), ?_⟩
    have listed : address.partKey ∈ (ledger.resumedWithPart address).partKeys := by
      have owner : (next.reasoningParts.get address.partKey).map ReasoningPartState.itemKey =
          some address.key := by
        rw [parts_eq, get_set_self, ← itemKey]
        rfl
      obtain ⟨keys, there, member⟩ :=
        (wellFormed'.reasoningPart_iff address.key address.partKey).mp owner
      have there : (next.reasoning.get address.key).map partKeys = some keys := there
      rw [now] at there
      cases there
      exact member
    rw [SemanticReasoningItem.visible, List.any_eq_true]
    refine ⟨⟨address.partKey, part.presentation, part.index, part.text⟩, ?_, ?_⟩
    · refine (List.mem_insertionSort _).mpr (List.mem_filterMap.mpr ⟨_, listed, ?_⟩)
      rw [semanticPart, parts_eq, get_set_self]
      rfl
    · rw [← part_eq]
      simp [grows]

/-! ## Freezing -/

/-- The item frozen with a status, unless it already was. -/
def frozenItem (status : ItemStatus) (frozen : Bool) (item : SemanticReasoningItem StreamKey) :
    SemanticReasoningItem StreamKey :=
  if frozen then item else { item with status := some status }

theorem get_freezeReasoningParts (parts : OrderedMap StreamKey ReasoningPartState)
    (keys : List StreamKey) (view : ReasoningPartState → α)
    (kept : ∀ part, view { part with frozen := true } = view part) (partKey : StreamKey) :
    ((keys.foldl (fun parts partKey => parts.modify partKey fun part =>
      { part with frozen := true }) parts).get partKey).map view =
      (parts.get partKey).map view := by
  induction keys generalizing parts with
  | nil => rfl
  | cons key keys ih =>
    rw [List.foldl_cons, ih, get_modify]
    split
    · rw [Option.map_map]
      exact congrArg (fun f => Option.map f (parts.get partKey)) (funext kept)
    · rfl

theorem reasoningAt_freezeReasoning (wellFormed : ledger.WellFormed)
    (found : ledger.reasoning.get key = some state) (status : ItemStatus) :
    ReasoningStep ledger (ledger.freezeReasoning key state status) ∧
      ∀ other, (ledger.freezeReasoning key state status).reasoningAt other =
        if key = other then
          some (true, { ledger.semanticReasoning key state with status := some status })
        else ledger.reasoningAt other := by
  have part_eq : (ledger.freezeReasoning key state status).semanticPart = ledger.semanticPart := by
    funext partKey
    exact get_freezeReasoningParts ledger.reasoningParts state.partKeys _ (fun _ => rfl) partKey
  have reasoning_same : (fun other => ((ledger.reasoning.set key
      { state with frozen := true, status := some status }).get other).map
        partKeys) =
      fun other => (ledger.reasoning.get other).map partKeys :=
    map_get_set_same found rfl
  refine ⟨⟨?_, rfl, rfl, rfl⟩, fun other => ?_⟩
  · have same : (ledger.freezeReasoning key state status).skeleton = ledger.skeleton := by
      simp only [skeleton, freezeReasoning, reasoning_same,
        get_freezeReasoningParts _ _ ReasoningPartState.itemKey fun _ => rfl]
    rw [WellFormed, same]
    exact wellFormed
  · rw [reasoningAt]
    show ((ledger.reasoning.set key _).get other).map _ = _
    rw [get_set]
    by_cases same : key = other
    · subst same
      rw [if_pos rfl, if_pos rfl, Option.map_some]
      simp only [semanticReasoning, part_eq]
    · rw [if_neg same, if_neg same, reasoningAt]
      simp only [semanticReasoning, part_eq]

theorem reasoningAt_finishReasoning (wellFormed : ledger.WellFormed) (key : StreamKey)
    (status : ItemStatus) :
    Ensures (ledger.finishReasoning key status) fun result =>
      ReasoningStep ledger result.1 ∧ result.2.key = key ∧
      (∃ frozen item, ledger.reasoningAt key = some (frozen, item) ∧
        result.2 = frozenItem status frozen item) ∧
      ∀ other, result.1.reasoningAt other =
        if key = other then some (true, result.2) else ledger.reasoningAt other := by
  refine (ensures_finishReasoning key status).mono ?_
  rintro ⟨next, item⟩ ⟨state, found, -, next_eq, item_eq⟩
  simp only at next_eq item_eq
  have was := reasoningAt_of_get found
  cases frozen : state.frozen with
  | true =>
    rw [frozen, if_pos rfl] at next_eq
    subst next_eq
    rw [frozenWith, if_pos frozen] at item_eq
    subst item_eq
    refine ⟨⟨wellFormed, rfl, rfl, rfl⟩, rfl, ⟨true, _, frozen ▸ was, rfl⟩, fun other => ?_⟩
    by_cases same : key = other
    · subst same
      rw [if_pos rfl, was, frozen]
    · rw [if_neg same]
  | false =>
    rw [frozen, if_neg Bool.false_ne_true] at next_eq
    obtain ⟨step, items⟩ := reasoningAt_freezeReasoning wellFormed found status
    rw [← next_eq] at step items
    have now := items key
    rw [if_pos rfl] at now
    have part_eq : next.semanticPart = ledger.semanticPart := by
      rw [next_eq]
      funext partKey
      exact get_freezeReasoningParts ledger.reasoningParts state.partKeys _ (fun _ => rfl) partKey
    have item_is : item = { ledger.semanticReasoning key state with status := some status } := by
      rw [item_eq, frozenWith, frozen, if_neg Bool.false_ne_true]
      simp only [semanticReasoning, part_eq]
    refine ⟨step, by rw [item_is]; rfl, ⟨false, _, frozen ▸ was, item_is⟩, fun other => ?_⟩
    rw [items, item_is]

/-- Where `finishOpenReasoning` stands after some entries of the order. -/
structure FrozenUpTo (status : ItemStatus) (ledger : SemanticItemLedger)
    (visited : List LedgerEntry)
    (result : SemanticItemLedger × List (SemanticReasoningItem StreamKey)) : Prop where
  step : ReasoningStep ledger result.1
  visited_at : ∀ key, .reasoning key ∈ visited → result.1.reasoningAt key =
    (ledger.reasoningAt key).map fun entry => (true, frozenItem status entry.1 entry.2)
  others : ∀ key, .reasoning key ∉ visited → result.1.reasoningAt key = ledger.reasoningAt key
  items_at : ∀ item ∈ result.2, .reasoning item.key ∈ visited ∧
    result.1.reasoningAt item.key = some (true, item)
  items_cover : ∀ key item, .reasoning key ∈ visited →
    ledger.reasoningAt key = some (false, item) → ∃ found ∈ result.2, found.key = key

theorem FrozenUpTo.skip {status : ItemStatus} (upTo : FrozenUpTo status ledger visited result)
    (fresh : entry ∉ visited) (settled : ∀ key, entry = .reasoning key →
      ∀ item, ledger.reasoningAt key ≠ some (false, item)) :
    FrozenUpTo status ledger (visited ++ [entry]) result := by
  obtain ⟨step, visitedAt, others, itemsAt, cover⟩ := upTo
  refine ⟨step, fun key member => ?_, fun key absent => ?_, fun item member => ?_,
    fun key item member there => ?_⟩
  · rcases List.mem_append.mp member with old | new
    · exact visitedAt key old
    · obtain rfl := List.mem_singleton.mp new
      rw [others key fresh]
      cases there : ledger.reasoningAt key with
      | none => rfl
      | some entry =>
        obtain ⟨frozen, item⟩ := entry
        cases frozen with
        | true => rfl
        | false => exact absurd there (settled key rfl item)
  · exact others key fun member => absent (List.mem_append_left _ member)
  · exact ⟨List.mem_append_left _ (itemsAt item member).1, (itemsAt item member).2⟩
  · rcases List.mem_append.mp member with old | new
    · exact cover key item old there
    · obtain rfl := List.mem_singleton.mp new
      exact absurd there (settled key rfl item)

theorem FrozenUpTo.freeze {status : ItemStatus} (upTo : FrozenUpTo status ledger visited result)
    (fresh : .reasoning key ∉ visited) {was : SemanticReasoningItem StreamKey}
    (there : result.1.reasoningAt key = some (false, was))
    (isItem : item = frozenItem status false was) (step : ReasoningStep result.1 next)
    (gets : ∀ other, next.reasoningAt other =
      if key = other then some (true, item) else result.1.reasoningAt other) :
    FrozenUpTo status ledger (visited ++ [.reasoning key]) (next, result.2 ++ [item]) := by
  obtain ⟨before, visitedAt, others, itemsAt, cover⟩ := upTo
  have ownKey : item.key = key := by
    rw [isItem, frozenItem, if_neg nofun]
    show was.key = key
    exact reasoningAt_key there
  refine ⟨⟨step.wellFormed, step.messages.trans before.messages,
    step.messageParts.trans before.messageParts, step.tools.trans before.tools⟩,
    fun other member => ?_, fun other absent => ?_, fun other member => ?_,
    fun other old member found => ?_⟩
  · rw [gets]
    by_cases same : key = other
    · subst same
      rw [if_pos rfl, ← others key fresh, there, isItem]
      rfl
    · rw [if_neg same]
      rcases List.mem_append.mp member with old | new
      · exact visitedAt other old
      · cases List.mem_singleton.mp new
        exact absurd rfl same
  · have apart : key ≠ other := by
      rintro rfl
      exact absent (List.mem_append_right _ (List.mem_singleton_self _))
    rw [gets, if_neg apart]
    exact others other fun member => absent (List.mem_append_left _ member)
  · rcases List.mem_append.mp member with old | new
    · have was := itemsAt other old
      have apart : key ≠ other.key := by
        rintro rfl
        exact fresh was.1
      rw [gets, if_neg apart]
      exact ⟨List.mem_append_left _ was.1, was.2⟩
    · cases List.mem_singleton.mp new
      rw [gets, if_pos ownKey.symm, ownKey]
      exact ⟨List.mem_append_right _ (List.mem_singleton_self _), rfl⟩
  · rcases List.mem_append.mp member with before | new
    · obtain ⟨listed, isListed, its⟩ := cover other old before found
      exact ⟨listed, List.mem_append_left _ isListed, its⟩
    · cases List.mem_singleton.mp new
      exact ⟨item, List.mem_append_right _ (List.mem_singleton_self _), ownKey⟩

theorem ensures_finishOpenReasoning (wellFormed : ledger.WellFormed) (status : ResponseStatus) :
    Ensures (ledger.finishOpenReasoning status)
      (FrozenUpTo status.item ledger ledger.order) := by
  rw [finishOpenReasoning]
  refine ensures_foldlM_visited (FrozenUpTo status.item ledger) ?_ ?_
  · rintro visited ⟨current, items⟩ entry rest whole upTo
    have nodup := wellFormed.order_nodup
    have fresh : entry ∉ visited := by
      have nodup : (visited ++ entry :: rest).Nodup := whole ▸ nodup
      rw [List.nodup_append] at nodup
      exact fun member => nodup.2.2 entry member entry List.mem_cons_self rfl
    cases entry with
    | message key => exact ensures_pure (upTo.skip fresh nofun)
    | tool key => exact ensures_pure (upTo.skip fresh nofun)
    | reasoning key =>
      have at_ := upTo.others key fresh
      simp only at at_ ⊢
      cases found : current.reasoning.get key with
      | none =>
        refine ensures_pure (upTo.skip fresh fun other eq item there => ?_)
        cases eq
        rw [← at_, reasoningAt, found] at there
        cases there
      | some state =>
        rw [reasoningAt_of_get found] at at_
        simp only
        refine ensures_ite (fun frozen =>
          ensures_pure (upTo.skip fresh fun other eq item there => ?_))
          fun open_ => ?_
        · cases eq
          rw [← at_, frozen] at there
          cases there
        · refine (reasoningAt_finishReasoning upTo.step.wellFormed key status.item).bind ?_
          rintro ⟨next, item⟩ ⟨step, -, ⟨frozen, was, there, isItem⟩, gets⟩
          rw [reasoningAt_of_get found] at there
          cases there
          have notFrozen : state.frozen = false := by simpa using open_
          rw [notFrozen] at isItem
          have there : current.reasoningAt key =
              some (false, current.semanticReasoning key state) := by
            rw [reasoningAt_of_get found, notFrozen]
          exact ensures_pure (upTo.freeze fresh there isItem step gets)
  · refine ⟨⟨wellFormed, rfl, rfl, rfl⟩, fun key member => ?_, fun _ _ => rfl,
      fun item member => ?_, fun key item member => ?_⟩
    · exact absurd member List.not_mem_nil
    · exact absurd member List.not_mem_nil
    · exact absurd member List.not_mem_nil

/-! ## Items -/

/-- The content of a message with the keys of its parts, as the parts are now. -/
def contentOf (ledger : SemanticItemLedger) (message : MessageState) :
    List (StreamKey × SemanticContent) :=
  (message.partKeys.insertionSort fun left right => messagePartKeyLe left right).flatMap fun key =>
    match ledger.messageParts.get key with
    | some part => partContent key part
    | none => []

/-- The item of an entry, if it has one, as the ledger is now. -/
def itemOf (ledger : SemanticItemLedger) (status : ResponseStatus) :
    LedgerEntry → Option (SemanticResponseItem StreamKey)
  | .message key => (ledger.messages.get key).bind fun message =>
    if ledger.contentOf message ≠ [] ∨ message.frozen = true then
      some (.message key ((ledger.contentOf message).map Prod.fst)
        ((ledger.contentOf message).map Prod.snd))
    else none
  | .reasoning key => (ledger.reasoningAt key).map fun entry =>
    .reasoning (frozenItem status.item entry.1 entry.2)
  | .tool key => (ledger.tools.get key).map fun tool =>
    .toolCall ⟨key, tool.itemId, tool.callId, tool.name, tool.argumentsJson⟩

theorem ensures_messageContent (message : MessageState) :
    Ensures (ledger.messageContent message) fun entries => entries = ledger.contentOf message := by
  rw [messageContent]
  refine ensures_bind fun contents mapped => ensures_pure ?_
  rw [contentOf]
  have each := mapM_eq_ok.mp mapped
  clear mapped
  generalize message.partKeys.insertionSort (fun left right => messagePartKeyLe left right) = keys
    at each
  induction each with
  | nil => rfl
  | cons first _ ih =>
    obtain ⟨part, found, returned⟩ := bind_eq_ok.mp first
    cases returned
    rw [List.flatten_cons, ih, List.flatMap_cons, ensures_required _ found]

/-- What `entryItem` may change: one reasoning item is frozen. -/
structure EntryStep (status : ResponseStatus) (entry : LedgerEntry)
    (ledger next : SemanticItemLedger) : Prop where
  step : ReasoningStep ledger next
  others : ∀ key, entry ≠ .reasoning key → next.reasoningAt key = ledger.reasoningAt key
  toolDone : ∀ key tool, entry = .tool key → ledger.tools.get key = some tool →
    status = .completed → tool.done = true

theorem ensures_entryItem (wellFormed : ledger.WellFormed) (status : ResponseStatus)
    (entry : LedgerEntry) :
    Ensures (ledger.entryItem status entry) fun result =>
      EntryStep status entry ledger result.1 ∧ result.2 = ledger.itemOf status entry := by
  have still : ReasoningStep ledger ledger := ⟨wellFormed, rfl, rfl, rfl⟩
  cases entry with
  | message key =>
    rw [entryItem]
    refine ensures_required.bind fun message found => ?_
    refine (ensures_messageContent message).bind fun entries same => ?_
    subst same
    rw [itemOf, found, Option.bind_some]
    refine ensures_ite (fun holds => ?_) fun fails => ?_
    · rw [if_pos holds]
      exact ensures_pure ⟨⟨still, fun _ _ => rfl, by rintro _ _ ⟨⟩⟩, rfl⟩
    · rw [if_neg fails]
      exact ensures_pure ⟨⟨still, fun _ _ => rfl, by rintro _ _ ⟨⟩⟩, rfl⟩
  | reasoning key =>
    rw [entryItem]
    refine ensures_required.bind fun state found => ?_
    rw [itemOf, reasoningAt_of_get found, Option.map_some]
    refine ensures_ite (fun frozen => ?_) fun open_ => ?_
    · refine (ensures_reasoningItem key state).bind fun item built => ensures_pure ?_
      refine ⟨⟨still, fun _ _ => rfl, by rintro _ _ ⟨⟩⟩, ?_⟩
      rw [frozenItem, if_pos frozen, built]
    · obtain ⟨step, gets⟩ := reasoningAt_freezeReasoning wellFormed found status.item
      have part_eq : (ledger.freezeReasoning key state status.item).semanticPart =
          ledger.semanticPart := by
        funext partKey
        exact get_freezeReasoningParts ledger.reasoningParts state.partKeys _ (fun _ => rfl) partKey
      refine (ensures_reasoningItem key _).bind fun item built => ensures_pure ?_
      refine ⟨⟨step, fun other apart => ?_, by rintro _ _ ⟨⟩⟩, ?_⟩
      · have this : key ≠ other := by
          rintro rfl
          exact apart rfl
        rw [gets, if_neg this]
      · rw [frozenItem, if_neg open_, built]
        simp only [semanticReasoning, part_eq]
  | tool key =>
    rw [entryItem]
    refine (ensures_tool key).bind fun tool found => ?_
    refine ensures_require.bind fun _ done => ensures_pure ?_
    rw [itemOf, found]
    refine ⟨⟨still, fun _ _ => rfl, fun other tool' eq found' completed => ?_⟩, rfl⟩
    cases eq
    rw [found] at found'
    cases found'
    cases isDone : tool.done with
    | true => rfl
    | false =>
      refine absurd ⟨?_, completed⟩ done
      rw [isDone]
      exact Bool.false_ne_true

theorem itemOf_congr (step : ReasoningStep ledger next)
    (same : ∀ key, entry = .reasoning key → next.reasoningAt key = ledger.reasoningAt key) :
    next.itemOf status entry = ledger.itemOf status entry := by
  cases entry with
  | message key =>
    have content : next.contentOf = ledger.contentOf := by
      funext message
      rw [contentOf, contentOf, step.messageParts]
    rw [itemOf, itemOf, step.messages, content]
  | reasoning key => rw [itemOf, itemOf, same key rfl]
  | tool key => rw [itemOf, itemOf, step.tools]

/-- The order in which `items` visits the entries. -/
def sortedOrder (ledger : SemanticItemLedger) : List LedgerEntry :=
  ledger.order.insertionSort fun left right => responseItemKeyLe left right

/-- `items` returns the items the ledger has, and a completed response has no open
tool. -/
theorem ensures_items (wellFormed : ledger.WellFormed) (status : ResponseStatus) :
    Ensures (ledger.items status) fun result =>
      ReasoningStep ledger result.1 ∧
      result.2 = ledger.sortedOrder.filterMap (ledger.itemOf status) ∧
      (status = .completed → ∀ key tool, ledger.tools.get key = some tool → tool.done = true) := by
  have perm : ledger.sortedOrder.Perm ledger.order := List.perm_insertionSort _ _
  have nodup : ledger.sortedOrder.Nodup := perm.nodup_iff.mpr wellFormed.order_nodup
  rw [items]
  show Ensures (ledger.sortedOrder.foldlM _ _) _
  refine (ensures_foldlM_visited (fun visited result =>
    ReasoningStep ledger result.1 ∧
    (∀ key, .reasoning key ∉ visited → result.1.reasoningAt key = ledger.reasoningAt key) ∧
    result.2 = visited.filterMap (ledger.itemOf status) ∧
    (status = .completed → ∀ key tool, .tool key ∈ visited → ledger.tools.get key = some tool →
      tool.done = true)) ?_ ?_).mono ?_
  · rintro visited ⟨current, items⟩ entry rest whole ⟨step, others, items_eq, done⟩
    have fresh : entry ∉ visited := by
      have nodup : (visited ++ entry :: rest).Nodup := whole ▸ nodup
      rw [List.nodup_append] at nodup
      exact fun member => nodup.2.2 entry member entry List.mem_cons_self rfl
    refine (ensures_entryItem step.wellFormed status entry).bind ?_
    rintro ⟨next, item⟩ ⟨entryStep, item_eq⟩
    have same : current.itemOf status entry = ledger.itemOf status entry :=
      itemOf_congr step fun key eq => others key (eq ▸ fresh)
    refine ensures_pure ⟨⟨entryStep.step.wellFormed, entryStep.step.messages.trans step.messages,
      entryStep.step.messageParts.trans step.messageParts,
      entryStep.step.tools.trans step.tools⟩, fun key absent => ?_, ?_,
      fun completed key tool member found => ?_⟩
    · simp only [List.mem_append, List.mem_singleton, not_or] at absent
      exact (entryStep.others key fun eq => absent.2 eq.symm).trans (others key absent.1)
    · simp only at items_eq item_eq ⊢
      rw [List.filterMap_append, ← items_eq, item_eq, same, List.filterMap_cons]
      cases ledger.itemOf status entry <;> rfl
    · rcases List.mem_append.mp member with old | new
      · exact done completed key tool old found
      · refine entryStep.toolDone key tool (List.mem_singleton.mp new).symm ?_ completed
        rw [step.tools]
        exact found
  · exact ⟨⟨wellFormed, rfl, rfl, rfl⟩, fun _ _ => rfl, rfl,
      fun _ key tool member => absurd member List.not_mem_nil⟩
  · rintro ⟨next, items⟩ ⟨step, -, items_eq, done⟩
    refine ⟨step, items_eq, fun completed key tool found => ?_⟩
    refine done completed key tool (perm.mem_iff.mpr ?_) found
    refine (wellFormed.order_tool key).mpr ?_
    show (ledger.tools.get key).isSome = true
    rw [found]
    rfl

/-- The entries whose item `items` lists. -/
theorem mem_sortedOrder (entry : LedgerEntry) :
    entry ∈ ledger.sortedOrder ↔ entry ∈ ledger.order :=
  (List.perm_insertionSort _ _).mem_iff

/-- An entry with an item is listed. -/
theorem mem_sortedOrder_of_itemOf (wellFormed : ledger.WellFormed)
    {item : SemanticResponseItem StreamKey} (is : ledger.itemOf status entry = some item) :
    entry ∈ ledger.sortedOrder := by
  refine (mem_sortedOrder _).mpr ?_
  cases entry with
  | message key =>
    obtain ⟨message, found, -⟩ := Option.bind_eq_some_iff.mp is
    refine (wellFormed.order_message key).mpr ?_
    show ((ledger.messages.get key).map MessageState.partKeys).isSome = true
    rw [found]
    rfl
  | reasoning key =>
    obtain ⟨entry, there, -⟩ := Option.map_eq_some_iff.mp is
    obtain ⟨state, found, -⟩ := Option.map_eq_some_iff.mp there
    refine (wellFormed.order_reasoning key).mpr ?_
    show ((ledger.reasoning.get key).map partKeys).isSome = true
    rw [found]
    rfl
  | tool key =>
    obtain ⟨tool, found, -⟩ := Option.map_eq_some_iff.mp is
    refine (wellFormed.order_tool key).mpr ?_
    show (ledger.tools.get key).isSome = true
    rw [found]
    rfl

/-! ## Tools -/

/-- What an operation on tools does to the rest of the ledger: nothing. -/
structure ToolStep (ledger next : SemanticItemLedger) : Prop where
  wellFormed : next.WellFormed
  messageParts : next.messageParts = ledger.messageParts
  reasoning : next.reasoning = ledger.reasoning
  reasoningParts : next.reasoningParts = ledger.reasoningParts

theorem toolStep_startTool (wellFormed : ledger.WellFormed) (key : StreamKey)
    (itemId : Option JsString) (callId name : JsString) :
    Ensures (ledger.startTool key itemId callId name) fun next =>
      ToolStep ledger next ∧ ledger.tools.get key = none ∧
      next.tools = ledger.tools.set key ⟨itemId, callId, name, [], false⟩ := by
  refine (ensures_startTool key itemId callId name).mono ?_
  rintro next ⟨charged, absent, -⟩
  have fresh : LedgerEntry.tool key ∉ ledger.skeleton.order := by
    rw [wellFormed.order_tool]
    simp [skeleton, absent]
  have tools_same : (fun other => ((ledger.tools.set key ⟨itemId, callId, name, [], false⟩).get
      other).isSome) = Function.update (fun other => (ledger.tools.get other).isSome) key true := by
    funext other
    rw [get_set]
    by_cases same : key = other
    · subst same
      rw [if_pos rfl, Function.update_self]
      rfl
    · rw [if_neg same, Function.update_of_ne fun eq => same eq.symm]
  have same : ({ ledger with
      callIds := ledger.callIds ++ [callId]
      tools := ledger.tools.set key ⟨itemId, callId, name, [], false⟩
      order := ledger.order ++ [.tool key] } : SemanticItemLedger).skeleton =
      ledger.skeleton.append (.tool key) := by
    simp only [skeleton, tools_same]
    rfl
  obtain ⟨used, rfl⟩ := charged
  refine ⟨⟨?_, rfl, rfl, rfl⟩, absent, rfl⟩
  have kept := Skeleton.Consistent.append wellFormed fresh
  rw [← same] at kept
  exact kept

/-- A tool replaced. -/
theorem WellFormed.setTool (wellFormed : ledger.WellFormed) {key : StreamKey} {old tool : ToolState}
    (found : ledger.tools.get key = some old) :
    ({ ledger with tools := ledger.tools.set key tool } : SemanticItemLedger).WellFormed := by
  have tools_same : (fun other => ((ledger.tools.set key tool).get other).isSome) =
      fun other => (ledger.tools.get other).isSome := by
    funext other
    rw [get_set]
    by_cases same : key = other
    · subst same
      rw [if_pos rfl, found]
      rfl
    · rw [if_neg same]
  have same : ({ ledger with tools := ledger.tools.set key tool } :
      SemanticItemLedger).skeleton = ledger.skeleton := by
    simp only [skeleton, tools_same]
  rw [WellFormed, same]
  exact wellFormed

theorem toolStep_appendToolArguments (wellFormed : ledger.WellFormed) (key : StreamKey)
    (delta : JsString) :
    Ensures (ledger.appendToolArguments key delta) fun next => ToolStep ledger next ∧
      ∃ tool, ledger.tools.get key = some tool ∧ tool.done = false ∧
        next.tools = ledger.tools.set key
          { tool with argumentsJson := tool.argumentsJson ++ delta } := by
  refine (ensures_appendToolArguments key delta).mono ?_
  rintro next ⟨tool, found, open_, used, rfl⟩
  exact ⟨⟨wellFormed.setTool found, rfl, rfl, rfl⟩, tool, found, open_, rfl⟩

theorem toolStep_finishTool (wellFormed : ledger.WellFormed) (key : StreamKey)
    (snapshot : Option JsString) (completed validateCompleted : Bool) :
    Ensures (ledger.finishTool key snapshot completed validateCompleted) fun result =>
      ToolStep ledger result.1 ∧ ∃ tool, ledger.tools.get key = some tool ∧
        (tool.done = true → result.2 = []) ∧
        snapshot.getD tool.argumentsJson = tool.argumentsJson ++ result.2 ∧
        result.1.tools = ledger.tools.set key
          { tool with argumentsJson := tool.argumentsJson ++ result.2, done := true } := by
  refine (ensures_finishTool key snapshot completed validateCompleted).mono ?_
  rintro ⟨next, suffix⟩ ⟨tool, found, done, whole, used, charged⟩
  simp only at charged
  subst charged
  exact ⟨⟨wellFormed.setTool found, rfl, rfl, rfl⟩, tool, found, done, whole, rfl⟩

theorem toolStep_finishOpenTools (wellFormed : ledger.WellFormed)
    (validateCompleted : JsString → Fallible Bool) :
    Ensures (ledger.finishOpenTools validateCompleted) fun next => ToolStep ledger next ∧
      next.order = ledger.order ∧ ∀ key, next.tools.get key =
        (ledger.tools.get key).map fun tool => { tool with done := true } := by
  refine (ensures_finishOpenTools validateCompleted).mono ?_
  rintro next ⟨tools, rfl, -, gets⟩
  refine ⟨⟨?_, rfl, rfl, rfl⟩, rfl, gets⟩
  have tools_same : (fun other => (tools.get other).isSome) =
      fun other => (ledger.tools.get other).isSome := by
    funext other
    rw [gets, Option.isSome_map]
  have same : ({ ledger with tools := tools } : SemanticItemLedger).skeleton =
      ledger.skeleton := by
    simp only [skeleton, tools_same]
  rw [WellFormed, same]
  exact wellFormed

end SemanticItemLedger

end GhcGateway.Conversion
