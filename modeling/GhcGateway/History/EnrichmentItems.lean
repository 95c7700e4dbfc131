/-
# The items of a completed request

Every item of a request has at most one identity that matters to `enrich`: a call
its call id, a reasoning item its carrier, an output the id of the call it belongs
to. Filling the empty fields of a call leaves all of them alone.

The items of a checkpoint that could be read have the identities they are stored
under, and no two of them have the same.
-/

import GhcGateway.History.Enrichment
import GhcGateway.History.Recording

namespace GhcGateway.History

open Library

variable {item : WireJsonObject} {callId key : JsString} {formatVersion : ReplayFormatVersion}
  {items : List StoredReplayItem} {state next : Validation} {checkpoint : StoredResponse}
  {options : HistoryOptions}

/-! ## Identities -/

def callId? : WireJson → Option JsString
  | .object item => if isCallItem item then strictCallIdFromItem item else none
  | _ => none

def carrier? : WireJson → Option JsString
  | .object item => if isReasoningItem item then reasoningCarrier item else none
  | _ => none

def outputCallId? : WireJson → Option JsString
  | .object item => if isOutputItem item then strictCallIdFromItem item else none
  | _ => none

theorem ofText?_text (kind : ResponsesCallKind) :
    ResponsesCallKind.ofText? (js kind.text) = some kind := by
  cases kind <;> decide

/-- The text of a kind of call is its type. -/
theorem callKind?_of_type {kind : ResponsesCallKind}
    (types : memberValues item (js "type") = [.string (js kind.text)]) :
    callKind? item = some kind := by
  rw [callKind?, types]
  exact ofText?_text kind

theorem isCallItem_iff :
    isCallItem item = true ↔ ∃ kind : ResponsesCallKind,
      memberValues item (js "type") = [.string (js kind.text)] := by
  rw [isCallItem, Option.isSome_iff_exists]
  constructor
  · intro ⟨kind, found⟩
    exact ⟨kind, type_of_callKind? found⟩
  · intro ⟨kind, types⟩
    exact ⟨kind, callKind?_of_type types⟩

theorem isOutputItem_iff :
    isOutputItem item = true ↔ ∃ type ∈ responseCallOutputKinds,
      memberValues item (js "type") = [.string type] := by
  unfold isOutputItem
  split
  case h_1 type types =>
    rw [types, decide_eq_true_iff]
    constructor
    · intro member
      exact ⟨type, member, rfl⟩
    · intro ⟨other, member, same⟩
      cases same
      exact member
  case h_2 others =>
    constructor
    · intro absurd
      cases absurd
    · intro ⟨type, _, types⟩
      exact (others type types).elim

theorem not_isReasoningItem_of_isCallItem (call : isCallItem item = true) :
    isReasoningItem item = false := by
  obtain ⟨kind, types⟩ := isCallItem_iff.mp call
  rw [isReasoningItem, types]
  cases kind <;> decide

theorem not_isCallItem_of_isOutputItem (output : isOutputItem item = true) :
    isCallItem item = false := by
  obtain ⟨type, member, types⟩ := isOutputItem_iff.mp output
  have noKind : ∀ type ∈ responseCallOutputKinds, ResponsesCallKind.ofText? type = none := by
    decide
  rw [isCallItem, callKind?, types]
  show (ResponsesCallKind.ofText? type).isSome = false
  rw [noKind type member]
  rfl

theorem not_isReasoningItem_of_isOutputItem (output : isOutputItem item = true) :
    isReasoningItem item = false := by
  obtain ⟨type, member, types⟩ := isOutputItem_iff.mp output
  have apart : type ≠ js "reasoning" := by
    intro same
    subst same
    revert member
    decide
  rw [isReasoningItem, types]
  apply decide_eq_false
  intro same
  have heads := (List.cons.inj same).1
  exact apart (WireJson.string.inj heads)

theorem callId?_object (call : isCallItem item = true) :
    callId? (.object item) = strictCallIdFromItem item := if_pos call

theorem carrier?_object (reasoning : isReasoningItem item = true) :
    carrier? (.object item) = reasoningCarrier item := if_pos reasoning

theorem outputCallId?_object (output : isOutputItem item = true) :
    outputCallId? (.object item) = strictCallIdFromItem item := if_pos output

theorem callId?_eq_some {item : WireJson} (has : callId? item = some callId) :
    ∃ members, item = .object members ∧ isCallItem members = true ∧
      strictCallIdFromItem members = some callId := by
  unfold callId? at has
  split at has
  case h_1 members =>
    by_cases call : isCallItem members = true
    · rw [if_pos call] at has
      exact ⟨members, rfl, call, has⟩
    · rw [if_neg call] at has
      cases has
  case h_2 => cases has

theorem carrier?_eq_some {item : WireJson} {carrier : JsString}
    (has : carrier? item = some carrier) :
    ∃ members, item = .object members ∧ isReasoningItem members = true ∧
      reasoningCarrier members = some carrier := by
  unfold carrier? at has
  split at has
  case h_1 members =>
    by_cases reasoning : isReasoningItem members = true
    · rw [if_pos reasoning] at has
      exact ⟨members, rfl, reasoning, has⟩
    · rw [if_neg reasoning] at has
      cases has
  case h_2 => cases has

theorem callId?_of_isOutputItem (output : isOutputItem item = true) :
    callId? (.object item) = none :=
  if_neg (Bool.eq_false_iff.mp (not_isCallItem_of_isOutputItem output))

theorem callId?_of_isReasoningItem (reasoning : isReasoningItem item = true) :
    callId? (.object item) = none := by
  apply if_neg
  intro call
  rw [not_isReasoningItem_of_isCallItem call] at reasoning
  cases reasoning

theorem outputCallId?_of_isReasoningItem (reasoning : isReasoningItem item = true) :
    outputCallId? (.object item) = none := by
  apply if_neg
  intro output
  rw [not_isReasoningItem_of_isOutputItem output] at reasoning
  cases reasoning

theorem outputCallId?_of_callId? {item : WireJson} (has : callId? item = some callId) :
    outputCallId? item = none := by
  obtain ⟨members, rfl, call, _⟩ := callId?_eq_some has
  apply if_neg
  intro output
  rw [not_isCallItem_of_isOutputItem output] at call
  cases call

theorem carrier?_of_callId? {item : WireJson} (has : callId? item = some callId) :
    carrier? item = none := by
  obtain ⟨members, rfl, call, _⟩ := callId?_eq_some has
  exact if_neg (Bool.eq_false_iff.mp (not_isReasoningItem_of_isCallItem call))

/-! ## Filling -/

/-- Filling keeps the key of a member. -/
theorem fillMember_fst (cached : WireJsonObject) (member : JsString × WireJson) :
    (fillMember cached member).1 = member.1 := by
  unfold fillMember
  split
  · split <;> rfl
  · rfl

/-- A member that is not to be filled is as it was. -/
theorem fillMember_of_not_mem {member : JsString × WireJson} (kept : member.1 ∉ fillFields)
    (cached : WireJsonObject) : fillMember cached member = member :=
  if_neg fun filled => kept filled.1

theorem memberValues_fillEmptyFields (kept : key ∉ fillFields) (item cached : WireJsonObject) :
    memberValues (fillEmptyFields item cached) key = memberValues item key := by
  have filled : (item.map (fillMember cached)).filter (fun member => member.1 = key) =
      item.filter fun member => member.1 = key := by
    induction item with
    | nil => rfl
    | cons member item ih =>
      rw [List.map_cons, List.filter_cons, List.filter_cons, fillMember_fst, ih]
      by_cases same : member.1 = key
      · rw [fillMember_of_not_mem (same ▸ kept)]
      · rw [if_neg (by simpa using same), if_neg (by simpa using same)]
  unfold memberValues fillEmptyFields
  rw [List.filter_append, filled, List.map_append, List.append_right_eq_self, List.map_eq_nil_iff,
    List.filter_eq_nil_iff]
  intro member added
  rw [List.mem_filter, List.mem_filter, Bool.and_eq_true, decide_eq_true_iff] at added
  rw [decide_eq_true_iff]
  intro same
  exact kept (same ▸ added.1.2.1)

theorem callId?_fillEmptyFields (item cached : WireJsonObject) :
    callId? (.object (fillEmptyFields item cached)) = callId? (.object item) := by
  have types : memberValues (fillEmptyFields item cached) (js "type") =
      memberValues item (js "type") := memberValues_fillEmptyFields (by decide) item cached
  have callIds : memberValues (fillEmptyFields item cached) (js "call_id") =
      memberValues item (js "call_id") := memberValues_fillEmptyFields (by decide) item cached
  have ids : memberValues (fillEmptyFields item cached) (js "id") =
      memberValues item (js "id") := memberValues_fillEmptyFields (by decide) item cached
  have sameCall : isCallItem (fillEmptyFields item cached) = isCallItem item := by
    rw [isCallItem, isCallItem, callKind?, callKind?, types]
  have sameId : strictCallIdFromItem (fillEmptyFields item cached) = strictCallIdFromItem item := by
    unfold strictCallIdFromItem
    rw [callIds, ids]
  show (if isCallItem (fillEmptyFields item cached) then _ else none) =
    if isCallItem item then _ else none
  rw [sameCall, sameId]

/-! ## Stored items -/

theorem isReasoningItem_of_genuine {item : StoredReplayItem} (genuine : item.part.Genuine)
    (reasoning : item.kind = .reasoning) : isReasoningItem item.item = true := by
  have types : memberValues item.item (js "type") = [.string (js item.kind.text)] := genuine.1
  rw [reasoning] at types
  exact type_of_isReasoningItem.mpr types

/-- A stored call has the id it is stored under. -/
theorem callId_of_genuine {item : StoredReplayItem} (genuine : item.part.Genuine)
    (call : item.kind ≠ .reasoning) :
    ∃ callId, item.callId = some callId ∧ callId? (.object item.item) = some callId := by
  rcases kind_of_genuine genuine with ⟨reasoning, _⟩ | ⟨kind, callId, isCall, hasId, strict⟩
  · exact absurd reasoning call
  · have types : memberValues item.item (js "type") = [.string (js item.kind.text)] := genuine.1
    have isCall : item.kind = .call kind := isCall
    rw [isCall] at types
    have isCallItem : isCallItem item.item = true := isCallItem_iff.mpr ⟨kind, types⟩
    refine ⟨callId, hasId, ?_⟩
    rw [callId?_object isCallItem]
    exact strict

theorem storedCarrier?_of_reasoning {item : StoredReplayItem} (reasoning : item.kind = .reasoning) :
    item.carrier? = reasoningCarrier item.item := by
  unfold StoredReplayItem.carrier?
  rw [reasoning]

theorem storedCarrier?_of_call {item : StoredReplayItem} (call : item.kind ≠ .reasoning) :
    item.carrier? = none := by
  unfold StoredReplayItem.carrier?
  split
  case h_1 reasoning => exact absurd reasoning call
  case h_2 => rfl

/-- An id that was stored is not empty, and neither was the text it was read from. -/
theorem legacyStoredId_eq_some {value : WireJson} (stored : legacyStoredId value = some callId) :
    callId ≠ [] ∧ ∃ text, value = .string text ∧ text ≠ [] := by
  unfold legacyStoredId at stored
  split at stored
  case h_1 text =>
    split at stored
    case isTrue => cases stored
    case isFalse filled =>
      cases stored
      refine ⟨filled, text, rfl, ?_⟩
      intro empty
      subst empty
      exact filled (by decide)
  case h_2 => cases stored

theorem memberValues_restoreLegacyStoredCallId (apart : key ≠ js "call_id") (item : WireJsonObject)
    (callId : JsString) :
    memberValues (restoreLegacyStoredCallId item callId) key = memberValues item key := by
  have others : (item.map fun member =>
      if member.1 = js "call_id" then (member.1, .string callId) else member).filter
        (fun member => member.1 = key) = item.filter fun member => member.1 = key := by
    induction item with
    | nil => rfl
    | cons member item ih =>
      rw [List.map_cons, List.filter_cons, List.filter_cons, ih]
      by_cases same : member.1 = js "call_id"
      · have other : ¬ member.1 = key := fun eq => apart (eq.symm.trans same)
        simp [same, apart.symm]
      · rw [if_neg same]
  have last :
      [(js "call_id", WireJson.string callId)].filter (fun member => member.1 = key) = [] := by
    simp [apart.symm]
  unfold memberValues restoreLegacyStoredCallId
  dsimp only
  split
  · rw [others]
  · rw [List.filter_append, others, last, List.append_nil]

/-- Where there was at most one id, the restored one is the only one. -/
theorem memberValues_restoreLegacyStoredCallId_self
    (one : (memberValues item (js "call_id")).length ≤ 1) (callId : JsString) :
    memberValues (restoreLegacyStoredCallId item callId) (js "call_id") = [.string callId] := by
  have replaced :
      memberValues (item.map fun member =>
        if member.1 = js "call_id" then (member.1, WireJson.string callId) else member)
          (js "call_id") = (memberValues item (js "call_id")).map fun _ => .string callId := by
    clear one
    unfold memberValues
    induction item with
    | nil => rfl
    | cons member item ih =>
      rw [List.map_cons, List.filter_cons, List.filter_cons]
      by_cases same : member.1 = js "call_id"
      · simp [same, ih]
      · simp [same, ih]
  unfold restoreLegacyStoredCallId
  dsimp only
  split
  case isTrue has =>
    rw [replaced]
    obtain ⟨member, inItem, named⟩ := List.any_eq_true.mp has
    have present : member.2 ∈ memberValues item (js "call_id") :=
      List.mem_map_of_mem (List.mem_filter.mpr ⟨inItem, named⟩)
    obtain ⟨value, isOne⟩ := List.length_eq_one_iff.mp
      (Nat.le_antisymm one (List.length_pos_of_mem present))
    rw [isOne]
    rfl
  case isFalse hasNot =>
    have none : memberValues item (js "call_id") = [] := by
      rw [memberValues, List.map_eq_nil_iff, List.filter_eq_nil_iff]
      intro member inItem named
      exact hasNot (List.any_eq_true.mpr ⟨member, inItem, named⟩)
    rw [memberValues, List.filter_append, List.map_append]
    have nothing := replaced
    rw [none, memberValues] at nothing
    rw [nothing]
    rfl

/-- An id that an earlier version stored is put where ids are looked for now. -/
theorem strictCallIdFromItem_restoreLegacyStoredCallId
    (stored : legacyStoredCallIdFromItem item = some callId) :
    strictCallIdFromItem (restoreLegacyStoredCallId item callId) = some callId := by
  have ids : memberValues (restoreLegacyStoredCallId item callId) (js "id") =
      memberValues item (js "id") :=
    memberValues_restoreLegacyStoredCallId (by decide) item callId
  have restored : (memberValues item (js "call_id")).length ≤ 1 → callId ≠ [] →
      (memberValues item (js "id") = [] ∨
        ∃ id, memberValues item (js "id") = [.string id] ∧ id ≠ []) →
      strictCallIdFromItem (restoreLegacyStoredCallId item callId) = some callId := by
    intro one filled sound
    unfold strictCallIdFromItem
    rw [ids, memberValues_restoreLegacyStoredCallId_self one callId]
    rcases sound with none | ⟨id, isId, idFilled⟩
    · rw [none]
      exact if_neg filled
    · rw [isId]
      apply if_neg
      rintro (empty | empty)
      · exact filled empty
      · exact idFilled empty
  unfold legacyStoredCallIdFromItem at stored
  split at stored
  case h_1 => cases stored
  case h_2 value noCallId oneId =>
    obtain ⟨filled, id, isId, idFilled⟩ := legacyStoredId_eq_some stored
    rw [isId] at oneId
    apply restored _ filled (.inr ⟨id, oneId, idFilled⟩)
    rw [noCallId]
    exact Nat.zero_le 1
  case h_3 value oneCallId noId =>
    obtain ⟨filled, _⟩ := legacyStoredId_eq_some stored
    apply restored _ filled (.inl noId)
    rw [oneCallId]
    exact Nat.le_refl 1
  case h_4 callValue value oneCallId oneId =>
    split at stored
    case h_1 first second isFirst isSecond =>
      cases stored
      obtain ⟨filled, _⟩ := legacyStoredId_eq_some isFirst
      obtain ⟨_, id, isId, idFilled⟩ := legacyStoredId_eq_some isSecond
      rw [isId] at oneId
      apply restored _ filled (.inr ⟨id, oneId, idFilled⟩)
      rw [oneCallId]
      exact Nat.le_refl 1
    case h_2 => cases stored
  case h_5 => cases stored

/-- What a row is read as is what it says it is. -/
theorem genuine_replayItemFromRow {row : ReplayItemRow} {read : StoredReplayItem}
    (isRead : replayItemFromRow formatVersion row item = .ok read) : read.part.Genuine := by
  obtain ⟨groupOrdinal, itemOrdinal, kind, callId, itemJson, itemBytes⟩ := row
  rw [replayItemFromRow] at isRead
  obtain ⟨_, typed, rest⟩ := bind_eq_ok.mp isRead
  have types : memberValues item (js "type") = [.string (js kind.text)] :=
    not_not.mp (unavailableIf_eq_ok.mp typed)
  split at rest
  case h_1 isReasoning noId =>
    have isReasoning : kind = .reasoning := isReasoning
    obtain ⟨_, noMember, returned⟩ := bind_eq_ok.mp rest
    cases returned
    rw [isReasoning] at types
    have noCallId : memberValues item (js "call_id") = [] :=
      not_not.mp (unavailableIf_eq_ok.mp noMember)
    exact ⟨types, noCallId⟩
  case h_2 call id isCall hasId =>
    have isCall : kind = .call call := isCall
    obtain ⟨_, identified, returned⟩ := bind_eq_ok.mp rest
    cases returned
    rw [isCall] at types
    by_cases strict : strictCallIdFromItem item = some id
    · refine ⟨?_, ?_⟩
      · show memberValues (if strictCallIdFromItem item = some id then item else _) _ = _
        rw [if_pos strict]
        exact types
      · show strictCallIdFromItem (if strictCallIdFromItem item = some id then item else _) = _
        rw [if_pos strict]
        exact strict
    · have legacy : legacyStoredCallIdFromItem item = some id := by
        have either := unavailableIf_eq_ok.mp identified
        by_contra other
        apply either
        refine ⟨strict, ?_⟩
        split
        · exact other
        · exact nofun
      refine ⟨?_, ?_⟩
      · show memberValues (if strictCallIdFromItem item = some id then item else _) _ = _
        rw [if_neg strict, memberValues_restoreLegacyStoredCallId (by decide)]
        exact types
      · show strictCallIdFromItem (if strictCallIdFromItem item = some id then item else _) = _
        rw [if_neg strict]
        exact strictCallIdFromItem_restoreLegacyStoredCallId legacy
  case h_3 => cases rest

/-! ## Stored responses -/

theorem genuine_readReplayItems {rows : List ReplayItemRow} :
    ∀ {bytes : Nat} {read : Nat × List StoredReplayItem},
    readReplayItems options formatVersion bytes rows = .ok read →
      ∀ item ∈ read.2, item.part.Genuine := by
  induction rows with
  | nil =>
    intro bytes read isRead item member
    cases isRead
    cases member
  | cons row rows ih =>
    intro bytes read isRead
    rw [readReplayItems] at isRead
    obtain ⟨⟨size, first⟩, one, rest⟩ := bind_eq_ok.mp isRead
    obtain ⟨⟨total, others⟩, more, returned⟩ := bind_eq_ok.mp rest
    cases returned
    have genuine : first.part.Genuine := by
      rw [readReplayItem] at one
      obtain ⟨_, _, one⟩ := bind_eq_ok.mp one
      obtain ⟨_, _, one⟩ := bind_eq_ok.mp one
      obtain ⟨_, _, one⟩ := bind_eq_ok.mp one
      split at one
      case h_1 =>
        obtain ⟨_, fromRow, returned⟩ := bind_eq_ok.mp one
        cases returned
        exact genuine_replayItemFromRow fromRow
      case h_2 => cases one
    intro item member
    rcases List.mem_cons.mp member with rfl | other
    · exact genuine
    · exact ih more item other

/-- The first format stores no reasoning. -/
theorem calls_of_validateItems : ∀ {state : Validation},
    validateItems .one state items = .ok () → ∀ item ∈ items, item.kind ≠ .reasoning := by
  induction items with
  | nil => exact fun _ _ member => nomatch member
  | cons item items ih =>
    intro state valid
    rw [validateItems] at valid
    obtain ⟨placed, place, rest⟩ := bind_eq_ok.mp valid
    obtain ⟨called, _, rest⟩ := bind_eq_ok.mp rest
    obtain ⟨_, checked, _⟩ := bind_eq_ok.mp place
    intro other member
    rcases List.mem_cons.mp member with rfl | member
    · exact fun reasoning => unavailableIf_eq_ok.mp checked (.inl reasoning)
    · exact ih rest other member

/-- The carrier of an item is new and remembered. -/
theorem carriers_of_validateKind {item : StoredReplayItem}
    (valid : validateKind state item = .ok next) :
    next.reasoningCarriers = item.carrier?.toList ++ state.reasoningCarriers ∧
      ∀ carrier, item.carrier? = some carrier → carrier ∉ state.reasoningCarriers := by
  unfold validateKind at valid
  split at valid
  case h_1 reasoning =>
    rw [storedCarrier?_of_reasoning reasoning]
    obtain ⟨middle, remembered, rest⟩ := bind_eq_ok.mp valid
    obtain ⟨_, _, returned⟩ := bind_eq_ok.mp rest
    cases returned
    unfold validateCarrier at remembered
    split at remembered
    case h_1 none =>
      cases remembered
      rw [none]
      exact ⟨rfl, fun _ some => nomatch some⟩
    case h_2 carrier found =>
      obtain ⟨_, fresh, returned⟩ := bind_eq_ok.mp remembered
      cases returned
      rw [found]
      refine ⟨rfl, ?_⟩
      intro other same
      cases same
      exact unavailableIf_eq_ok.mp fresh
  case h_2 kind call =>
    have none : item.carrier? = none := storedCarrier?_of_call (by rw [call]; exact nofun)
    cases valid
    rw [none]
    exact ⟨rfl, fun _ some => nomatch some⟩

theorem carriers_of_validatePlace {item : StoredReplayItem} {after : Option StoredReplayItem}
    (valid : validatePlace .two state item after = .ok next) :
    next.reasoningCarriers = item.carrier?.toList ++ state.reasoningCarriers ∧
      ∀ carrier, item.carrier? = some carrier → carrier ∉ state.reasoningCarriers := by
  have valid : validateGrouping state item after = .ok next := valid
  unfold validateGrouping at valid
  obtain ⟨_, _, rest⟩ := bind_eq_ok.mp valid
  obtain ⟨middle, kind, rest⟩ := bind_eq_ok.mp rest
  have carriers := carriers_of_validateKind kind
  split at rest
  · cases rest
    exact carriers
  · obtain ⟨_, _, returned⟩ := bind_eq_ok.mp rest
    cases returned
    exact carriers

theorem carriers_of_validateCall {item : StoredReplayItem}
    (valid : validateCall state item = .ok next) :
    next.reasoningCarriers = state.reasoningCarriers := by
  unfold validateCall at valid
  split at valid
  case h_1 =>
    obtain ⟨_, _, returned⟩ := bind_eq_ok.mp valid
    cases returned
    rfl
  case h_2 =>
    cases valid
    rfl

/-- No two reasoning items of the second format have one carrier. -/
theorem nodup_carriers_of_validateItems :
    ∀ {state : Validation}, validateItems .two state items = .ok () →
      (items.filterMap StoredReplayItem.carrier?).Nodup ∧
        ∀ carrier ∈ items.filterMap StoredReplayItem.carrier?,
          carrier ∉ state.reasoningCarriers := by
  induction items with
  | nil => exact fun _ => ⟨List.nodup_nil, fun _ member => nomatch member⟩
  | cons item items ih =>
    intro state valid
    rw [validateItems] at valid
    obtain ⟨placed, place, rest⟩ := bind_eq_ok.mp valid
    obtain ⟨called, call, rest⟩ := bind_eq_ok.mp rest
    obtain ⟨nodup, fresh⟩ := ih rest
    obtain ⟨remembered, new⟩ := carriers_of_validatePlace place
    rw [carriers_of_validateCall call, remembered] at fresh
    cases found : item.carrier? with
    | none =>
      rw [found] at fresh
      rw [List.filterMap_cons_none found]
      exact ⟨nodup, fresh⟩
    | some carrier =>
      rw [found] at fresh
      rw [List.filterMap_cons_some found]
      refine ⟨List.nodup_cons.mpr ⟨?_, nodup⟩, ?_⟩
      · intro again
        exact fresh carrier again List.mem_cons_self
      · intro other member known
        rcases List.mem_cons.mp member with rfl | later
        · exact new other found known
        · exact fresh other later (List.mem_cons_of_mem _ known)

/-- What `readResponse` guarantees of a stored response. -/
structure StoredResponse.Sound (checkpoint : StoredResponse) : Prop where
  calls : checkpoint.calls = checkpoint.items.filter fun item => item.kind ≠ .reasoning
  genuine : ∀ item ∈ checkpoint.items, item.part.Genuine
  callIds : (checkpoint.calls.map StoredReplayItem.callId).Nodup
  carriers : checkpoint.carriers.Nodup
  noReasoning : checkpoint.formatVersion = .one →
    ∀ item ∈ checkpoint.items, item.kind ≠ .reasoning

theorem sound_responseFromReplay {replay : StoredReplay}
    (genuine : ∀ item ∈ replay.items, item.part.Genuine)
    (valid : validateStoredReplay replay.formatVersion replay.items = .ok ())
    (restored : responseFromReplay replay = .ok checkpoint) : checkpoint.Sound := by
  unfold responseFromReplay at restored
  dsimp only at restored
  split at restored
  case isTrue nodup =>
    cases restored
    obtain ⟨formatVersion, items, itemCount, bytes⟩ := replay
    cases formatVersion with
    | one =>
      have onlyCalls := calls_of_validateItems valid
      have none : items.filterMap StoredReplayItem.carrier? = [] := by
        rw [List.filterMap_eq_nil_iff]
        intro item member
        exact storedCarrier?_of_call (onlyCalls item member)
      refine ⟨rfl, genuine, nodup, ?_, fun _ => onlyCalls⟩
      unfold StoredResponse.carriers
      dsimp only
      rw [none]
      exact List.nodup_nil
    | two =>
      have carriers := (nodup_carriers_of_validateItems valid).1
      exact ⟨rfl, genuine, nodup, carriers, fun first => nomatch first⟩
  case isFalse => cases restored

/-- Whatever the database holds, a response that can be read is sound. -/
theorem sound_readResponse {db : Database} {key : ReceiptKey}
    (isRead : db.readResponse options key = .ok (some checkpoint)) : checkpoint.Sound := by
  unfold Database.readResponse at isRead
  split at isRead
  case h_1 => cases isRead
  case h_2 row _ =>
    obtain ⟨replay, readBack, rest⟩ := bind_eq_ok.mp isRead
    obtain ⟨response, restored, returned⟩ := bind_eq_ok.mp rest
    cases returned
    unfold readReplay at readBack
    obtain ⟨_, _, readBack⟩ := bind_eq_ok.mp readBack
    obtain ⟨_, _, readBack⟩ := bind_eq_ok.mp readBack
    obtain ⟨_, _, readBack⟩ := bind_eq_ok.mp readBack
    obtain ⟨⟨bytes, items⟩, read, readBack⟩ := bind_eq_ok.mp readBack
    obtain ⟨_, _, readBack⟩ := bind_eq_ok.mp readBack
    obtain ⟨_, valid, returned⟩ := bind_eq_ok.mp readBack
    cases returned
    exact sound_responseFromReplay (genuine_readReplayItems read) valid restored

end GhcGateway.History
