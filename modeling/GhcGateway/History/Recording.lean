/-
# What a response output leaves in a replay

The items that `extractRecordableReplay` keeps of an output are its calls, each cut down to
the members that are needed, and in the second format the reasoning items that have a call
somewhere after them (`recordedItems`). They stand in their order, numbered as the reader
expects: in the first format through the whole replay, in the second by groups, each some
reasoning items and then at least one call.
-/

import GhcGateway.History.Extraction
import Mathlib.Data.List.DropRight

namespace GhcGateway.History

open Library

/-! ## The recorded items -/

/-- What may be recorded of an output item. -/
def candidate (formatVersion : ReplayFormatVersion) : WireJson → Option WireJsonObject
  | .object item =>
    if isReasoningItem item then
      match formatVersion with
      | .one => none
      | .two => some item
    else (callKind? item).map fun _ => minimalCallItem item
  | _ => none

/-- What is recorded of an output: nothing of what follows the last call. -/
def recordedItems (formatVersion : ReplayFormatVersion) (output : ResponseOutput) :
    List WireJsonObject :=
  ((outputItems output).filterMap (candidate formatVersion)).rdropWhile isReasoningItem

/-! ## Items -/

variable {formatVersion : ReplayFormatVersion} {item : WireJsonObject}

theorem candidate_object (notReasoning : isReasoningItem item = false) :
    candidate formatVersion (.object item) = (callKind? item).map fun _ =>
      minimalCallItem item := by
  unfold candidate
  dsimp only
  rw [if_neg (Bool.eq_false_iff.mp notReasoning)]

/-- A stored item without its place and its text. -/
def StoredReplayItem.part (item : StoredReplayItem) : GroupItem :=
    ⟨item.kind, item.callId, item.item⟩

def GroupItem.Genuine (part : GroupItem) : Prop :=
  memberValues part.item (js "type") = [.string (js part.kind.text)] ∧
    match part.kind, part.callId with
    | .reasoning, none => memberValues part.item (js "call_id") = []
    | .call _, some callId => strictCallIdFromItem part.item = some callId
    | _, _ => False

variable {part : GroupItem}

/-- What an item is, case by case. -/
theorem kind_of_genuine (genuine : part.Genuine) :
    part.kind = .reasoning ∧ part.callId = none ∧ memberValues part.item (js "call_id") = [] ∨
      ∃ kind callId, part.kind = .call kind ∧ part.callId = some callId ∧
        strictCallIdFromItem part.item = some callId := by
  obtain ⟨kind, callId, item⟩ := part
  have shape := genuine.2
  dsimp only at shape ⊢
  split at shape
  case h_1 => exact .inl ⟨rfl, rfl, shape⟩
  case h_2 kind callId => exact .inr ⟨kind, callId, rfl, rfl, shape⟩
  case h_3 => exact shape.elim

def GroupItem.carrier (part : GroupItem) : Option JsString :=
  if part.kind = .reasoning then reasoningCarrier part.item else none

/-- The text of a stored item is its item, serialized. -/
def StoredReplayItem.Written (options : HistoryOptions) (item : StoredReplayItem) : Prop :=
  encodeReplayItem item.item options.maxReplayItemBytes = .ok (item.itemJson, item.itemBytes)

/-- Items numbered from `itemOrdinal` in one group. -/
def Placed (groupOrdinal : Nat) : Nat → List StoredReplayItem → Prop
  | _, [] => True
  | itemOrdinal, item :: items =>
    item.groupOrdinal = groupOrdinal ∧ item.itemOrdinal = itemOrdinal ∧
      Placed groupOrdinal (itemOrdinal + 1) items

variable {items : List StoredReplayItem} {groupOrdinal : Nat}

theorem placed_concat {item : StoredReplayItem} :
    ∀ {itemOrdinal : Nat}, Placed groupOrdinal itemOrdinal items →
    item.groupOrdinal = groupOrdinal → item.itemOrdinal = itemOrdinal + items.length →
    Placed groupOrdinal itemOrdinal (items ++ [item]) := by
  induction items with
  | nil => exact fun _ sameGroup place => ⟨sameGroup, place, trivial⟩
  | cons first items ih =>
    intro itemOrdinal placed sameGroup place
    refine ⟨placed.1, placed.2.1, ih placed.2.2 sameGroup ?_⟩
    rw [place, List.length_cons]
    omega

/-- Some reasoning items, and then some calls. -/
def Shaped (parts : List GroupItem) : Prop :=
  ∃ reasoning calls, parts = reasoning ++ calls ∧ (∀ part ∈ reasoning, part.kind = .reasoning) ∧
    ∀ part ∈ calls, part.kind ≠ .reasoning

/-- One group: it has a call, and its items are numbered. -/
structure Group (groupOrdinal : Nat) (items : List StoredReplayItem) : Prop where
  shaped : Shaped (items.map StoredReplayItem.part)
  called : hasCall (items.map StoredReplayItem.part) = true
  placed : Placed groupOrdinal 0 items

/-- Groups with the numbers from `first` up to `next`. -/
inductive Groups : Nat → Nat → List StoredReplayItem → Prop
  | nil (first : Nat) : Groups first first []
  | cons {first next : Nat} {group items : List StoredReplayItem} (isGroup : Group first group)
      (rest : Groups (first + 1) next items) : Groups first next (group ++ items)

variable {first : Nat}

theorem Groups.concat {next : Nat} {group : List StoredReplayItem}
    (groups : Groups first next items) (isGroup : Group next group) :
    Groups first (next + 1) (items ++ group) := by
  induction groups with
  | nil first =>
    have whole := Groups.cons isGroup (.nil (first + 1))
    rw [List.append_nil] at whole
    exact whole
  | cons head _ ih =>
    rw [List.append_assoc]
    exact .cons head (ih isGroup)

/-! ## Collecting -/

variable {options : HistoryOptions}

/-- What has been collected so far, stored or in the current group. -/
def Extraction.parts (state : Extraction) : List GroupItem :=
  state.items.map StoredReplayItem.part ++ state.group

/-- Where the stored items stand, and what the current group may be. -/
def Extraction.Arranged (state : Extraction) : ReplayFormatVersion → Prop
  | .one => state.group = [] ∧ Placed 0 0 state.items ∧ ∀ item ∈ state.items, item.kind ≠ .reasoning
  | .two => Groups 0 state.groupOrdinal state.items ∧ Shaped state.group

/-- The items collected from some output items: these, with ids and carriers that are all
different and known. -/
structure PartsSound (formatVersion : ReplayFormatVersion) (visited : List WireJson)
    (callIds carriers : List JsString) (parts : List GroupItem) : Prop where
  recorded : parts.map GroupItem.item = visited.filterMap (candidate formatVersion)
  genuine : ∀ part ∈ parts, part.Genuine
  distinctIds : (parts.filterMap GroupItem.callId).Nodup
  idsKnown : ∀ callId ∈ parts.filterMap GroupItem.callId, callId ∈ callIds
  distinctCarriers : (parts.filterMap GroupItem.carrier).Nodup
  carriersKnown : ∀ carrier ∈ parts.filterMap GroupItem.carrier, carrier ∈ carriers

/-- What holds of the variables after some output items. -/
structure Extraction.Collected (options : HistoryOptions) (formatVersion : ReplayFormatVersion)
    (visited : List WireJson) (state : Extraction) : Prop where
  sound : PartsSound formatVersion visited state.callIds state.reasoningCarriers state.parts
  arranged : state.Arranged formatVersion
  written : ∀ item ∈ state.items, item.Written options
  count : state.items.length ≤ options.maxReplayItems
  bytes : state.bytes ≤ options.maxReplayBytes

theorem shaped_nil : Shaped [] :=
  ⟨[], [], rfl, (fun _ member => nomatch member), fun _ member => nomatch member⟩

theorem collected_start (formatVersion : ReplayFormatVersion) :
    Extraction.start.Collected options formatVersion [] where
  sound := {
    recorded := rfl
    genuine := fun _ member => nomatch member
    distinctIds := List.nodup_nil
    idsKnown := fun _ member => nomatch member
    distinctCarriers := List.nodup_nil
    carriersKnown := fun _ member => nomatch member }
  arranged := by
    cases formatVersion with
    | one => exact ⟨rfl, trivial, fun _ member => nomatch member⟩
    | two => exact ⟨.nil 0, shaped_nil⟩
  written := fun _ member => nomatch member
  count := Nat.zero_le _
  bytes := Nat.zero_le _

/-! ## Pushing -/

variable {state next : Extraction}

theorem push_eq_ok {itemOrdinal : Nat}
    (pushed : state.push options groupOrdinal itemOrdinal part = .ok next) :
    ∃ item : StoredReplayItem, item.part = part ∧ item.groupOrdinal = groupOrdinal ∧
      item.itemOrdinal = itemOrdinal ∧ item.Written options ∧
      next = { state with items := state.items ++ [item], bytes := state.bytes + item.itemBytes } ∧
      next.items.length ≤ options.maxReplayItems ∧ next.bytes ≤ options.maxReplayBytes := by
  rw [Extraction.push] at pushed
  obtain ⟨⟨itemJson, itemBytes⟩, encoded, rest⟩ := bind_eq_ok.mp pushed
  obtain ⟨_, fits, returned⟩ := bind_eq_ok.mp rest
  have fits := unavailableIf_eq_ok.mp fits
  cases returned
  refine ⟨⟨groupOrdinal, itemOrdinal, part.kind, part.callId, part.item, itemJson, itemBytes⟩, rfl,
    rfl, rfl, encoded, rfl, ?_, ?_⟩
  · show (state.items ++ [_]).length ≤ _
    rw [List.length_append, List.length_singleton]
    omega
  · show state.bytes + itemBytes ≤ _
    omega

variable {group : List GroupItem}

/-- A group is stored as it is, in its order. -/
theorem pushGroup_eq_ok : ∀ {state next : Extraction} {itemOrdinal : Nat},
    state.items.length ≤ options.maxReplayItems → state.bytes ≤ options.maxReplayBytes →
    state.pushGroup options itemOrdinal group = .ok next →
    ∃ stored bytes, next = { state with items := state.items ++ stored, bytes } ∧
      stored.map StoredReplayItem.part = group ∧ Placed state.groupOrdinal itemOrdinal stored ∧
      (∀ item ∈ stored, item.Written options) ∧ next.items.length ≤ options.maxReplayItems ∧
      next.bytes ≤ options.maxReplayBytes := by
  induction group with
  | nil =>
    intro state next itemOrdinal count bytes pushed
    cases pushed
    exact ⟨[], state.bytes, by rw [List.append_nil], rfl, trivial, (fun _ member => nomatch member),
      count, bytes⟩
  | cons part group ih =>
    intro state next itemOrdinal count bytes pushed
    rw [Extraction.pushGroup] at pushed
    obtain ⟨middle, first, rest⟩ := bind_eq_ok.mp pushed
    obtain ⟨item, isPart, sameGroup, place, written, isMiddle, count, bytes⟩ := push_eq_ok first
    subst isMiddle
    obtain ⟨stored, total, isNext, parts, placed, allWritten, countNext, bytesNext⟩ :=
      ih count bytes rest
    refine ⟨item :: stored, total, ?_, ?_, ⟨sameGroup, place, placed⟩, ?_, countNext, bytesNext⟩
    · rw [isNext]
      simp
    · rw [List.map_cons, isPart, parts]
    · intro other member
      rcases List.mem_cons.mp member with rfl | isStored
      · exact written
      · exact allWritten other isStored

variable {visited : List WireJson}

/-- A group that has a call is stored, and nothing else changes. -/
theorem Extraction.Collected.finishGroup (collected : state.Collected options .two visited)
    (called : hasCall state.group = true) (finished : state.finishGroup options = .ok next) :
    next.Collected options .two visited ∧ next.group = [] ∧ next.callIds = state.callIds ∧
      next.reasoningCarriers = state.reasoningCarriers ∧ next.parts = state.parts := by
  rw [Extraction.finishGroup, if_pos called] at finished
  obtain ⟨pushed, pushes, returned⟩ := bind_eq_ok.mp finished
  obtain ⟨stored, bytes, rfl, parts, placed, written, count, total⟩ :=
    pushGroup_eq_ok collected.count collected.bytes pushes
  cases returned
  have sameParts : (state.items ++ stored).map StoredReplayItem.part ++ [] = state.parts := by
    rw [List.map_append, parts, List.append_nil, Extraction.parts]
  obtain ⟨groups, shaped⟩ := collected.arranged
  refine ⟨⟨?_, ?_, ?_, count, total⟩, rfl, rfl, rfl, sameParts⟩
  · show PartsSound .two visited state.callIds state.reasoningCarriers
      ((state.items ++ stored).map StoredReplayItem.part ++ [])
    rw [sameParts]
    exact collected.sound
  · exact ⟨groups.concat ⟨parts ▸ shaped, parts ▸ called, placed⟩, shaped_nil⟩
  · intro item member
    rcases List.mem_append.mp member with old | new
    · exact collected.written item old
    · exact written item new

/-! ## Adding -/

theorem filterMap_concat {α β : Type} (choose : α → Option β) (items : List α) (item : α) :
    (items ++ [item]).filterMap choose = items.filterMap choose ++ (choose item).toList := by
  rw [List.filterMap_append]
  cases chosen : choose item with
  | none => rw [List.filterMap_cons_none chosen]; rfl
  | some value => rw [List.filterMap_cons_some chosen]; rfl

variable {parts : List GroupItem} {carriers callIds : List JsString}

/-- An item that is new in its id and its carrier. -/
theorem PartsSound.concat {item : WireJson}
    (sound : PartsSound formatVersion visited callIds carriers parts) (genuine : part.Genuine)
    (recorded : candidate formatVersion item = some part.item)
    (freshId : ∀ callId, part.callId = some callId → callId ∉ callIds)
    (freshCarrier : ∀ carrier, part.carrier = some carrier → carrier ∉ carriers) :
    PartsSound formatVersion (visited ++ [item]) (part.callId.toList ++ callIds)
      (part.carrier.toList ++ carriers) (parts ++ [part]) where
  recorded := by
    rw [List.map_append, sound.recorded, filterMap_concat, recorded]
    rfl
  genuine := fun other member => by
    rcases List.mem_append.mp member with old | new
    · exact sound.genuine other old
    · rw [List.mem_singleton.mp new]
      exact genuine
  distinctIds := by
    rw [filterMap_concat, List.nodup_append]
    refine ⟨sound.distinctIds, ?_, ?_⟩
    · cases part.callId with
      | none => exact List.nodup_nil
      | some callId => exact List.nodup_singleton _
    · intro known isKnown callId isNew same
      exact freshId callId (Option.mem_toList.mp isNew) (same ▸ sound.idsKnown known isKnown)
  idsKnown := fun callId member => by
    rw [filterMap_concat] at member
    rcases List.mem_append.mp member with old | new
    · exact List.mem_append_right _ (sound.idsKnown callId old)
    · exact List.mem_append_left _ new
  distinctCarriers := by
    rw [filterMap_concat, List.nodup_append]
    refine ⟨sound.distinctCarriers, ?_, ?_⟩
    · cases part.carrier with
      | none => exact List.nodup_nil
      | some carrier => exact List.nodup_singleton _
    · intro known isKnown carrier isNew same
      exact freshCarrier carrier (Option.mem_toList.mp isNew)
        (same ▸ sound.carriersKnown known isKnown)
  carriersKnown := fun carrier member => by
    rw [filterMap_concat] at member
    rcases List.mem_append.mp member with old | new
    · exact List.mem_append_right _ (sound.carriersKnown carrier old)
    · exact List.mem_append_left _ new

/-- An item that is not recorded. -/
theorem PartsSound.skip {item : WireJson}
    (sound : PartsSound formatVersion visited callIds carriers parts)
    (skipped : candidate formatVersion item = none) :
    PartsSound formatVersion (visited ++ [item]) callIds carriers parts :=
  { sound with
    recorded := by
      rw [sound.recorded, filterMap_concat, skipped]
      exact (List.append_nil _).symm }

theorem type_of_isReasoningItem :
    isReasoningItem item = true ↔ memberValues item (js "type") = [.string (js "reasoning")] :=
  decide_eq_true_iff

variable {kind : ResponsesCallKind}

theorem ofText?_eq_some {type : JsString} (found : ResponsesCallKind.ofText? type = some kind) :
    type = js kind.text := by
  unfold ResponsesCallKind.ofText? at found
  have same := List.find?_some found
  exact (of_decide_eq_true same).symm

theorem type_of_callKind? (found : callKind? item = some kind) :
    memberValues item (js "type") = [.string (js kind.text)] := by
  unfold callKind? at found
  split at found
  case h_1 type types => rw [types, ofText?_eq_some found]
  case h_2 => cases found

/-- The members that are needed are kept. -/
theorem memberValues_minimalCallItem {key : JsString} (needed : key ∈ minimalCallFields) :
    memberValues (minimalCallItem item) key = memberValues item key := by
  rw [memberValues, memberValues, minimalCallItem, List.filter_filter]
  congr 1
  apply List.filter_congr
  intro member _
  by_cases same : member.1 = key
  · simp [same, needed]
  · simp [same]

theorem strictCallIdFromItem_minimalCallItem (item : WireJsonObject) :
    strictCallIdFromItem (minimalCallItem item) = strictCallIdFromItem item := by
  unfold strictCallIdFromItem
  rw [memberValues_minimalCallItem (by decide), memberValues_minimalCallItem (by decide)]

/-- The last group grows by an item. -/
theorem parts_push :
    Extraction.parts { state with group := state.group ++ [part] } = state.parts ++ [part] :=
  (List.append_assoc _ _ _).symm

theorem hasCall_eq_false (none : hasCall group = false) :
    ∀ part ∈ group, part.kind = .reasoning := by
  intro part member
  by_contra isCall
  have some : hasCall group = true := List.any_eq_true.mpr ⟨part, member, decide_eq_true isCall⟩
  rw [some] at none
  cases none

/-- One reasoning item is collected, or passed over in the first format. -/
theorem Extraction.Collected.addReasoning
    (collected : state.Collected options formatVersion visited)
    (isReasoning : isReasoningItem item = true)
    (added : state.addReasoning options formatVersion item = .ok next) :
    next.Collected options formatVersion (visited ++ [.object item]) := by
  unfold Extraction.addReasoning at added
  obtain ⟨_, noCall, rest⟩ := bind_eq_ok.mp added
  have noCall : memberValues item (js "call_id") = [] := not_not.mp (unavailableIf_eq_ok.mp noCall)
  cases formatVersion with
  | one =>
    cases rest
    have skipped : candidate .one (.object item) = none := by rw [candidate, if_pos isReasoning]
    exact { collected with sound := collected.sound.skip skipped }
  | two =>
    have recorded : candidate .two (.object item) =
        some item := by rw [candidate, if_pos isReasoning]
    have genuine : GroupItem.Genuine ⟨.reasoning, none, item⟩ :=
      ⟨type_of_isReasoningItem.mp isReasoning, noCall⟩
    obtain ⟨remembered, remembers, rest⟩ := bind_eq_ok.mp rest
    obtain ⟨finished, finishes, returned⟩ := bind_eq_ok.mp rest
    cases returned
    -- the carrier is new, and is remembered
    have carriers : (∀ carrier, GroupItem.carrier ⟨.reasoning, none, item⟩ = some carrier →
          carrier ∉ state.reasoningCarriers) ∧
        remembered = { state with reasoningCarriers :=
          (GroupItem.carrier ⟨.reasoning, none, item⟩).toList ++ state.reasoningCarriers } := by
      have isCarrier : GroupItem.carrier ⟨.reasoning, none, item⟩ = reasoningCarrier item := rfl
      rw [isCarrier]
      unfold Extraction.rememberCarrier at remembers
      cases found : reasoningCarrier item with
      | none =>
        rw [found] at remembers
        cases remembers
        exact ⟨by simp, rfl⟩
      | some carrier =>
        rw [found] at remembers
        obtain ⟨_, fresh, returned⟩ := bind_eq_ok.mp remembers
        cases returned
        refine ⟨fun other same => ?_, rfl⟩
        cases same
        exact unavailableIf_eq_ok.mp fresh
    obtain ⟨fresh, isRemembered⟩ := carriers
    have known : remembered.Collected options .two visited := by
      rw [isRemembered]
      exact { collected with
        sound := { collected.sound with
          carriersKnown := fun carrier member =>
            List.mem_append_right _ (collected.sound.carriersKnown carrier member) } }
    -- a group that has a call is closed first, so that the current one has none
    have closed : finished.Collected options .two visited ∧
        finished.callIds = remembered.callIds ∧
        finished.reasoningCarriers = remembered.reasoningCarriers ∧
        finished.parts = remembered.parts ∧ ∀ part ∈ finished.group, part.kind = .reasoning := by
      unfold Extraction.finishCalls at finishes
      by_cases called : hasCall remembered.group = true
      · rw [if_pos called] at finishes
        obtain ⟨kept, noGroup, sameIds, sameCarriers, sameParts⟩ :=
          known.finishGroup called finishes
        refine ⟨kept, sameIds, sameCarriers, sameParts, ?_⟩
        rw [noGroup]
        exact List.forall_mem_nil _
      · rw [if_neg called] at finishes
        cases finishes
        exact ⟨known, rfl, rfl, rfl, hasCall_eq_false (Bool.eq_false_iff.mpr called)⟩
    obtain ⟨kept, sameIds, sameCarriers, sameParts, noCalls⟩ := closed
    have sound : PartsSound .two (visited ++ [.object item]) finished.callIds
        finished.reasoningCarriers (finished.parts ++ [⟨.reasoning, none, item⟩]) := by
      rw [sameIds, sameCarriers, sameParts, isRemembered]
      exact collected.sound.concat genuine recorded (by simp) fresh
    exact { kept with
      sound := parts_push ▸ sound
      arranged := ⟨kept.arranged.1, finished.group ++ [⟨.reasoning, none, item⟩], [],
        (List.append_nil _).symm, fun part member => by
          rcases List.mem_append.mp member with old | new
          · exact noCalls part old
          · rw [List.mem_singleton.mp new],
        List.forall_mem_nil _⟩
      bytes := kept.bytes }

theorem Extraction.Collected.addCall (collected : state.Collected options formatVersion visited)
    (notReasoning : isReasoningItem item = false) (isCall : callKind? item = some kind)
    (added : state.addCall options formatVersion kind item = .ok next) :
    next.Collected options formatVersion (visited ++ [.object item]) := by
  have recorded : candidate formatVersion (.object item) = some (minimalCallItem item) := by
    rw [candidate_object notReasoning, isCall]
    rfl
  unfold Extraction.addCall at added
  split at added
  case h_1 => cases added
  case h_2 callId hasId =>
    obtain ⟨_, fresh, rest⟩ := bind_eq_ok.mp added
    have fresh := unavailableIf_eq_ok.mp fresh
    obtain ⟨_, _, rest⟩ := bind_eq_ok.mp rest
    have genuine : GroupItem.Genuine ⟨.call kind, some callId, minimalCallItem item⟩ := by
      constructor
      · show memberValues (minimalCallItem item) _ = _
        rw [memberValues_minimalCallItem (by decide)]
        exact type_of_callKind? isCall
      · show strictCallIdFromItem (minimalCallItem item) = _
        rw [strictCallIdFromItem_minimalCallItem, hasId]
    have sound : PartsSound formatVersion (visited ++ [.object item]) (callId :: state.callIds)
        state.reasoningCarriers (state.parts ++
          [⟨.call kind, some callId, minimalCallItem item⟩]) := by
      refine collected.sound.concat genuine recorded (fun other same => ?_)
        (fun _ none => nomatch none)
      cases same
      exact fresh
    cases formatVersion with
    | one =>
      obtain ⟨stored, isPart, sameGroup, place, written, isNext, count, bytes⟩ := push_eq_ok rest
      obtain ⟨noGroup, placed, calls⟩ := collected.arranged
      subst isNext
      have sameParts : ((state.items ++ [stored]).map StoredReplayItem.part ++ state.group) =
          state.parts ++ [⟨.call kind, some callId, minimalCallItem item⟩] := by
        rw [List.map_append, List.map_singleton, isPart, Extraction.parts, noGroup, List.append_nil,
          List.append_nil]
      refine ⟨?_, ⟨noGroup, placed_concat placed sameGroup ?_, ?_⟩, ?_, count, bytes⟩
      · show PartsSound .one _ (callId :: state.callIds) state.reasoningCarriers
          ((state.items ++ [stored]).map StoredReplayItem.part ++ state.group)
        rw [sameParts]
        exact sound
      · rw [place, Nat.zero_add]
      · intro other member
        rcases List.mem_append.mp member with old | new
        · exact calls other old
        · rw [List.mem_singleton.mp new]
          have kindIs : stored.kind = .call kind := congrArg GroupItem.kind isPart
          rw [kindIs]
          nofun
      · intro other member
        rcases List.mem_append.mp member with old | new
        · exact collected.written other old
        · rw [List.mem_singleton.mp new]
          exact written
    | two =>
      cases rest
      obtain ⟨groups, reasoning, calls, isSplit, areReasoning, areCalls⟩ := collected.arranged
      refine ⟨?_, ⟨groups, reasoning, calls ++
        [⟨.call kind, some callId, minimalCallItem item⟩], ?_,
        areReasoning, ?_⟩, collected.written, collected.count, collected.bytes⟩
      · show PartsSound .two _ (callId :: state.callIds) state.reasoningCarriers
          (state.items.map StoredReplayItem.part ++ (state.group ++ [_]))
        rw [← List.append_assoc]
        exact sound
      · show state.group ++ [_] = _
        rw [isSplit, List.append_assoc]
      · intro part member
        rcases List.mem_append.mp member with old | new
        · exact areCalls part old
        · rw [List.mem_singleton.mp new]
          nofun

theorem Extraction.Collected.add (collected : state.Collected options formatVersion visited)
    (item : WireJson) : Ensures (state.add options formatVersion item)
      (Extraction.Collected options formatVersion (visited ++ [item])) := by
  intro next added
  unfold Extraction.add at added
  split at added
  case h_1 outputItem =>
    split at added
    case isTrue isReasoning => exact collected.addReasoning isReasoning added
    case isFalse notReasoning =>
      have notReasoning := Bool.eq_false_iff.mpr notReasoning
      cases isCall : callKind? outputItem with
      | some kind =>
        rw [isCall] at added
        exact collected.addCall notReasoning isCall added
      | none =>
        rw [isCall] at added
        obtain ⟨_, _, returned⟩ := bind_eq_ok.mp added
        cases returned
        have skipped : candidate formatVersion (.object outputItem) = none := by
          rw [candidate_object notReasoning, isCall]
          rfl
        exact { collected with sound := collected.sound.skip skipped }
  case h_2 notObject =>
    cases added
    have skipped : candidate formatVersion item = none := by
      unfold candidate
      split
      case h_1 outputItem => exact absurd rfl (notObject outputItem)
      case h_2 => rfl
    exact { collected with sound := collected.sound.skip skipped }

/-! ## The whole output -/

theorem GroupItem.Genuine.isReasoningItem_iff (genuine : part.Genuine) :
    isReasoningItem part.item = true ↔ part.kind = .reasoning := by
  rw [type_of_isReasoningItem, genuine.1]
  cases part.kind with
  | reasoning => exact iff_of_true rfl rfl
  | call kind =>
    have apart : ∀ kind : ResponsesCallKind, js kind.text ≠ js "reasoning" := by
      intro kind
      cases kind <;> decide
    refine iff_of_false (fun same => apart kind ?_) (by nofun)
    exact WireJson.string.inj (List.singleton_inj.mp same)

def EndsWithCall (parts : List GroupItem) : Prop :=
  ∃ front last, parts = front ++ [last] ∧ last.kind ≠ .reasoning

theorem EndsWithCall.rdropWhile (ends : EndsWithCall parts)
    (genuine : ∀ part ∈ parts, part.Genuine) :
    (parts.map GroupItem.item).rdropWhile isReasoningItem = parts.map GroupItem.item := by
  obtain ⟨front, last, rfl, isCall⟩ := ends
  rw [List.map_append, List.map_singleton]
  apply List.rdropWhile_concat_neg
  rw [(genuine last (List.mem_append_right _ List.mem_cons_self)).isReasoningItem_iff]
  exact isCall

theorem EndsWithCall.append_left (ends : EndsWithCall parts) (more : List GroupItem) :
    EndsWithCall (more ++ parts) := by
  obtain ⟨front, last, rfl, isCall⟩ := ends
  exact ⟨more ++ front, last, (List.append_assoc _ _ _).symm, isCall⟩

theorem Shaped.endsWithCall (shaped : Shaped parts) (called : hasCall parts = true) :
    EndsWithCall parts := by
  obtain ⟨reasoning, calls, rfl, areReasoning, areCalls⟩ := shaped
  obtain ⟨part, member, isCall⟩ := List.any_eq_true.mp called
  have isCall : part.kind ≠ .reasoning := of_decide_eq_true isCall
  have nonempty : calls ≠ [] := by
    rintro rfl
    rw [List.append_nil] at member
    exact isCall (areReasoning part member)
  obtain ⟨front, last, rfl⟩ := (List.eq_nil_or_concat' calls).resolve_left nonempty
  exact ⟨reasoning ++ front, last, (List.append_assoc _ _ _).symm,
    areCalls last (List.mem_append_right _ List.mem_cons_self)⟩

theorem Groups.endsWithCall {next : Nat} (groups : Groups first next items) :
    items = [] ∨ EndsWithCall (items.map StoredReplayItem.part) := by
  induction groups with
  | nil => exact .inl rfl
  | @cons first next group items isGroup rest ih =>
    rw [List.map_append]
    rcases ih with rfl | ends
    · apply Or.inr
      rw [List.map_nil, List.append_nil]
      exact isGroup.shaped.endsWithCall isGroup.called
    · exact .inr (ends.append_left _)

/-- Reasoning items at the end are dropped. -/
theorem rdropWhile_append_reasoning (parts : List WireJsonObject)
    (genuine : ∀ part ∈ group, part.Genuine) (reasoning : ∀ part ∈ group, part.kind = .reasoning) :
    (parts ++ group.map GroupItem.item).rdropWhile isReasoningItem =
      parts.rdropWhile isReasoningItem := by
  induction group using List.reverseRecOn with
  | nil => rw [List.map_nil, List.append_nil]
  | append_singleton group last ih =>
    have isReasoning : isReasoningItem last.item = true :=
      (genuine last (List.mem_append_right _ List.mem_cons_self)).isReasoningItem_iff.mpr
        (reasoning last (List.mem_append_right _ List.mem_cons_self))
    rw [List.map_append, List.map_singleton, ← List.append_assoc,
      List.rdropWhile_concat_pos _ _ _ isReasoning]
    exact ih (fun part member => genuine part (List.mem_append_left _ member))
      fun part member => reasoning part (List.mem_append_left _ member)

def Arranged (items : List StoredReplayItem) : ReplayFormatVersion → Prop
  | .one => Placed 0 0 items ∧ ∀ item ∈ items, item.kind ≠ .reasoning
  | .two => ∃ count, Groups 0 count items

structure StoredReplay.Recorded (options : HistoryOptions) (formatVersion : ReplayFormatVersion)
    (output : ResponseOutput) (replay : StoredReplay) : Prop where
  version : replay.formatVersion = formatVersion
  counted : replay.Counted
  recorded : replay.items.map StoredReplayItem.item = recordedItems formatVersion output
  genuine : ∀ item ∈ replay.items, item.part.Genuine
  distinctIds : ((replay.items.map StoredReplayItem.part).filterMap GroupItem.callId).Nodup
  distinctCarriers : ((replay.items.map StoredReplayItem.part).filterMap GroupItem.carrier).Nodup
  arranged : Arranged replay.items formatVersion
  written : ∀ item ∈ replay.items, item.Written options
  count : replay.itemCount ≤ options.maxReplayItems
  bytes : replay.bytes ≤ options.maxReplayBytes

theorem recorded_extractRecordableReplay {output : ResponseOutput} {replay : StoredReplay}
    (extracted : extractRecordableReplay options output formatVersion = .ok replay) :
    replay.Recorded options formatVersion output := by
  have counted := ensures_extractRecordableReplay_counted output formatVersion replay extracted
  rw [extractRecordableReplay] at extracted
  obtain ⟨state, collects, rest⟩ := bind_eq_ok.mp extracted
  obtain ⟨last, finishes, returned⟩ := bind_eq_ok.mp rest
  cases returned
  have collected := ensures_foldlM_visited (Extraction.Collected options formatVersion)
    (fun visited state item _ _ collected => collected.add item) (collected_start formatVersion)
    state collects
  have isPart : ∀ items : List StoredReplayItem,
      (items.map StoredReplayItem.part).map GroupItem.item = items.map StoredReplayItem.item :=
    fun items => List.map_map
  have genuineItems : ∀ items : List StoredReplayItem,
      (∀ part ∈ items.map StoredReplayItem.part, part.Genuine) →
      ∀ item ∈ items, item.part.Genuine :=
    fun items genuine item member => genuine _ (List.mem_map_of_mem member)
  cases formatVersion with
  | one =>
    cases finishes
    obtain ⟨noGroup, placed, calls⟩ := collected.arranged
    have parts : state.parts = state.items.map StoredReplayItem.part := by
      rw [Extraction.parts, noGroup, List.append_nil]
    have sound := collected.sound
    rw [parts] at sound
    refine ⟨rfl, counted, ?_, genuineItems _ sound.genuine, sound.distinctIds,
      sound.distinctCarriers, ⟨placed, calls⟩, collected.written, collected.count, collected.bytes⟩
    show state.items.map StoredReplayItem.item = recordedItems .one output
    rw [recordedItems, ← sound.recorded]
    by_cases none : state.items = []
    · rw [none]
      rfl
    · obtain ⟨front, last, isSplit⟩ := (List.eq_nil_or_concat' state.items).resolve_left none
      have ends : EndsWithCall (state.items.map StoredReplayItem.part) :=
        ⟨front.map StoredReplayItem.part, last.part, by rw [isSplit, List.map_append]; rfl,
          calls last (by rw [isSplit]; exact List.mem_append_right _ List.mem_cons_self)⟩
      rw [ends.rdropWhile sound.genuine, isPart]
  | two =>
    obtain ⟨groups, shaped⟩ := collected.arranged
    by_cases called : hasCall state.group = true
    · obtain ⟨kept, noGroup, -, -, parts⟩ := collected.finishGroup called finishes
      have stored : last.items.map StoredReplayItem.part = state.parts := by
        rw [← parts, Extraction.parts, noGroup, List.append_nil]
      have sound := collected.sound
      refine ⟨rfl, counted, ?_, ?_, stored ▸ sound.distinctIds, stored ▸ sound.distinctCarriers,
        ⟨_, kept.arranged.1⟩, kept.written, kept.count, kept.bytes⟩
      · show last.items.map StoredReplayItem.item = recordedItems .two output
        have ends : EndsWithCall state.parts := (shaped.endsWithCall called).append_left _
        rw [recordedItems, ← sound.recorded, ends.rdropWhile sound.genuine, ← stored, isPart]
      · apply genuineItems
        rw [stored]
        exact sound.genuine
    · have finishes : state.finishGroup options = .ok last := finishes
      rw [Extraction.finishGroup, if_neg called] at finishes
      cases finishes
      have sound := collected.sound
      have noCall := hasCall_eq_false (Bool.eq_false_iff.mpr called)
      have fewer : (state.items.map StoredReplayItem.part).Sublist state.parts :=
        List.sublist_append_left _ _
      have genuine : ∀ part ∈ state.items.map StoredReplayItem.part, part.Genuine :=
        fun part member => sound.genuine part (List.mem_append_left _ member)
      refine ⟨rfl, counted, ?_, genuineItems _ genuine,
        sound.distinctIds.sublist (fewer.filterMap _),
        sound.distinctCarriers.sublist (fewer.filterMap _), ⟨_, groups⟩, collected.written,
        collected.count, collected.bytes⟩
      show state.items.map StoredReplayItem.item = recordedItems .two output
      rw [recordedItems, ← sound.recorded, Extraction.parts, List.map_append,
        rdropWhile_append_reasoning _
          (fun part member => sound.genuine part (List.mem_append_right _ member)) noCall]
      rcases groups.endsWithCall with none | ends
      · rw [none]
        rfl
      · rw [ends.rdropWhile genuine, isPart]

end GhcGateway.History
