/-
# A continued conversation is kept and completed

What the client has sent stays in its order, except for the calls and the reasoning
that the checkpoint has as well. Every output of a checkpointed call comes after that
call. The second format puts all stored items in front of the first such output.
-/

import GhcGateway.History.EnrichmentGroup
import GhcGateway.History.ReplayRoundTrip
import GhcGateway.Library.Interleaving

namespace GhcGateway.History

open Library

variable {checkpoint : StoredResponse} {original visited : List WireJson} {survey : Survey}
  {item : WireJson} {callId : JsString} {stored : StoredReplayItem}
  {more rest : List WireJson} {changed : Bool}

/-- The items that are neither checkpointed calls nor reasoning items with a
checkpointed carrier. -/
def kept (checkpoint : StoredResponse) (items : List WireJson) : List WireJson :=
  items.filter fun item => !isCheckpointed checkpoint item

theorem kept_concat_of_kept (own : isCheckpointed checkpoint item = false) (items : List WireJson) :
    kept checkpoint (items ++ [item]) = kept checkpoint items ++
      [item] := by
  rw [kept, List.filter_append, List.filter_cons, own]
  rfl

theorem kept_concat_of_checkpointed (stored : isCheckpointed checkpoint item = true)
    (items : List WireJson) : kept checkpoint (items ++ [item]) = kept checkpoint items := by
  rw [kept, List.filter_append, List.filter_cons, stored]
  exact List.append_nil _

theorem call?_eq_some (found : checkpoint.call? callId = some stored) :
    stored ∈ checkpoint.calls ∧ stored.callId = some callId := by
  have member := List.mem_of_find?_eq_some found
  have same := List.find?_some found
  exact ⟨member, of_decide_eq_true same⟩

theorem hasCallId_iff :
    checkpoint.hasCallId callId = true ↔
      ∃ stored ∈ checkpoint.calls, stored.callId = some callId := by
  unfold StoredResponse.hasCallId StoredResponse.call?
  rw [List.find?_isSome]
  simp only [decide_eq_true_eq]

theorem StoredResponse.Sound.mem_items (sound : checkpoint.Sound)
    (member : stored ∈ checkpoint.calls) : stored ∈ checkpoint.items ∧
      stored.kind ≠ .reasoning := by
  rw [sound.calls, List.mem_filter, decide_eq_true_iff] at member
  exact member

/-- Only calls have ids. -/
theorem StoredResponse.Sound.hasCallId_of_mem (sound : checkpoint.Sound)
    (member : stored ∈ checkpoint.items) (hasId : stored.callId = some callId) :
    checkpoint.hasCallId callId = true := by
  refine hasCallId_iff.mpr ⟨stored, ?_, hasId⟩
  rw [sound.calls, List.mem_filter, decide_eq_true_iff]
  refine ⟨member, ?_⟩
  intro reasoning
  rcases kind_of_genuine (sound.genuine stored member) with ⟨_, none, _⟩ | ⟨kind, _, call, _⟩
  · have none : stored.callId = Option.none := none
    rw [none] at hasId
    cases hasId
  · have call : stored.kind = .call kind := call
    rw [reasoning] at call
    cases call

/-! ## Outputs come after their calls -/

/-- Every output of a checkpointed call comes after a call with its id. -/
def Answered (checkpoint : StoredResponse) (items : List WireJson) : Prop :=
  ∀ before output after callId, items = before ++ output :: after →
    outputCallId? output = some callId → checkpoint.hasCallId callId = true →
      callId ∈ before.filterMap callId?

theorem Answered.append {items : List WireJson} (answered : Answered checkpoint items)
    (preceded : ∀ item ∈ more, ∀ callId, outputCallId? item = some callId →
      checkpoint.hasCallId callId = true → callId ∈ items.filterMap callId?) :
    Answered checkpoint (items ++ more) := by
  intro before output after callId split isOutput known
  rcases List.append_eq_append_iff.mp split with ⟨front, isBefore, isMore⟩ | ⟨rest, isItems, isMore⟩
  · have member : output ∈ more := by
      rw [isMore]
      exact List.mem_append_right _ List.mem_cons_self
    rw [isBefore, List.filterMap_append]
    exact List.mem_append_left _ (preceded output member callId isOutput known)
  · cases rest with
    | nil =>
      have member : output ∈ more := by
        rw [List.nil_append] at isMore
        rw [← isMore]
        exact List.mem_cons_self
      rw [List.append_nil] at isItems
      rw [← isItems]
      exact preceded output member callId isOutput known
    | cons first rest =>
      rw [List.cons_append] at isMore
      obtain ⟨rfl, _⟩ := List.cons.inj isMore
      exact answered before output rest callId isItems isOutput known

/-! ## Where the items are -/

/-- In the first format stored calls are merged into the client's items. -/
def Merged (checkpoint : StoredResponse) (original own items : List WireJson) : Prop :=
  ∃ restored, Interleaved own restored items ∧
    ∀ item ∈ restored, ∃ stored ∈ checkpoint.items, item = restoredItem original stored

/-- In the second format the stored items are one group, directly in front of the
first output of a checkpointed call. -/
def Grouped (checkpoint : StoredResponse) (original own items : List WireJson) : Prop :=
  ∃ before output after,
    items = before ++ checkpoint.items.map (restoredItem original) ++ output :: after ∧
    before ++ output :: after = own ∧
    answers checkpoint output = true ∧ ∀ item ∈ before, answers checkpoint item = false

/-- Where the items are after some of the client's. -/
def Enriched (checkpoint : StoredResponse) (original visited : List WireJson) (inserted : Bool)
    (items : List WireJson) : ReplayFormatVersion → Prop
  | .one => Merged checkpoint original (kept checkpoint visited) items
  | .two =>
    if inserted then Grouped checkpoint original (kept checkpoint visited) items
    else items = kept checkpoint visited ∧ ∀ item ∈ visited, answers checkpoint item = false

variable {inserted : Bool} {items : List WireJson} {formatVersion : ReplayFormatVersion}

/-- A kept item is put at the end. -/
theorem Enriched.keep (placed : Enriched checkpoint original visited inserted items formatVersion)
    (own : isCheckpointed checkpoint item = false)
    (later : formatVersion = .two → inserted = false → answers checkpoint item = false) :
    Enriched checkpoint original (visited ++ [item]) inserted (items ++ [item]) formatVersion := by
  cases formatVersion with
  | one =>
    obtain ⟨restored, merged, sources⟩ := placed
    refine ⟨restored, ?_, sources⟩
    rw [kept_concat_of_kept own]
    exact merged.concat_left item
  | two =>
    cases inserted with
    | false =>
      obtain ⟨same, none⟩ := placed
      show items ++ [item] = kept checkpoint (visited ++ [item]) ∧ _
      rw [kept_concat_of_kept own, same]
      refine ⟨rfl, ?_⟩
      intro other member
      rcases List.mem_append.mp member with old | new
      · exact none other old
      · rw [List.mem_singleton.mp new]
        exact later rfl rfl
    | true =>
      obtain ⟨before, output, after, split, keptSplit, isFirst, none⟩ := placed
      refine ⟨before, output, after ++ [item], ?_, ?_, isFirst, none⟩
      · rw [split, List.append_assoc, List.cons_append]
      · rw [kept_concat_of_kept own, ← keptSplit, List.append_assoc, List.cons_append]

/-- A checkpointed item is left out. -/
theorem Enriched.drop (placed : Enriched checkpoint original visited inserted items formatVersion)
    (stored : isCheckpointed checkpoint item = true) (noOutput : answers checkpoint item = false) :
    Enriched checkpoint original (visited ++ [item]) inserted items formatVersion := by
  cases formatVersion with
  | one =>
    show Merged checkpoint original (kept checkpoint (visited ++ [item])) items
    rw [kept_concat_of_checkpointed stored]
    exact placed
  | two =>
    cases inserted with
    | false =>
      obtain ⟨same, none⟩ := placed
      show items = kept checkpoint (visited ++ [item]) ∧ _
      rw [kept_concat_of_checkpointed stored]
      refine ⟨same, ?_⟩
      intro other member
      rcases List.mem_append.mp member with old | new
      · exact none other old
      · rw [List.mem_singleton.mp new]
        exact noOutput
    | true =>
      show Grouped checkpoint original (kept checkpoint (visited ++ [item])) items
      rw [kept_concat_of_checkpointed stored]
      exact placed

/-- Stored calls are put at the end. -/
theorem Enriched.restore (placed : Enriched checkpoint original visited inserted items .one)
    (sources : ∀ item ∈ more, ∃ stored ∈ checkpoint.items, item = restoredItem original stored)
    (next : Bool) : Enriched checkpoint original visited next (items ++ more) .one := by
  obtain ⟨restored, merged, old⟩ := placed
  refine ⟨restored ++ more, merged.append_right more, ?_⟩
  intro item member
  rcases List.mem_append.mp member with front | back
  · exact old item front
  · exact sources item back

/-! ## The second pass -/

/-- What the second pass has done after some of the client's items. -/
structure Enrichment.Along (checkpoint : StoredResponse) (original visited : List WireJson)
    (state : Enrichment) : Prop where
  emitted : state.emittedCallIds = state.items.filterMap callId?
  nodup : state.emittedCallIds.Nodup
  known : ∀ callId ∈ state.emittedCallIds,
    callId ∈ visited.filterMap callId? ∨ checkpoint.hasCallId callId = true
  complete : state.scopedGroupInserted = true →
    ∀ callId, checkpoint.hasCallId callId = true → callId ∈ state.emittedCallIds
  answered : Answered checkpoint state.items
  unchanged : state.changed = false → state.items = visited
  placed : Enriched checkpoint original visited state.scopedGroupInserted state.items
    checkpoint.formatVersion

theorem Enrichment.along_start : Enrichment.start.Along checkpoint original [] where
  emitted := rfl
  nodup := List.nodup_nil
  known := fun _ member => nomatch member
  complete := fun inserted => nomatch inserted
  answered := by
    intro before output after _ split
    exact absurd split.symm
      (List.append_ne_nil_of_right_ne_nil before (List.cons_ne_nil output after))
  unchanged := fun _ => rfl
  placed := by
    cases checkpoint.formatVersion with
    | one => exact ⟨[], .nil, fun _ member => nomatch member⟩
    | two => exact ⟨rfl, fun _ member => nomatch member⟩

variable {state : Enrichment}

theorem known_concat
    (known : callId ∈ visited.filterMap callId? ∨ checkpoint.hasCallId callId = true) :
    callId ∈ (visited ++ [item]).filterMap callId? ∨ checkpoint.hasCallId callId = true := by
  rcases known with sent | stored
  · rw [List.filterMap_append]
    exact .inl (List.mem_append_left _ sent)
  · exact .inr stored

/-- An item without a call id is passed on. -/
theorem Enrichment.Along.push (along : state.Along checkpoint original visited)
    (noCallId : callId? item = none) (own : isCheckpointed checkpoint item = false)
    (preceded : ∀ callId, outputCallId? item = some callId → checkpoint.hasCallId callId = true →
      callId ∈ state.emittedCallIds)
    (later : checkpoint.formatVersion = .two → state.scopedGroupInserted = false →
      answers checkpoint item = false) :
    (state.push item).Along checkpoint original (visited ++ [item]) where
  emitted := by
    show state.emittedCallIds = (state.items ++ [item]).filterMap callId?
    rw [filterMap_concat, noCallId, along.emitted]
    exact (List.append_nil _).symm
  nodup := along.nodup
  known := fun callId member => known_concat (along.known callId member)
  complete := along.complete
  answered := by
    apply along.answered.append
    intro output single callId isOutput known
    rw [List.mem_singleton.mp single] at isOutput
    rw [← along.emitted]
    exact preceded callId isOutput known
  unchanged := by
    intro unchanged
    show state.items ++ [item] = visited ++ [item]
    rw [along.unchanged unchanged]
  placed := along.placed.keep own later

/-- A checkpointed item is left out. -/
theorem Enrichment.Along.drop (along : state.Along checkpoint original visited)
    (stored : isCheckpointed checkpoint item = true) (noOutput : answers checkpoint item = false) :
    Enrichment.Along checkpoint original (visited ++ [item]) { state with changed := true } where
  emitted := along.emitted
  nodup := along.nodup
  known := fun callId member => known_concat (along.known callId member)
  complete := along.complete
  answered := along.answered
  unchanged := fun unchanged => nomatch unchanged
  placed := along.placed.drop stored noOutput

/-- A call whose id has not been emitted is emitted, as itself or filled. -/
theorem Enrichment.Along.emit (along : state.Along checkpoint original visited) {filled : WireJson}
    (sent : callId? item = some callId) (identity : callId? filled = some callId)
    (fresh : callId ∉ state.emittedCallIds)
    (unchanged : changed = false → state.changed = false ∧ filled = item)
    (placed : Enriched checkpoint original (visited ++ [item]) state.scopedGroupInserted
      (state.items ++ [filled]) checkpoint.formatVersion) :
    Enrichment.Along checkpoint original (visited ++ [item])
      { state with
        changed := changed
        items := state.items ++ [filled]
        emittedCallIds := state.emittedCallIds ++ [callId] } where
  emitted := by
    show state.emittedCallIds ++ [callId] = (state.items ++ [filled]).filterMap callId?
    rw [filterMap_concat, identity, along.emitted]
    rfl
  nodup := by
    apply List.nodup_append.mpr
    refine ⟨along.nodup, List.nodup_singleton callId, ?_⟩
    intro old oldMember new single same
    rw [List.mem_singleton] at single
    exact fresh (single ▸ same ▸ oldMember)
  known := by
    intro other member
    rcases List.mem_append.mp member with old | new
    · exact known_concat (along.known other old)
    · rw [List.mem_singleton.mp new]
      exact .inl (List.mem_filterMap.mpr
        ⟨item, List.mem_append_right _ (List.mem_singleton_self item), sent⟩)
  complete := by
    intro inserted other known
    exact List.mem_append_left _ (along.complete inserted other known)
  answered := by
    apply along.answered.append
    intro output single other isOutput _
    rw [List.mem_singleton.mp single, outputCallId?_of_callId? identity] at isOutput
    cases isOutput
  unchanged := by
    intro isUnchanged
    obtain ⟨before, same⟩ := unchanged isUnchanged
    show state.items ++ [filled] = visited ++ [item]
    rw [along.unchanged before, same]
  placed := placed

/-! ## The items one by one -/

/-- Where identities differ, an item is found by its own. -/
theorem find?_of_nodup {identity? : WireJson → Option JsString}
    (nodup : (items.filterMap identity?).Nodup) (member : item ∈ items) {identity : JsString}
    (has : identity? item = some identity) :
    items.find? (fun other => identity? other = some identity) = some item := by
  induction items with
  | nil => cases member
  | cons first items ih =>
    rw [List.find?_cons]
    by_cases same : identity? first = some identity
    · rw [decide_eq_true same]
      rw [List.filterMap_cons_some same, List.nodup_cons] at nodup
      rcases List.mem_cons.mp member with rfl | later
      · rfl
      · exact absurd (List.mem_filterMap.mpr ⟨item, later, has⟩) nodup.1
    · rw [decide_eq_false same]
      have later : item ∈ items := by
        rcases List.mem_cons.mp member with rfl | later
        · exact absurd has same
        · exact later
      apply ih _ later
      exact nodup.sublist ((List.sublist_cons_self first items).filterMap identity?)

/-- The client's call. -/
theorem Enrichment.Along.addCall (surveyed : survey.Along checkpoint original)
    (sound : checkpoint.Sound) {item : WireJsonObject}
    (split : original = visited ++ .object item :: rest) (call : isCallItem item = true)
    (along : state.Along checkpoint original visited) :
    (state.addCall checkpoint item).Along checkpoint original (visited ++ [.object item]) := by
  have member : .object item ∈ original := by
    rw [split]
    exact List.mem_append_right _ List.mem_cons_self
  obtain ⟨callId, strict⟩ := surveyed.identified item member (.inl call)
  have identity : callId? (.object item) = some callId := (callId?_object call).trans strict
  have notVisited : callId ∉ visited.filterMap callId? := by
    have nodup := surveyed.nodup_callIds
    rw [split, List.filterMap_append, List.filterMap_cons_some identity] at nodup
    intro again
    exact List.disjoint_of_nodup_append nodup again List.mem_cons_self
  have noOutput : answers checkpoint (.object item) = false := by
    rw [answers, outputCallId?_of_callId? identity]
    rfl
  have checkpointed : isCheckpointed checkpoint (.object item) = checkpoint.hasCallId callId := by
    rw [isCheckpointed, identity, carrier?_of_callId? identity]
    exact Bool.or_false _
  unfold Enrichment.addCall
  rw [strict]
  dsimp only
  by_cases moved : checkpoint.formatVersion = .two ∧ checkpoint.hasCallId callId = true
  · rw [if_pos moved]
    exact along.drop (checkpointed.trans moved.2) noOutput
  rw [if_neg moved]
  by_cases emitted : callId ∈ state.emittedCallIds
  · rw [if_pos emitted]
    rcases along.known callId emitted with sent | stored
    · exact absurd sent notVisited
    · exact along.drop (checkpointed.trans stored) noOutput
  rw [if_neg emitted]
  cases found : checkpoint.call? callId with
  | none =>
    have unknown : checkpoint.hasCallId callId = false := by
      rw [StoredResponse.hasCallId, found]
      rfl
    apply along.emit identity identity emitted
    · intro unchanged
      exact ⟨(Bool.or_eq_false_iff.mp unchanged).1, rfl⟩
    · exact along.placed.keep (checkpointed.trans unknown) fun _ _ => noOutput
  | some cached =>
    have known : checkpoint.hasCallId callId = true := by
      rw [StoredResponse.hasCallId, found]
      rfl
    obtain ⟨cachedMember, cachedId⟩ := call?_eq_some found
    obtain ⟨isStored, isCall⟩ := sound.mem_items cachedMember
    have restored : WireJson.object (fillEmptyFields item cached.item) =
        restoredItem original cached := by
      unfold restoredItem
      rw [cachedId, find?_of_nodup surveyed.nodup_callIds member identity]
      split
      case h_1 reasoning => exact absurd reasoning isCall
      case h_2 => rfl
    have filledId : callId? (.object (fillEmptyFields item cached.item)) = some callId :=
      (callId?_fillEmptyFields item cached.item).trans identity
    apply along.emit identity filledId emitted
    · intro unchanged
      obtain ⟨before, same⟩ := Bool.or_eq_false_iff.mp unchanged
      exact ⟨before, congrArg WireJson.object (not_not.mp (of_decide_eq_false same))⟩
    · cases version : checkpoint.formatVersion with
      | two => exact absurd ⟨version, known⟩ moved
      | one =>
        have placed := along.placed
        rw [version] at placed
        have dropped := placed.drop (checkpointed.trans known) noOutput
        apply dropped.restore
        intro other single
        rw [List.mem_singleton.mp single]
        exact ⟨cached, isStored, restored⟩

/-- The ids of the stored calls. -/
theorem StoredResponse.Sound.nodup_callIds (sound : checkpoint.Sound) :
    (checkpoint.items.filterMap StoredReplayItem.callId).Nodup := by
  have same : ∀ stored : List StoredReplayItem, (∀ item ∈ stored, item.part.Genuine) →
      (stored.filterMap StoredReplayItem.callId).map some =
        (stored.filter fun item => item.kind ≠ .reasoning).map StoredReplayItem.callId := by
    intro stored
    induction stored with
    | nil => exact fun _ => rfl
    | cons item stored ih =>
      intro genuine
      have rest := ih fun other member => genuine other (List.mem_cons_of_mem _ member)
      rcases kind_of_genuine (genuine item List.mem_cons_self) with
        ⟨reasoning, none, _⟩ | ⟨kind, callId, call, hasId, _⟩
      · have reasoning : item.kind = .reasoning := reasoning
        have none : item.callId = Option.none := none
        rw [List.filterMap_cons_none none, List.filter_cons, if_neg (by simp [reasoning]), rest]
      · have call : item.kind = .call kind := call
        have hasId : item.callId = some callId := hasId
        rw [List.filterMap_cons_some hasId, List.filter_cons, if_pos (by simp [call]),
          List.map_cons, List.map_cons, rest, hasId]
  have nodup := sound.callIds
  rw [sound.calls, ← same checkpoint.items sound.genuine] at nodup
  exact nodup.of_map some

/-- An output in front of which the stored items are inserted. -/
theorem Enrichment.Along.insert (surveyed : survey.Along checkpoint original)
    (sound : checkpoint.Sound) {item : WireJsonObject} (output : isOutputItem item = true)
    (identity : outputCallId? (.object item) = some callId)
    (own : isCheckpointed checkpoint (.object item) = false)
    (known : checkpoint.hasCallId callId = true) (first : state.scopedGroupInserted = false)
    (along : state.Along checkpoint original visited) :
    ((state.insertGroup checkpoint survey).push (.object item)).Along checkpoint original
      (visited ++ [.object item]) := by
  obtain ⟨inserted, inserts⟩ := state.inserts_insertGroup sound surveyed
  have isInserted : (state.insertGroup checkpoint survey).scopedGroupInserted = true := rfl
  have complete : ∀ other, checkpoint.hasCallId other = true →
      other ∈ (state.insertGroup checkpoint survey).emittedCallIds := by
    intro other stored
    obtain ⟨source, member, hasId⟩ := hasCallId_iff.mp stored
    exact inserts.emitsAll source (sound.mem_items member).1 other hasId
  have emitted : (state.insertGroup checkpoint survey).emittedCallIds =
      (state.insertGroup checkpoint survey).items.filterMap callId? := by
    rw [inserts.emitted, inserts.items, List.filterMap_append, along.emitted]
  constructor
  · show (state.insertGroup checkpoint survey).emittedCallIds =
      ((state.insertGroup checkpoint survey).items ++ [WireJson.object item]).filterMap callId?
    rw [filterMap_concat, callId?_of_isOutputItem output, ← emitted]
    exact (List.append_nil _).symm
  · exact inserts.nodup along.nodup
  · intro other member
    have member : other ∈ (state.insertGroup checkpoint survey).emittedCallIds := member
    rw [inserts.emitted] at member
    rcases List.mem_append.mp member with old | new
    · exact known_concat (along.known other old)
    · obtain ⟨source, sourceMember, hasId⟩ := inserts.sources other new
      exact .inr (sound.hasCallId_of_mem sourceMember hasId)
  · exact fun _ => complete
  · show Answered checkpoint ((state.insertGroup checkpoint survey).items ++ [.object item])
    have group : Answered checkpoint (state.insertGroup checkpoint survey).items := by
      rw [inserts.items]
      apply along.answered.append
      intro other member otherId isOutput
      rw [inserts.noOutput other member] at isOutput
      cases isOutput
    apply group.append
    intro other single otherId isOutput stored
    rw [List.mem_singleton.mp single] at isOutput
    rw [← emitted]
    exact complete otherId stored
  · intro unchanged
    obtain ⟨nothing, before⟩ := inserts.changed unchanged
    show (state.insertGroup checkpoint survey).items ++ [WireJson.object item] =
      visited ++ [WireJson.object item]
    rw [inserts.items, nothing, List.append_nil, along.unchanged before]
  · have placed := along.placed
    have answersIt : answers checkpoint (.object item) = true := by
      rw [answers, identity]
      exact known
    show Enriched checkpoint original (visited ++ [.object item]) true
      ((state.insertGroup checkpoint survey).items ++ [.object item]) checkpoint.formatVersion
    rw [inserts.items]
    cases version : checkpoint.formatVersion with
    | one =>
      rw [version] at placed
      exact (placed.restore inserts.restored true).keep own (by rintro ⟨⟩)
    | two =>
      rw [version, first] at placed
      obtain ⟨same, none⟩ := placed
      have fresh : ∀ source ∈ checkpoint.items, ∀ other, source.callId = some other →
          other ∉ state.emittedCallIds := by
        intro source member other hasId already
        rw [along.emitted, same] at already
        obtain ⟨sent, sentKept, sentId⟩ := List.mem_filterMap.mp already
        have notStored := (List.mem_filter.mp sentKept).2
        rw [isCheckpointed, sentId, Option.any_some,
          sound.hasCallId_of_mem member hasId] at notStored
        cases notStored
      rw [inserts.whole fresh sound.nodup_callIds]
      refine ⟨kept checkpoint visited, .object item, [], ?_, ?_, answersIt, ?_⟩
      · rw [same]
      · exact (kept_concat_of_kept own visited).symm
      · intro other member
        exact none other (List.mem_of_mem_filter member)

theorem insertsBefore_one (version : checkpoint.formatVersion = .one) (state : Enrichment)
    (callId : JsString) :
    state.insertsBefore checkpoint callId = true ↔
      callId ∉ state.emittedCallIds ∧ checkpoint.hasCallId callId = true ∧
        state.scopedGroupInserted = false := by
  unfold Enrichment.insertsBefore
  rw [version]
  simp only [Bool.and_eq_true, Bool.not_eq_true', decide_eq_true_eq, and_assoc]

theorem insertsBefore_two (version : checkpoint.formatVersion = .two) (state : Enrichment)
    (callId : JsString) :
    state.insertsBefore checkpoint callId = true ↔
      checkpoint.hasCallId callId = true ∧ state.scopedGroupInserted = false := by
  unfold Enrichment.insertsBefore
  rw [version]
  simp only [Bool.and_eq_true, Bool.not_eq_true']

/-- In either format, items are inserted in front of an output of a checkpointed call,
and only the first time. -/
theorem known_of_insertsBefore (inserts : state.insertsBefore checkpoint callId = true) :
    checkpoint.hasCallId callId = true ∧ state.scopedGroupInserted = false := by
  cases version : checkpoint.formatVersion with
  | one => exact ((insertsBefore_one version state callId).mp inserts).2
  | two => exact (insertsBefore_two version state callId).mp inserts

/-- Where nothing is inserted in front of the output of a checkpointed call, its call is
there. -/
theorem Enrichment.Along.emitted_of_not_insertsBefore
    (along : state.Along checkpoint original visited)
    (passes : ¬ state.insertsBefore checkpoint callId = true)
    (known : checkpoint.hasCallId callId = true) : callId ∈ state.emittedCallIds := by
  by_contra missing
  have first : state.scopedGroupInserted = false := by
    cases inserted : state.scopedGroupInserted with
    | false => rfl
    | true => exact absurd (along.complete inserted callId known) missing
  apply passes
  cases version : checkpoint.formatVersion with
  | one => exact (insertsBefore_one version state callId).mpr ⟨missing, known, first⟩
  | two => exact (insertsBefore_two version state callId).mpr ⟨known, first⟩

/-- The client's output. -/
theorem Enrichment.Along.addOutput (surveyed : survey.Along checkpoint original)
    (sound : checkpoint.Sound) {item : WireJsonObject} (output : isOutputItem item = true)
    (along : state.Along checkpoint original visited) :
    Ensures (state.addOutput checkpoint survey item)
      (Enrichment.Along checkpoint original (visited ++ [.object item])) := by
  unfold Enrichment.addOutput
  split
  case h_1 => exact ensures_error
  case h_2 callId strict =>
    apply ensures_ok
    have identity : outputCallId? (.object item) = some callId :=
      (outputCallId?_object output).trans strict
    have noCallId : callId? (.object item) = none := callId?_of_isOutputItem output
    have noCarrier : carrier? (.object item) = none :=
      if_neg (Bool.eq_false_iff.mp (not_isReasoningItem_of_isOutputItem output))
    have own : isCheckpointed checkpoint (.object item) = false := by
      rw [isCheckpointed, noCallId, noCarrier]
      rfl
    have seen : Enrichment.Along checkpoint original visited { state with sawOutput := true } :=
      { along with }
    split
    case isTrue inserts =>
      obtain ⟨known, first⟩ := known_of_insertsBefore inserts
      exact seen.insert surveyed sound output identity own known first
    case isFalse passes =>
      apply seen.push noCallId own
      · intro other isOutput known
        rw [identity] at isOutput
        cases isOutput
        exact seen.emitted_of_not_insertsBefore passes known
      · intro version first
        rw [answers, identity, Option.any_some, Bool.eq_false_iff]
        intro known
        exact passes ((insertsBefore_two version _ callId).mpr ⟨known, first⟩)

/-- One item of the client. -/
theorem Enrichment.Along.add (surveyed : survey.Along checkpoint original)
    (sound : checkpoint.Sound) (split : original = visited ++ item :: rest)
    (along : state.Along checkpoint original visited) :
    Ensures (state.add checkpoint survey item)
      (Enrichment.Along checkpoint original (visited ++ [item])) := by
  have member : item ∈ original := by
    rw [split]
    exact List.mem_append_right _ List.mem_cons_self
  unfold Enrichment.add
  split
  case h_1 members =>
    have moves : ∀ carrier, carrier? (.object members) = some carrier →
        (survey.movesReasoning members = true ↔ carrier ∈ checkpoint.carriers) := by
      intro carrier has
      obtain ⟨inside, same, _, found⟩ := carrier?_eq_some has
      cases same
      rw [Survey.movesReasoning, found]
      exact surveyed.has_reasoning (List.mem_filterMap.mpr ⟨_, member, has⟩)
    by_cases moved : isReasoningItem members = true ∧ survey.movesReasoning members = true
    · rw [if_pos moved]
      apply ensures_ok
      obtain ⟨reasoning, moving⟩ := moved
      cases found : reasoningCarrier members with
      | none =>
        rw [Survey.movesReasoning, found] at moving
        cases moving
      | some carrier =>
        have has : carrier? (.object members) = some carrier :=
          (carrier?_object reasoning).trans found
        apply along.drop
        · rw [isCheckpointed, callId?_of_isReasoningItem reasoning, has]
          exact decide_eq_true ((moves carrier has).mp moving)
        · rw [answers, outputCallId?_of_isReasoningItem reasoning]
          rfl
    rw [if_neg moved]
    by_cases call : isCallItem members = true
    · rw [if_pos call]
      exact ensures_ok (along.addCall surveyed sound split call)
    rw [if_neg call]
    by_cases output : isOutputItem members = true
    · rw [if_pos output]
      exact along.addOutput surveyed sound output
    rw [if_neg output]
    have noCallId : callId? (.object members) = none := if_neg call
    have noOutput : outputCallId? (.object members) = none := if_neg output
    apply ensures_ok
    apply along.push noCallId
    · rw [isCheckpointed, noCallId]
      cases has : carrier? (.object members) with
      | none => rfl
      | some carrier =>
        obtain ⟨inside, same, reasoning, _⟩ := carrier?_eq_some has
        cases same
        apply decide_eq_false
        intro known
        exact moved ⟨reasoning, (moves carrier has).mpr known⟩
    · intro callId isOutput
      rw [noOutput] at isOutput
      cases isOutput
    · intro _ _
      rw [answers, noOutput]
      rfl
  case h_2 noObject =>
    have none : callId? item = none ∧ carrier? item = none ∧ outputCallId? item = none := by
      cases item with
      | object members => exact (noObject members rfl).elim
      | _ => exact ⟨rfl, rfl, rfl⟩
    obtain ⟨noCallId, noCarrier, noOutput⟩ := none
    apply ensures_ok
    apply along.push noCallId
    · rw [isCheckpointed, noCallId, noCarrier]
      rfl
    · intro callId isOutput
      rw [noOutput] at isOutput
      cases isOutput
    · intro _ _
      rw [answers, noOutput]
      rfl

/-! ## Both passes -/

/-- What `enrich` makes of the client's items. -/
structure Continued (checkpoint : StoredResponse) (original enriched : List WireJson) : Prop where
  merged : Merged checkpoint original (kept checkpoint original) enriched
  answered : ∀ before output after callId, enriched = before ++ output :: after →
    outputCallId? output = some callId → checkpoint.hasCallId callId = true →
      (before.filterMap callId?).count callId = 1
  grouped : checkpoint.formatVersion = .two →
    Grouped checkpoint original (kept checkpoint original) enriched
  callIds : (enriched.filterMap callId?).Nodup
  carriers : (enriched.filterMap carrier?).Nodup

/-- A group is merged into the client's items. -/
theorem Grouped.merged {own : List WireJson} (grouped : Grouped checkpoint original own items) :
    Interleaved own (checkpoint.items.map (restoredItem original)) items := by
  obtain ⟨before, output, after, rfl, rfl, _⟩ := grouped
  have front := (Interleaved.only_left before).append_right
    (checkpoint.items.map (restoredItem original))
  rw [List.nil_append] at front
  have all := front.append (Interleaved.only_left (output :: after))
  rw [List.append_nil] at all
  exact all

/-- The carriers of restored items are those of the stored ones. -/
theorem filterMap_carrier?_restored (surveyed : survey.Along checkpoint original)
    {stored : List StoredReplayItem} (members : ∀ item ∈ stored, item ∈ checkpoint.items)
    (genuine : ∀ item ∈ stored, item.part.Genuine) :
    (stored.map (restoredItem original)).filterMap carrier? =
      stored.filterMap StoredReplayItem.carrier? := by
  rw [List.filterMap_map]
  apply List.filterMap_congr
  intro item member
  by_cases reasoning : item.kind = .reasoning
  · obtain ⟨inside, isRestored, isReasoning, same, _⟩ :=
      restoredItem_reasoning (members item member) (genuine item member) reasoning surveyed
    show carrier? (restoredItem original item) = _
    rw [isRestored, carrier?_object isReasoning, same]
  · obtain ⟨callId, _, identity, _⟩ := restoredItem_call (genuine item member) reasoning surveyed
    show carrier? (restoredItem original item) = _
    rw [carrier?_of_callId? identity, storedCarrier?_of_call reasoning]

/-- Both passes over the client's items. -/
theorem continued_enrichItems (sound : checkpoint.Sound) {enriched : List WireJson}
    (succeeds : enrichItems checkpoint original =
      .ok (changed, enriched)) :
    Continued checkpoint original enriched ∧ (changed = false → enriched = original) := by
  unfold enrichItems at succeeds
  obtain ⟨survey, firstPass, rest⟩ := bind_eq_ok.mp succeeds
  obtain ⟨_, counted, rest⟩ := bind_eq_ok.mp rest
  obtain ⟨state, secondPass, rest⟩ := bind_eq_ok.mp rest
  have surveyed := ensures_survey original survey firstPass
  have along : state.Along checkpoint original original := by
    refine ensures_foldlM_visited (Enrichment.Along checkpoint original) ?_
      Enrichment.along_start state secondPass
    intro visited state item rest split along
    exact along.add surveyed sound split
  have same : state.changed = changed ∧ state.items = enriched := by
    split at rest
    case isTrue =>
      cases rest
      exact ⟨rfl, rfl⟩
    case isFalse => cases rest
  obtain ⟨rfl, rfl⟩ := same
  have grouped : checkpoint.formatVersion = .two →
      Grouped checkpoint original (kept checkpoint original) state.items := by
    intro version
    have placed := along.placed
    rw [version] at placed
    have some : survey.knownOutputs ≠ 0 := by
      intro none
      exact unavailableIf_eq_ok.mp counted ⟨none, .inl version⟩
    obtain ⟨item, member, answersIt⟩ := surveyed.answers_of_knownOutputs some
    cases inserted : state.scopedGroupInserted with
    | true =>
      rw [inserted] at placed
      exact placed
    | false =>
      rw [inserted] at placed
      rw [placed.2 item member] at answersIt
      cases answersIt
  have merged : Merged checkpoint original (kept checkpoint original) state.items := by
    cases version : checkpoint.formatVersion with
    | one =>
      have placed := along.placed
      rw [version] at placed
      exact placed
    | two =>
      refine ⟨_, (grouped version).merged, ?_⟩
      intro item member
      obtain ⟨stored, storedMember, isRestored⟩ := List.mem_map.mp member
      exact ⟨stored, storedMember, isRestored.symm⟩
  have callIds : (state.items.filterMap callId?).Nodup := by
    rw [← along.emitted]
    exact along.nodup
  refine ⟨⟨merged, ?_, grouped, callIds, ?_⟩, along.unchanged⟩
  · intro before output after callId split isOutput known
    have member := along.answered before output after callId split isOutput known
    rw [split, List.filterMap_append] at callIds
    exact List.count_eq_one_of_mem (List.Nodup.of_append_left callIds) member
  · have ownCarriers : ((kept checkpoint original).filterMap carrier?).Nodup :=
      surveyed.nodup_carriers.sublist (List.filter_sublist.filterMap carrier?)
    have ownApart : ∀ carrier ∈ (kept checkpoint original).filterMap carrier?,
        carrier ∉ checkpoint.carriers := by
      intro carrier member stored
      obtain ⟨item, isKept, has⟩ := List.mem_filterMap.mp member
      have own := (List.mem_filter.mp isKept).2
      rw [isCheckpointed, has, Option.any_some, decide_eq_true stored, Bool.or_true] at own
      cases own
    have restoredCarriers : ∃ restored,
        Interleaved (kept checkpoint original) restored state.items ∧
          (restored.filterMap carrier?).Nodup ∧
          ∀ carrier ∈ restored.filterMap carrier?, carrier ∈ checkpoint.carriers := by
      cases version : checkpoint.formatVersion with
      | one =>
        obtain ⟨restored, interleaved, sources⟩ := merged
        have none : restored.filterMap carrier? = [] := by
          rw [List.filterMap_eq_nil_iff]
          intro item member
          obtain ⟨stored, storedMember, rfl⟩ := sources item member
          have call := sound.noReasoning version stored storedMember
          obtain ⟨callId, _, identity, _⟩ :=
            restoredItem_call (sound.genuine stored storedMember) call surveyed
          exact carrier?_of_callId? identity
        refine ⟨restored, interleaved, ?_⟩
        rw [none]
        exact ⟨List.nodup_nil, fun _ member => nomatch member⟩
      | two =>
        refine ⟨_, (grouped version).merged, ?_⟩
        rw [filterMap_carrier?_restored surveyed (fun _ member => member) sound.genuine]
        exact ⟨sound.carriers, fun _ member => member⟩
    obtain ⟨restored, interleaved, nodup, stored⟩ := restoredCarriers
    have all := interleaved.perm.filterMap carrier?
    rw [List.filterMap_append] at all
    rw [all.nodup_iff, List.nodup_append]
    refine ⟨ownCarriers, nodup, ?_⟩
    intro carrier own other restoredMember same
    exact ownApart carrier own (same ▸ stored other restoredMember)

/-! ## The request -/

theorem inputItems_withResponsesRequestInput (request : ResponsesRequest) (items : List WireJson) :
    inputItems (withResponsesRequestInput request (.array items)).input = some items := rfl

/-- The body of the result has the items as its input, and otherwise the members of the
request. -/
structure Sent (request result : ResponsesRequest) (items : List WireJson) : Prop where
  input : ∀ value, (js "input", value) ∈ result.body ↔ value = .array items
  others : result.body.filter (fun member => member.1 ≠ js "input") =
    request.body.filter fun member => member.1 ≠ js "input"

theorem sent_withResponsesRequestInput (request : ResponsesRequest) (items : List WireJson) :
    Sent request (withResponsesRequestInput request (.array items)) items := by
  have others : (request.body.map fun member =>
      if member.1 = js "input" then (member.1, WireJson.array items) else member).filter
        (fun member => member.1 ≠ js "input") =
          request.body.filter fun member => member.1 ≠ js "input" := by
    induction request.body with
    | nil => rfl
    | cons member members ih =>
      by_cases same : member.1 = js "input"
      · simpa [same] using ih
      · simpa [same] using ih
  by_cases replaced : (request.body.any fun member => member.1 = js "input") = true
  · simp only [withResponsesRequestInput, replaced, if_true]
    refine ⟨fun value => ⟨fun member => ?_, ?_⟩, others⟩
    · obtain ⟨before, _, same⟩ := List.mem_map.mp member
      split at same
      · exact (Prod.mk.inj same).2.symm
      · next other =>
        rw [same] at other
        exact absurd rfl other
    · rintro rfl
      obtain ⟨member, isMember, same⟩ := List.any_eq_true.mp replaced
      refine List.mem_map.mpr ⟨member, isMember, ?_⟩
      rw [if_pos (of_decide_eq_true same), of_decide_eq_true same]
  · have none : ∀ member ∈ request.body, member.1 ≠ js "input" := by
      intro member isMember same
      exact replaced (List.any_eq_true.mpr ⟨member, isMember, decide_eq_true same⟩)
    simp only [withResponsesRequestInput, replaced, Bool.false_eq_true, if_false]
    refine ⟨fun value => ⟨fun member => ?_, ?_⟩, ?_⟩
    · rcases List.mem_append.mp member with old | new
      · obtain ⟨before, isMember, same⟩ := List.mem_map.mp old
        rw [if_neg (none before isMember)] at same
        exact absurd (congrArg Prod.fst same) (none before isMember)
      · exact (Prod.mk.inj (List.mem_singleton.mp new)).2
    · rintro rfl
      exact List.mem_append_right _ (List.mem_singleton_self _)
    · rw [List.filter_append]
      simpa using others

/-- Whatever the client sends and the checkpoint holds, a request that is enriched keeps
and completes the conversation, and the body that is sent on says so too. -/
theorem continued_enrich {options : HistoryOptions} {host : HistoryHost} {store : HistoryStore}
    {request result : ResponsesRequest} {receipt : ResponsesRouteReceipt}
    (succeeds : (store.enrich options host request receipt).1 = .ok result) :
    ∃ checkpoint original enriched,
      (sweep options store.ttlMs host.transaction store.db).readResponse options
          (storedKey receipt.accountId receipt.responseId) = .ok (some checkpoint) ∧
        inputItems request.input = some original ∧ inputItems result.input = some enriched ∧
        Continued checkpoint original enriched ∧
        (result = request ∧ enriched = original ∨ Sent request result enriched) := by
  unfold HistoryStore.enrich at succeeds
  split at succeeds
  case isTrue => cases succeeds
  case isFalse =>
    dsimp only at succeeds
    unfold throwIfAborted at succeeds
    split at succeeds
    case isTrue => cases succeeds
    case isFalse =>
      unfold Database.enrich at succeeds
      split at succeeds
      case isTrue => cases succeeds
      case isFalse =>
        obtain ⟨version, _, rest⟩ := bind_eq_ok.mp succeeds
        obtain ⟨_, _, rest⟩ := bind_eq_ok.mp rest
        split at rest
        case h_1 => cases rest
        case h_2 original isOriginal =>
          obtain ⟨checkpoint, isScoped, rest⟩ := bind_eq_ok.mp rest
          obtain ⟨⟨changed, enriched⟩, passed, returned⟩ := bind_eq_ok.mp rest
          unfold Database.readScoped at isScoped
          obtain ⟨response, isRead, isScoped⟩ := bind_eq_ok.mp isScoped
          cases response with
          | none => cases isScoped
          | some scopedResponse =>
            obtain ⟨_, _, same⟩ := bind_eq_ok.mp isScoped
            cases same
            obtain ⟨continued, unchanged⟩ :=
              continued_enrichItems (sound_readResponse isRead) passed
            refine ⟨checkpoint, original, enriched, isRead, isOriginal, ?_, continued, ?_⟩
            all_goals cases returned
            · cases changed with
              | true => exact inputItems_withResponsesRequestInput request enriched
              | false =>
                rw [unchanged rfl]
                exact isOriginal
            · cases changed with
              | true => exact .inr (sent_withResponsesRequestInput request enriched)
              | false => exact .inl ⟨rfl, unchanged rfl⟩

/-! ## An output on its own -/

/-- A call with the id `"c"`. -/
def callItem : WireJsonObject :=
  [(js "type", .string (js "function_call")), (js "call_id", .string (js "c"))]

/-- What is stored of a response that has only this call. -/
def callReplay : StoredReplay where
  formatVersion := .two
  items := [{
    groupOrdinal := 0
    itemOrdinal := 0
    kind := .call .functionCall
    callId := some (js "c")
    item := callItem
    itemJson := js "\x7b\"type\":\"function_call\",\"call_id\":\"c\"\x7d"
    itemBytes := 38 }]
  itemCount := 1
  bytes := 38

def callReceipt : ResponsesRouteReceipt where
  accountId := js "a"
  modelId := js "m"
  upstreamOrigin := js "https://u.test"
  owner := .converted
  upstreamProtocol := .chat
  conversionVersion := some (js "responses-chat-v2")
  responseId := js "r"
  checkpointState := .complete
  expiresAt := 86400000

def callStore : HistoryStore where
  db := { Database.empty with
    receipts := ⟨[{
      key := (js "a", js "r")
      ownership := callReceipt.toOwnership
      checkpointState := .complete
      insertionSeq := 1
      createdAtMs := 0
      expiresAtMs := 86400000 }], List.nodup_singleton _⟩
    checkpoints := ⟨[{
      key := (js "a", js "r")
      insertionSeq := 1
      createdAtMs := 0
      replayFormatVersion := callReplay.formatVersion
      replayItemCount := callReplay.itemCount
      replayBytes := callReplay.bytes
      items := callReplay.items.map StoredReplayItem.row }], List.nodup_singleton _⟩ }
  ttlMs := 86400000
  recentReceiptCleanup := OrderedMap.empty

def outputRequest : ResponsesRequest where
  body := []
  model := none
  stream := false
  store := none
  input := some (.array [.object [(js "type", .string (js "function_call_output")),
    (js "call_id", .string (js "c"))]])
  previousResponseId := some (js "r")

set_option maxRecDepth 20000 in
theorem readResponse_callStore : callStore.db.readResponse .defaults (js "a", js "r") =
    .ok (some ⟨.two, callReplay.items, callReplay.items⟩) := by
  have extracted : extractRecordableReplay .defaults (.items [.object callItem]) .two =
      .ok callReplay := by decide
  have recorded := recorded_extractRecordableReplay extracted
  have keepsText : KeepsText id := fun _ _ => rfl
  have stores : CheckpointRow.Stores id
      ⟨(js "a", js "r"), 1, 0, callReplay.formatVersion, callReplay.itemCount, callReplay.bytes,
        callReplay.items.map StoredReplayItem.row⟩ callReplay := ⟨rfl, rfl, rfl, rfl⟩
  have isRead := (recorded.readReplay_iff keepsText stores).mpr
    ⟨List.cons_ne_nil _ _, by
      intro item single
      rw [List.mem_singleton.mp single]
      exact ⟨by decide, rfl⟩⟩
  exact bind_eq_ok.mpr ⟨callReplay, isRead, rfl⟩

set_option maxRecDepth 20000 in
theorem enrich_callStore :
    (callStore.enrich .defaults (.still 1) outputRequest callReceipt).1 =
      .ok (withResponsesRequestInput outputRequest
        (.array [.object callItem, .object [(js "type", .string (js "function_call_output")),
          (js "call_id", .string (js "c"))]])) := by
  have swept : sweep .defaults callStore.ttlMs 1 callStore.db = callStore.db := rfl
  have passed : enrichItems ⟨.two, callReplay.items, callReplay.items⟩
      [.object [(js "type", .string (js "function_call_output")),
        (js "call_id", .string (js "c"))]] =
      .ok (true, [.object callItem, .object [(js "type", .string (js "function_call_output")),
        (js "call_id", .string (js "c"))]]) := by decide
  have isScoped : callStore.db.readScoped .defaults callReceipt .two =
      .ok ⟨.two, callReplay.items, callReplay.items⟩ :=
    bind_eq_ok.mpr ⟨_, readResponse_callStore, rfl⟩
  show Database.enrich .defaults (sweep .defaults callStore.ttlMs 1 callStore.db) outputRequest
    callReceipt = _
  rw [swept]
  refine bind_eq_ok.mpr ⟨.two, by decide, ?_⟩
  refine bind_eq_ok.mpr ⟨(), by decide, ?_⟩
  refine bind_eq_ok.mpr ⟨_, isScoped, ?_⟩
  exact bind_eq_ok.mpr ⟨_, passed, rfl⟩

/-- The call is put in front of its output. -/
theorem continued_enrich_output : ∃ result checkpoint original enriched,
    (callStore.enrich .defaults (.still 1) outputRequest callReceipt).1 = .ok result ∧
      (sweep .defaults callStore.ttlMs 1 callStore.db).readResponse .defaults
          (storedKey (js "a") (js "r")) = .ok (some checkpoint) ∧
        inputItems outputRequest.input = some original ∧
        inputItems result.input = some enriched ∧ Continued checkpoint original enriched ∧
        (result = outputRequest ∧ enriched = original ∨ Sent outputRequest result enriched) := by
  obtain ⟨checkpoint, original, enriched, continued⟩ := continued_enrich enrich_callStore
  exact ⟨_, checkpoint, original, enriched, enrich_callStore, continued⟩

end GhcGateway.History
