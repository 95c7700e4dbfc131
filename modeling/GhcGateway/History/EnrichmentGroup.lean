/-
# What the second pass inserts

The stored items are inserted in their order. A call that has been emitted already is
left out; the others are restored, completed by what the client has sent under the
same id or carrier.
-/

import GhcGateway.History.EnrichmentSurvey

namespace GhcGateway.History

open Library Enrichment

variable {checkpoint : StoredResponse} {original : List WireJson} {survey : Survey}
  {stored : StoredReplayItem}

/-- A stored item as the client's items complete it: a reasoning item is the client's
with the same carrier, a call the client's with the same id and its empty fields
filled. What the client has not sent is as it was stored. -/
def restoredItem (original : List WireJson) (stored : StoredReplayItem) : WireJson :=
  match stored.kind with
  | .reasoning =>
    match reasoningCarrier stored.item with
    | none => .object stored.item
    | some carrier =>
      (original.find? fun item => carrier? item = some carrier).getD (.object stored.item)
  | .call _ =>
    match original.find? fun item => callId? item = stored.callId with
    | some (.object item) => .object (fillEmptyFields item stored.item)
    | _ => .object stored.item

/-! ## Restored items -/

theorem restoredItem_call (genuine : stored.part.Genuine) (call : stored.kind ≠ .reasoning)
    (along : survey.Along checkpoint original) :
    ∃ callId, stored.callId = some callId ∧ callId? (restoredItem original stored) = some callId ∧
      .object (restoreCall stored (survey.originalCallsById.get callId)) =
        restoredItem original stored := by
  obtain ⟨callId, hasId, identity⟩ := callId_of_genuine genuine call
  refine ⟨callId, hasId, ?_⟩
  have restored : restoredItem original stored =
      match original.find? fun item => callId? item = some callId with
      | some (.object item) => .object (fillEmptyFields item stored.item)
      | _ => .object stored.item := by
    rw [← hasId]
    unfold restoredItem
    split
    case h_1 reasoning => exact absurd reasoning call
    case h_2 => rfl
  rw [restored, along.get_call]
  cases sent : original.find? fun item => callId? item = some callId with
  | none => exact ⟨identity, rfl⟩
  | some item =>
    have sentId : callId? item = some callId := by simpa using List.find?_some sent
    obtain ⟨members, rfl, _⟩ := callId?_eq_some sentId
    exact ⟨(callId?_fillEmptyFields members stored.item).trans sentId, rfl⟩

theorem restoredItem_reasoning (member : stored ∈ checkpoint.items) (genuine : stored.part.Genuine)
    (reasoning : stored.kind = .reasoning) (along : survey.Along checkpoint original) :
    ∃ members, restoredItem original stored = .object members ∧ isReasoningItem members = true ∧
      reasoningCarrier members = stored.carrier? ∧
        survey.restoreReasoning stored.item = members := by
  have isReasoning := isReasoningItem_of_genuine genuine reasoning
  have carrier := storedCarrier?_of_reasoning reasoning
  have restored : restoredItem original stored =
      match reasoningCarrier stored.item with
      | none => .object stored.item
      | some carrier =>
        (original.find? fun item => carrier? item = some carrier).getD (.object stored.item) := by
    unfold restoredItem
    rw [reasoning]
  rw [restored, carrier]
  unfold Survey.restoreReasoning
  cases found : reasoningCarrier stored.item with
  | none => exact ⟨stored.item, rfl, isReasoning, found, rfl⟩
  | some identity =>
    have known : identity ∈ checkpoint.carriers :=
      List.mem_filterMap.mpr ⟨stored, member, carrier.trans found⟩
    dsimp only
    rw [along.get_reasoning known]
    cases sent : original.find? fun item => carrier? item = some identity with
    | none => exact ⟨stored.item, rfl, isReasoning, found, rfl⟩
    | some item =>
      have sentCarrier : carrier? item = some identity := by simpa using List.find?_some sent
      obtain ⟨members, rfl, sentReasoning, hasCarrier⟩ := carrier?_eq_some sentCarrier
      exact ⟨members, rfl, sentReasoning, hasCarrier, rfl⟩

/-! ## Inserting -/

structure Enrichment.Inserts (original : List WireJson) (stored : List StoredReplayItem)
    (before after : Enrichment) (inserted : List WireJson) : Prop where
  items : after.items = before.items ++ inserted
  emitted : after.emittedCallIds = before.emittedCallIds ++ inserted.filterMap callId?
  nodup : before.emittedCallIds.Nodup → after.emittedCallIds.Nodup
  restored : ∀ item ∈ inserted, ∃ source ∈ stored, item = restoredItem original source
  noOutput : ∀ item ∈ inserted, outputCallId? item = none
  sources : ∀ callId ∈ inserted.filterMap callId?, ∃ source ∈ stored, source.callId = some callId
  emitsAll : ∀ source ∈ stored, ∀ callId, source.callId = some callId →
    callId ∈ after.emittedCallIds
  whole : (∀ source ∈ stored, ∀ callId, source.callId = some callId →
      callId ∉ before.emittedCallIds) → (stored.filterMap StoredReplayItem.callId).Nodup →
    inserted = stored.map (restoredItem original)
  sawOutput : after.sawOutput = before.sawOutput
  changed : after.changed = false → inserted = [] ∧ before.changed = false

theorem Enrichment.inserts_nil (state : Enrichment) :
    state.Inserts original [] state [] where
  items := (List.append_nil _).symm
  emitted := (List.append_nil _).symm
  nodup := id
  restored := fun _ member => nomatch member
  noOutput := fun _ member => nomatch member
  sources := fun _ member => nomatch member
  emitsAll := fun _ member => nomatch member
  whole := fun _ _ => rfl
  sawOutput := rfl
  changed := fun unchanged => ⟨rfl, unchanged⟩

/-- One stored item. -/
theorem Enrichment.inserts_insertItem (member : stored ∈ checkpoint.items)
    (genuine : stored.part.Genuine) (along : survey.Along checkpoint original)
    (state : Enrichment) :
    ∃ inserted, state.Inserts original [stored] (state.insertItem survey stored) inserted := by
  by_cases reasoning : stored.kind = .reasoning
  · obtain ⟨members, isRestored, isReasoning, _, restores⟩ :=
      restoredItem_reasoning member genuine reasoning along
    have noCallId : stored.callId = none := by
      rcases kind_of_genuine genuine with ⟨_, none, _⟩ | ⟨kind, _, call, _⟩
      · exact none
      · have call : stored.kind = .call kind := call
        rw [reasoning] at call
        cases call
    have inserts : state.insertItem survey stored =
        { state with
          items := state.items ++ [restoredItem original stored]
          changed := true } := by
      unfold insertItem
      rw [reasoning, isRestored, ← restores]
    have noIdentity : callId? (restoredItem original stored) = none := by
      rw [isRestored]
      exact callId?_of_isReasoningItem isReasoning
    have none : [restoredItem original stored].filterMap callId? = [] :=
      List.filterMap_cons_none noIdentity
    rw [inserts]
    refine ⟨[restoredItem original stored], ?_⟩
    constructor
    · rfl
    · rw [none]
      exact (List.append_nil _).symm
    · exact id
    · intro item single
      exact ⟨stored, List.mem_singleton_self stored, List.mem_singleton.mp single⟩
    · intro item single
      rw [List.mem_singleton.mp single, isRestored]
      exact outputCallId?_of_isReasoningItem isReasoning
    · rw [none]
      exact fun _ member => nomatch member
    · intro source single callId hasId
      rw [List.mem_singleton.mp single, noCallId] at hasId
      cases hasId
    · exact fun _ _ => rfl
    · rfl
    · exact fun unchanged => nomatch unchanged
  · obtain ⟨callId, hasId, identity, restores⟩ := restoredItem_call genuine reasoning along
    have inserts : state.insertItem survey stored =
        if callId ∈ state.emittedCallIds then state
        else { state with
          items := state.items ++ [restoredItem original stored]
          emittedCallIds := state.emittedCallIds ++ [callId]
          changed := true } := by
      unfold insertItem
      split
      case h_1 isReasoning => exact absurd isReasoning reasoning
      case h_2 =>
        unfold insertCall
        rw [hasId]
        dsimp only
        rw [restores]
    have one : [restoredItem original stored].filterMap callId? = [callId] :=
      List.filterMap_cons_some identity
    rw [inserts]
    by_cases emitted : callId ∈ state.emittedCallIds
    · rw [if_pos emitted]
      refine ⟨[], ?_⟩
      constructor
      · exact (List.append_nil _).symm
      · exact (List.append_nil _).symm
      · exact id
      · exact fun _ member => nomatch member
      · exact fun _ member => nomatch member
      · exact fun _ member => nomatch member
      · intro source single other hasOther
        rw [List.mem_singleton.mp single, hasId] at hasOther
        cases hasOther
        exact emitted
      · intro fresh _
        exact absurd emitted (fresh stored (List.mem_singleton_self stored) callId hasId)
      · rfl
      · exact fun unchanged => ⟨rfl, unchanged⟩
    · rw [if_neg emitted]
      refine ⟨[restoredItem original stored], ?_⟩
      constructor
      · rfl
      · rw [one]
      · intro nodup
        apply List.nodup_append.mpr
        refine ⟨nodup, List.nodup_singleton callId, ?_⟩
        intro old oldMember new single same
        rw [List.mem_singleton] at single
        exact emitted (single ▸ same ▸ oldMember)
      · intro item single
        exact ⟨stored, List.mem_singleton_self stored, List.mem_singleton.mp single⟩
      · intro item single
        rw [List.mem_singleton.mp single]
        exact outputCallId?_of_callId? identity
      · rw [one]
        intro other single
        rw [List.mem_singleton.mp single]
        exact ⟨stored, List.mem_singleton_self stored, hasId⟩
      · intro source single other hasOther
        rw [List.mem_singleton.mp single, hasId] at hasOther
        cases hasOther
        exact List.mem_append_right _ (List.mem_singleton_self callId)
      · exact fun _ _ => rfl
      · rfl
      · exact fun unchanged => nomatch unchanged

/-- Some stored items after others. -/
theorem Enrichment.Inserts.append {first second : List StoredReplayItem}
    {before middle after : Enrichment} {inserted more : List WireJson}
    (inserts : before.Inserts original first middle inserted)
    (insertsMore : middle.Inserts original second after more) :
    before.Inserts original (first ++ second) after (inserted ++ more) where
  items := by rw [insertsMore.items, inserts.items, List.append_assoc]
  emitted := by
    rw [insertsMore.emitted, inserts.emitted, List.filterMap_append, List.append_assoc]
  nodup := fun nodup => insertsMore.nodup (inserts.nodup nodup)
  restored := by
    intro item member
    rcases List.mem_append.mp member with old | new
    · obtain ⟨source, sourceMember, same⟩ := inserts.restored item old
      exact ⟨source, List.mem_append_left _ sourceMember, same⟩
    · obtain ⟨source, sourceMember, same⟩ := insertsMore.restored item new
      exact ⟨source, List.mem_append_right _ sourceMember, same⟩
  noOutput := by
    intro item member
    rcases List.mem_append.mp member with old | new
    · exact inserts.noOutput item old
    · exact insertsMore.noOutput item new
  sources := by
    intro callId member
    rw [List.filterMap_append] at member
    rcases List.mem_append.mp member with old | new
    · obtain ⟨source, sourceMember, hasId⟩ := inserts.sources callId old
      exact ⟨source, List.mem_append_left _ sourceMember, hasId⟩
    · obtain ⟨source, sourceMember, hasId⟩ := insertsMore.sources callId new
      exact ⟨source, List.mem_append_right _ sourceMember, hasId⟩
  emitsAll := by
    intro source member callId hasId
    rcases List.mem_append.mp member with old | new
    · rw [insertsMore.emitted]
      exact List.mem_append_left _ (inserts.emitsAll source old callId hasId)
    · exact insertsMore.emitsAll source new callId hasId
  whole := by
    intro fresh nodup
    rw [List.filterMap_append, List.nodup_append] at nodup
    obtain ⟨firstNodup, secondNodup, apart⟩ := nodup
    have firstWhole := inserts.whole
      (fun source member => fresh source (List.mem_append_left _ member)) firstNodup
    have secondFresh : ∀ source ∈ second, ∀ callId, source.callId = some callId →
        callId ∉ middle.emittedCallIds := by
      intro source member callId hasId emitted
      rw [inserts.emitted] at emitted
      rcases List.mem_append.mp emitted with old | new
      · exact fresh source (List.mem_append_right _ member) callId hasId old
      · obtain ⟨other, otherMember, otherId⟩ := inserts.sources callId new
        have inFirst : callId ∈ first.filterMap StoredReplayItem.callId :=
          List.mem_filterMap.mpr ⟨other, otherMember, otherId⟩
        have inSecond : callId ∈ second.filterMap StoredReplayItem.callId :=
          List.mem_filterMap.mpr ⟨source, member, hasId⟩
        exact apart callId inFirst callId inSecond rfl
    rw [firstWhole, insertsMore.whole secondFresh secondNodup, List.map_append]
  sawOutput := insertsMore.sawOutput.trans inserts.sawOutput
  changed := by
    intro unchanged
    obtain ⟨nothingMore, middleUnchanged⟩ := insertsMore.changed unchanged
    obtain ⟨nothing, beforeUnchanged⟩ := inserts.changed middleUnchanged
    exact ⟨by rw [nothing, nothingMore, List.append_nil], beforeUnchanged⟩

/-- A loop over stored items. -/
theorem Enrichment.inserts_foldl (along : survey.Along checkpoint original)
    {stored : List StoredReplayItem} (members : ∀ item ∈ stored, item ∈ checkpoint.items)
    (genuine : ∀ item ∈ stored, item.part.Genuine) (state : Enrichment) :
    ∃ inserted,
      state.Inserts original stored (stored.foldl (insertItem survey) state)
        inserted := by
  induction stored generalizing state with
  | nil => exact ⟨[], state.inserts_nil⟩
  | cons item stored ih =>
    obtain ⟨one, insertsOne⟩ := inserts_insertItem
      (members item List.mem_cons_self) (genuine item List.mem_cons_self) along state
    obtain ⟨more, insertsMore⟩ :=
      ih (fun other member => members other (List.mem_cons_of_mem _ member))
      (fun other member => genuine other (List.mem_cons_of_mem _ member))
      (state.insertItem survey item)
    exact ⟨one ++ more, insertsOne.append insertsMore⟩

/-- In either format, what is inserted are the stored items. -/
theorem Enrichment.insertGroup_eq (sound : checkpoint.Sound) (state : Enrichment) :
    state.insertGroup checkpoint survey =
      { checkpoint.items.foldl (insertItem survey) state with
        scopedGroupInserted := true } := by
  unfold insertGroup
  cases version : checkpoint.formatVersion with
  | two => rfl
  | one =>
    have onlyCalls := sound.noReasoning version
    have all : checkpoint.calls = checkpoint.items := by
      rw [sound.calls, List.filter_eq_self]
      intro item member
      exact decide_eq_true (onlyCalls item member)
    have same : ∀ (stored : List StoredReplayItem) (state : Enrichment),
        (∀ item ∈ stored, item.kind ≠ .reasoning) →
          stored.foldl (insertCall survey) state =
            stored.foldl (insertItem survey) state := by
      intro stored
      induction stored with
      | nil => exact fun _ _ => rfl
      | cons item stored ih =>
        intro state calls
        have call : state.insertItem survey item = state.insertCall survey item := by
          unfold insertItem
          split
          case h_1 reasoning => exact absurd reasoning (calls item List.mem_cons_self)
          case h_2 => rfl
        rw [List.foldl_cons, List.foldl_cons, call]
        exact ih _ fun other member => calls other (List.mem_cons_of_mem _ member)
    rw [all]
    exact congrArg (fun next : Enrichment => { next with scopedGroupInserted := true })
      (same checkpoint.items state onlyCalls)

/-- What `insertGroup` inserts. -/
theorem Enrichment.inserts_insertGroup (sound : checkpoint.Sound)
    (along : survey.Along checkpoint original) (state : Enrichment) :
    ∃ inserted, state.Inserts original checkpoint.items (state.insertGroup checkpoint survey)
      inserted := by
  obtain ⟨inserted, inserts⟩ :=
    inserts_foldl along (fun _ member => member) sound.genuine state
  rw [insertGroup_eq sound]
  exact ⟨inserted, { inserts with }⟩

end GhcGateway.History
