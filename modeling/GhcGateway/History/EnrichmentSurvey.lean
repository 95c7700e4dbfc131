/-
# What the first pass of the enrichment knows

The first pass goes through the client's items and remembers the calls under their
ids and the reasoning items under the carriers that the checkpoint has as well. It
throws where a call or an output has no id, and where two calls have one id or two
reasoning items one carrier.
-/

import GhcGateway.History.EnrichmentItems

namespace GhcGateway.History

open Library

variable {checkpoint : StoredResponse}
  {visited : List WireJson} {survey : Survey} {item : WireJsonObject} {carrier : JsString}

/-- Whether an item is the output of a checkpointed call. -/
def answers (checkpoint : StoredResponse) (item : WireJson) : Bool :=
  (outputCallId? item).any checkpoint.hasCallId

/-- Whether an item is a checkpointed call, or a reasoning item with the carrier of
one. -/
def isCheckpointed (checkpoint : StoredResponse) (item : WireJson) : Bool :=
  (callId? item).any checkpoint.hasCallId ||
    (carrier? item).any fun carrier => carrier ∈ checkpoint.carriers

/-! ## Entries -/

def members? : WireJson → Option WireJsonObject
  | .object members => some members
  | _ => none

/-- An item under its identity, if that is one to remember. -/
def entryOf (identity? : WireJson → Option JsString) (remembered : JsString → Bool)
    (item : WireJson) : Option (JsString × WireJsonObject) :=
  match identity? item, members? item with
  | some identity, some members => if remembered identity then some (identity, members) else none
  | _, _ => none

section Entries

variable {identity? : WireJson → Option JsString} {remembered : JsString → Bool}
  {identity : JsString}

theorem entryOf_of_none {item : WireJson} (absent : identity? item = none) :
    entryOf identity? remembered item = none := by
  unfold entryOf
  rw [absent]

theorem entryOf_object {members : WireJsonObject}
    (has : identity? (.object members) = some identity) :
    entryOf identity? remembered (.object members) =
      if remembered identity then some (identity, members) else none := by
  unfold entryOf
  rw [has]
  rfl

/-- The entries have the identities that are remembered. -/
theorem fst_entries (objects : ∀ item identity, identity? item = some identity →
    ∃ members, item = .object members) (items : List WireJson) :
    (items.filterMap (entryOf identity? remembered)).map Prod.fst =
      (items.filterMap identity?).filter remembered := by
  induction items with
  | nil => rfl
  | cons item items ih =>
    cases found : identity? item with
    | none =>
      rw [List.filterMap_cons_none (entryOf_of_none found), List.filterMap_cons_none found, ih]
    | some identity =>
      obtain ⟨members, rfl⟩ := objects item identity found
      have entry : entryOf identity? remembered (.object members) = _ := entryOf_object found
      rw [List.filterMap_cons_some found, List.filter_cons]
      by_cases known : remembered identity = true
      · rw [if_pos known] at entry
        rw [List.filterMap_cons_some entry, if_pos known, List.map_cons, ih]
      · rw [if_neg known] at entry
        rw [List.filterMap_cons_none entry, if_neg known, ih]

/-- What is remembered under an identity is the first item that has it. -/
theorem getEntry_entries (objects : ∀ item identity, identity? item = some identity →
    ∃ members, item = .object members) (known : remembered identity = true)
    (items : List WireJson) :
    OrderedMap.getEntry (items.filterMap (entryOf identity? remembered)) identity =
      (items.find? fun item => identity? item = some identity).bind members? := by
  induction items with
  | nil => rfl
  | cons item items ih =>
    cases found : identity? item with
    | none =>
      rw [List.filterMap_cons_none (entryOf_of_none found), ih,
        List.find?_cons_of_neg (by simp [found])]
    | some other =>
      obtain ⟨members, rfl⟩ := objects item other found
      have entry : entryOf identity? remembered (.object members) = _ := entryOf_object found
      by_cases same : other = identity
      · subst same
        rw [if_pos known] at entry
        rw [List.filterMap_cons_some entry, List.find?_cons_of_pos (by simp [found])]
        exact if_pos rfl
      · have apart : ¬ identity? (.object members) = some identity := by
          rw [found]
          exact fun eq => same (Option.some.inj eq)
        rw [List.find?_cons, decide_eq_false apart, ← ih]
        by_cases otherKnown : remembered other = true
        · rw [if_pos otherKnown] at entry
          rw [List.filterMap_cons_some entry]
          exact if_neg same
        · rw [if_neg otherKnown] at entry
          rw [List.filterMap_cons_none entry]

end Entries

theorem object_of_callId? (item : WireJson) (callId : JsString) (has : callId? item = some callId) :
    ∃ members, item = .object members := by
  obtain ⟨members, same, _⟩ := callId?_eq_some has
  exact ⟨members, same⟩

theorem object_of_carrier? (item : WireJson) (carrier : JsString)
    (has : carrier? item = some carrier) : ∃ members, item = .object members := by
  obtain ⟨members, same, _⟩ := carrier?_eq_some has
  exact ⟨members, same⟩

/-! ## The pass -/

def callEntryOf : WireJson → Option (JsString × WireJsonObject) := entryOf callId? fun _ => true

/-- The reasoning items of the checkpoint are remembered. -/
def reasoningEntryOf (checkpoint : StoredResponse) :
    WireJson → Option (JsString × WireJsonObject) :=
  entryOf carrier? fun carrier => carrier ∈ checkpoint.carriers

/-- What the first pass knows after some items. -/
structure Survey.Along (checkpoint : StoredResponse) (visited : List WireJson) (survey : Survey) :
    Prop where
  calls : survey.originalCallsById.entries = visited.filterMap callEntryOf
  reasoning :
    survey.originalReasoningByCarrier.entries = visited.filterMap (reasoningEntryOf checkpoint)
  carriers : survey.originalCarriers = visited.filterMap carrier?
  nodup : survey.originalCarriers.Nodup
  identified : ∀ item, .object item ∈ visited →
    isCallItem item = true ∨ isOutputItem item = true →
      ∃ callId, strictCallIdFromItem item = some callId
  outputs : survey.knownOutputs = visited.countP (answers checkpoint)

theorem Survey.along_start : Survey.start.Along checkpoint [] :=
  ⟨rfl, rfl, rfl, List.nodup_nil, (fun _ member => nomatch member), rfl⟩

/-- One item more, from what it adds to each of the variables. -/
theorem Survey.Along.snoc {next : Survey} (along : survey.Along checkpoint visited)
    {item : WireJson} (calls : next.originalCallsById.entries =
      survey.originalCallsById.entries ++ (callEntryOf item).toList)
    (reasoning : next.originalReasoningByCarrier.entries =
      survey.originalReasoningByCarrier.entries ++ (reasoningEntryOf checkpoint item).toList)
    (carriers : next.originalCarriers = survey.originalCarriers ++ (carrier? item).toList)
    (nodup : next.originalCarriers.Nodup) (identified : ∀ members, item = .object members →
      isCallItem members = true ∨ isOutputItem members = true →
        ∃ callId, strictCallIdFromItem members = some callId) (outputs : next.knownOutputs =
      survey.knownOutputs + if answers checkpoint item then 1 else 0) :
    next.Along checkpoint (visited ++ [item]) where
  calls := by rw [calls, along.calls, filterMap_concat]
  reasoning := by rw [reasoning, along.reasoning, filterMap_concat]
  carriers := by rw [carriers, along.carriers, filterMap_concat]
  nodup := nodup
  identified := by
    intro members member
    rcases List.mem_append.mp member with old | new
    · exact along.identified members old
    · exact identified members (List.mem_singleton.mp new).symm
  outputs := by rw [outputs, along.outputs, List.countP_append, List.countP_singleton]

theorem answers_of_not_isOutputItem (notOutput : ¬ isOutputItem item = true) :
    answers checkpoint (.object item) = false := by
  have none : outputCallId? (.object item) = none := if_neg notOutput
  rw [answers, none]
  rfl

/-- An item that is no call, no reasoning item and no output is remembered by no
variable. -/
theorem Survey.Along.skip (along : survey.Along checkpoint visited) {item : WireJson}
    (noCall : callId? item = none) (noCarrier : carrier? item = none)
    (noOutput : answers checkpoint item = false) (identified : ∀ members, item = .object members →
      isCallItem members = true ∨ isOutputItem members = true →
        ∃ callId, strictCallIdFromItem members = some callId) :
    survey.Along checkpoint (visited ++ [item]) := by
  have noCallEntry : callEntryOf item = none := entryOf_of_none noCall
  have noReasoningEntry : reasoningEntryOf checkpoint item = none := entryOf_of_none noCarrier
  refine along.snoc ?calls ?reasoning ?carriers along.nodup identified ?outputs
  case calls =>
    rw [noCallEntry]
    exact (List.append_nil _).symm
  case reasoning =>
    rw [noReasoningEntry]
    exact (List.append_nil _).symm
  case carriers =>
    rw [noCarrier]
    exact (List.append_nil _).symm
  case outputs =>
    rw [noOutput]
    rfl

/-- A key that no entry has is not set. -/
theorem get_eq_none_of_entries {map : OrderedMap JsString WireJsonObject}
    {entries : List (JsString × WireJsonObject)} (same : map.entries = entries) {key : JsString}
    (absent : key ∉ entries.map Prod.fst) : map.get key = none := by
  rw [OrderedMap.get_eq_none, OrderedMap.keys, same]
  exact absent

theorem Survey.Along.addCall (along : survey.Along checkpoint visited)
    (call : isCallItem item = true) (notOutput : ¬ isOutputItem item = true) :
    Ensures (survey.addCall checkpoint item)
      (Survey.Along checkpoint (visited ++ [.object item])) := by
  unfold Survey.addCall
  split
  case h_1 => exact ensures_error
  case h_2 callId strict =>
    refine ensures_bind fun _ fresh => ensures_ok ?_
    have absent : survey.originalCallsById.get callId = none := by
      have notHas := unavailableIf_eq_ok.mp fresh
      rw [OrderedMap.has, Bool.not_eq_true, Option.isSome_eq_false_iff, Option.isNone_iff_eq_none]
        at notHas
      exact notHas
    have identity : callId? (.object item) = some callId := (callId?_object call).trans strict
    have entry : callEntryOf (.object item) = some (callId, item) := entryOf_object identity
    have noCarrier : carrier? (.object item) = none := carrier?_of_callId? identity
    have noReasoningEntry : reasoningEntryOf checkpoint (.object item) = none :=
      entryOf_of_none noCarrier
    refine along.snoc ?calls ?reasoning ?carriers along.nodup ?identified ?outputs
    case calls =>
      rw [entry]
      exact OrderedMap.entries_set_of_absent absent item
    case reasoning =>
      rw [noReasoningEntry]
      exact (List.append_nil _).symm
    case carriers =>
      rw [noCarrier]
      exact (List.append_nil _).symm
    case identified =>
      intro members same _
      cases same
      exact ⟨callId, strict⟩
    case outputs =>
      rw [answers_of_not_isOutputItem notOutput]
      rfl

theorem Survey.Along.addReasoning (along : survey.Along checkpoint visited)
    (reasoning : isReasoningItem item = true) (notCall : ¬ isCallItem item = true)
    (notOutput : ¬ isOutputItem item = true) :
    Ensures (survey.addReasoning checkpoint item)
      (Survey.Along checkpoint (visited ++ [.object item])) := by
  have noCall : callId? (.object item) = none := callId?_of_isReasoningItem reasoning
  have noOutput : answers checkpoint (.object item) = false := answers_of_not_isOutputItem notOutput
  have noCallEntry : callEntryOf (.object item) = none := entryOf_of_none noCall
  have neither : ∀ members, WireJson.object item = .object members →
      isCallItem members = true ∨ isOutputItem members = true →
        ∃ callId, strictCallIdFromItem members = some callId := by
    intro members same either
    cases same
    rcases either with call | output
    · exact absurd call notCall
    · exact absurd output notOutput
  unfold Survey.addReasoning
  split
  case h_1 noCarrier =>
    have absent : carrier? (.object item) = none := (carrier?_object reasoning).trans noCarrier
    exact ensures_ok (along.skip noCall absent noOutput neither)
  case h_2 carrier found =>
    refine ensures_bind fun _ fresh => ensures_ok ?_
    have fresh : carrier ∉ survey.originalCarriers := unavailableIf_eq_ok.mp fresh
    have identity : carrier? (.object item) = some carrier :=
      (carrier?_object reasoning).trans found
    have entry : reasoningEntryOf checkpoint (.object item) =
        if decide (carrier ∈ checkpoint.carriers) then some (carrier, item) else none :=
      entryOf_object identity
    refine along.snoc ?calls ?reasoning ?carriers ?nodup neither ?outputs
    case calls =>
      rw [noCallEntry]
      exact (List.append_nil _).symm
    case reasoning =>
      rw [entry]
      dsimp only
      by_cases known : carrier ∈ checkpoint.carriers
      · rw [if_pos known, if_pos (decide_eq_true known)]
        apply OrderedMap.entries_set_of_absent
        apply get_eq_none_of_entries along.reasoning
        rw [reasoningEntryOf, fst_entries object_of_carrier?, List.mem_filter, ← along.carriers]
        exact fun both => fresh both.1
      · rw [if_neg known, if_neg (by simpa using known)]
        exact (List.append_nil _).symm
    case carriers =>
      rw [identity]
      rfl
    case nodup =>
      apply List.nodup_append.mpr
      refine ⟨along.nodup, List.nodup_singleton carrier, ?_⟩
      intro old member new single same
      rw [List.mem_singleton] at single
      exact fresh (single ▸ same ▸ member)
    case outputs =>
      rw [noOutput]
      rfl

theorem Survey.Along.addOutput (along : survey.Along checkpoint visited)
    (output : isOutputItem item = true) :
    Ensures (survey.addOutput checkpoint item)
      (Survey.Along checkpoint (visited ++ [.object item])) := by
  have noCall : callId? (.object item) = none := callId?_of_isOutputItem output
  have noCarrier : carrier? (.object item) = none :=
    if_neg (Bool.eq_false_iff.mp (not_isReasoningItem_of_isOutputItem output))
  have noCallEntry : callEntryOf (.object item) = none := entryOf_of_none noCall
  have noReasoningEntry : reasoningEntryOf checkpoint (.object item) = none :=
    entryOf_of_none noCarrier
  unfold Survey.addOutput
  rw [if_pos output]
  split
  case h_1 => exact ensures_error
  case h_2 callId strict =>
    have identity : outputCallId? (.object item) = some callId :=
      (outputCallId?_object output).trans strict
    have identified : ∀ members, WireJson.object item = .object members →
        isCallItem members = true ∨ isOutputItem members = true →
          ∃ callId, strictCallIdFromItem members = some callId := by
      intro members same _
      cases same
      exact ⟨callId, strict⟩
    have answered : answers checkpoint (.object item) = checkpoint.hasCallId callId := by
      rw [answers, identity]
      rfl
    split
    case isTrue known =>
      apply ensures_ok
      refine along.snoc ?calls ?reasoning ?carriers along.nodup identified ?outputs
      case calls =>
        rw [noCallEntry]
        exact (List.append_nil _).symm
      case reasoning =>
        rw [noReasoningEntry]
        exact (List.append_nil _).symm
      case carriers =>
        rw [noCarrier]
        exact (List.append_nil _).symm
      case outputs =>
        rw [answered, known]
        rfl
    case isFalse unknown =>
      apply ensures_ok
      apply along.skip noCall noCarrier _ identified
      rw [answered]
      exact Bool.eq_false_iff.mpr unknown

theorem Survey.Along.add (along : survey.Along checkpoint visited) (item : WireJson) :
    Ensures (survey.add checkpoint item) (Survey.Along checkpoint (visited ++ [item])) := by
  unfold Survey.add
  split
  case h_1 members =>
    refine ensures_bind fun _ _ => ensures_bind fun _ _ => ?_
    by_cases output : isOutputItem members = true
    · refine (along.addOutput output).bind fun next nextAlong => ?_
      rw [if_neg (Bool.eq_false_iff.mp (not_isCallItem_of_isOutputItem output)),
        if_neg (Bool.eq_false_iff.mp (not_isReasoningItem_of_isOutputItem output))]
      exact ensures_ok nextAlong
    · have noOutput : survey.addOutput checkpoint members = .ok survey := if_neg output
      rw [noOutput]
      refine ensures_ite (fun call => along.addCall call output) fun notCall =>
        ensures_ite (fun reasoning => along.addReasoning reasoning notCall output) fun other => ?_
      have noCall : callId? (.object members) = none := if_neg notCall
      have noCarrier : carrier? (.object members) = none := if_neg other
      apply ensures_ok
      apply along.skip noCall noCarrier (answers_of_not_isOutputItem output)
      intro inside same either
      cases same
      rcases either with call | isOutput
      · exact absurd call notCall
      · exact absurd isOutput output
  case h_2 noObject =>
    have noCall : callId? item = none := by
      cases item with
      | object members => exact (noObject members rfl).elim
      | _ => rfl
    have noCarrier : carrier? item = none := by
      cases item with
      | object members => exact (noObject members rfl).elim
      | _ => rfl
    have noOutput : answers checkpoint item = false := by
      cases item with
      | object members => exact (noObject members rfl).elim
      | _ => rfl
    exact ensures_ok (along.skip noCall noCarrier noOutput
      fun members same _ => (noObject members same).elim)

/-- What the first pass knows of all of the client's items. -/
theorem ensures_survey (original : List WireJson) :
    Ensures (original.foldlM (Survey.add checkpoint) Survey.start)
      (Survey.Along checkpoint original) := by
  apply ensures_foldlM_visited (Survey.Along checkpoint)
  · intro visited survey item _ _ along
    exact along.add item
  · exact Survey.along_start

/-! ## What the second pass asks -/

variable {original : List WireJson} {survey : Survey}

section

variable (along : survey.Along checkpoint original)

include along

/-- No two calls of the client have one id. -/
theorem Survey.Along.nodup_callIds : (original.filterMap callId?).Nodup := by
  have keys := survey.originalCallsById.nodup
  rw [along.calls, callEntryOf, fst_entries object_of_callId?, List.filter_true] at keys
  exact keys

/-- No two reasoning items of the client have one carrier. -/
theorem Survey.Along.nodup_carriers : (original.filterMap carrier?).Nodup := by
  rw [← along.carriers]
  exact along.nodup

/-- The call of an id is the client's. -/
theorem Survey.Along.get_call (callId : JsString) :
    survey.originalCallsById.get callId =
      (original.find? fun item => callId? item = some callId).bind members? := by
  rw [OrderedMap.get, along.calls]
  exact getEntry_entries object_of_callId? rfl original

/-- The reasoning item of a checkpointed carrier is the client's. -/
theorem Survey.Along.get_reasoning (known : carrier ∈ checkpoint.carriers) :
    survey.originalReasoningByCarrier.get carrier =
      (original.find? fun item => carrier? item = some carrier).bind members? := by
  rw [OrderedMap.get, along.reasoning]
  exact getEntry_entries object_of_carrier? (decide_eq_true known) original

/-- Just the carriers that the client and the checkpoint both have are moved. -/
theorem Survey.Along.has_reasoning (sent : carrier ∈ original.filterMap carrier?) :
    survey.originalReasoningByCarrier.has carrier = true ↔ carrier ∈ checkpoint.carriers := by
  rw [OrderedMap.has_iff, OrderedMap.keys, along.reasoning, reasoningEntryOf,
    fst_entries object_of_carrier?, List.mem_filter, decide_eq_true_iff]
  exact and_iff_right sent

/-- Where no output was counted, no item answers a checkpointed call. -/
theorem Survey.Along.answers_of_knownOutputs (some : survey.knownOutputs ≠ 0) :
    ∃ item ∈ original, answers checkpoint item = true := by
  rw [along.outputs] at some
  exact List.countP_pos_iff.mp (Nat.pos_of_ne_zero some)

end

end GhcGateway.History
