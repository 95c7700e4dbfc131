/-
# The tuples of a schema

What is written for a tuple: its other members, and one schema for all of its items, which has
all of its schemas from the tuple.
-/

import GhcGateway.Requests.SchemaPositions

namespace GhcGateway.Requests

open Conversion Library

variable {members : WireJsonObject}

/-! ## Tuples -/

def isTupleKey (key : JsString) : Bool :=
  key = js "prefixItems" || key = js "items" || key = js "additionalItems" || key = js "maxItems"

/-- What is written for a tuple: its other members, the schema of its items and a `maxItems`. -/
structure TupleWritten (projection : TupleProjection) (members output : WireJsonObject) : Prop where
  source : ∀ member ∈ output,
    (member ∈ members ∧ member.1 ≠ js "prefixItems" ∧ member.1 ≠ js "items") ∨
      member = (js "items", projection.items) ∨
      ∃ max, projection.cap = some max ∧ member = (js "maxItems", max)
  kept : ∀ member ∈ members, isTupleKey member.1 = false → member ∈ output

section Written

variable {projection : TupleProjection} {members output : WireJsonObject}
  {member : JsString × WireJson}

theorem TupleWritten.skip (rest : TupleWritten projection members output)
    (isTuple : isTupleKey member.1 = true) : TupleWritten projection (member :: members)
      output where
  source other isMember := (rest.source other isMember).imp_left fun ⟨isOld, isOther⟩ =>
    ⟨List.mem_cons_of_mem _ isOld, isOther⟩
  kept other isMember isOther := by
    cases isMember with
    | head => cases isOther.symm.trans isTuple
    | tail _ isMember => exact rest.kept other isMember isOther

/-- One of the written members is put first. -/
theorem TupleWritten.put (rest : TupleWritten projection members output)
    (isWritten : member = (js "items", projection.items) ∨
      ∃ max, projection.cap = some max ∧ member = (js "maxItems", max)) :
    TupleWritten projection members (member :: output) where
  source other isMember := by
    cases isMember with
    | head => exact .inr isWritten
    | tail _ isMember => exact rest.source other isMember
  kept other isMember isOther := List.mem_cons_of_mem _ (rest.kept other isMember isOther)

/-- Another member is kept. -/
theorem TupleWritten.keep (rest : TupleWritten projection members output)
    (notPrefix : member.1 ≠ js "prefixItems") (notItems : member.1 ≠ js "items") :
    TupleWritten projection (member :: members) (member :: output) where
  source other isMember := by
    cases isMember with
    | head => exact .inl ⟨List.mem_cons_self, notPrefix, notItems⟩
    | tail _ isMember =>
      exact (rest.source other isMember).imp_left fun ⟨isOld, isOther⟩ =>
        ⟨List.mem_cons_of_mem _ isOld, isOther⟩
  kept other isMember isOther := by
    cases isMember with
    | head => exact List.mem_cons_self
    | tail _ isMember => exact List.mem_cons_of_mem _ (rest.kept other isMember isOther)

end Written

theorem writeTuple_spec {projection : TupleProjection} {index : Nat} {wroteItems wroteMax : Bool}
    {output : WireJsonObject}
    (isWritten : writeTuple projection index wroteItems wroteMax members = .ok output) :
    TupleWritten projection members output := by
  induction members generalizing index wroteItems wroteMax output with
  | nil =>
    cases isWritten
    constructor
    case kept => nofun
    case source =>
      intro member isMember
      obtain isItems | isMax := List.mem_append.mp isMember
      · cases wroteItems with
        | false => exact .inr (.inl (List.mem_singleton.mp isItems))
        | true => cases isItems
      · cases wroteMax with
        | false =>
          obtain ⟨max, isCap, rfl⟩ := List.mem_map.mp isMax
          exact .inr (.inr ⟨max, Option.mem_toList.mp isCap, rfl⟩)
        | true => cases isMax
  | cons member members ih =>
    obtain ⟨key, value⟩ := member
    unfold writeTuple at isWritten
    dsimp only at isWritten
    split at isWritten
    case isTrue isReplaced =>
      have isTuple : isTupleKey key = true := by
        simp only [isTupleKey, Bool.or_eq_true, Bool.and_eq_true] at isReplaced ⊢
        exact .inl (isReplaced.imp_right And.right)
      have skipped (isItems : Bool) (isWritten : (if isItems then do
            let output ← writeTuple projection (index + 1) true wroteMax members
            return if wroteItems then output else (js "items", projection.items) :: output
          else writeTuple projection (index + 1) wroteItems wroteMax members) = .ok output) :
          TupleWritten projection ((key, value) :: members) output := by
        cases isItems with
        | false => exact (ih isWritten).skip isTuple
        | true =>
          obtain ⟨rest, isRest, isWritten⟩ := bind_eq_ok.mp isWritten
          cases isWritten
          split
          · exact (ih isRest).skip isTuple
          · exact ((ih isRest).put (.inl rfl)).skip isTuple
      split at isWritten
      case isTrue =>
        obtain ⟨_, -, isWritten⟩ := bind_eq_ok.mp isWritten
        exact skipped _ isWritten
      case isFalse => exact skipped _ isWritten
    case isFalse notReplaced =>
      have others : key ≠ js "prefixItems" ∧ key ≠ js "items" := by
        simp only [Bool.or_eq_true, decide_eq_true_eq, not_or] at notReplaced
        exact notReplaced.1
      split at isWritten
      case h_1 max isCap =>
        split at isWritten
        case isTrue isMax =>
          obtain ⟨_, -, isWritten⟩ := bind_eq_ok.mp isWritten
          obtain ⟨rest, isRest, isWritten⟩ := bind_eq_ok.mp isWritten
          cases isWritten
          have isTuple : isTupleKey key = true := by simp [isTupleKey, isMax]
          split
          · exact (ih isRest).skip isTuple
          · exact ((ih isRest).put (.inr ⟨max, isCap, by rw [isMax]⟩)).skip isTuple
        case isFalse =>
          obtain ⟨rest, isRest, isWritten⟩ := bind_eq_ok.mp isWritten
          cases isWritten
          exact (ih isRest).keep others.1 others.2
      case h_2 =>
        obtain ⟨rest, isRest, isWritten⟩ := bind_eq_ok.mp isWritten
        cases isWritten
        exact (ih isRest).keep others.1 others.2

theorem plainBelow_nil : PlainBelow [] := by
  refine plainBelow_iff.mpr ⟨?_, ?_⟩
  · constructor <;> simp
  · rintro child ⟨_, isMember, -⟩
    cases isMember

/-- The schema of the items of a tuple, of choices that are plain. -/
theorem itemsSchema_plain (unrestricted : Bool) {choices : List WireJson}
    (plain : ∀ choice ∈ choices, ∃ schema, choice = .object schema ∧ PlainBelow schema) :
    ∃ schema, itemsSchema unrestricted choices = .object schema ∧ PlainBelow schema := by
  unfold itemsSchema
  split
  · exact ⟨[], rfl, plainBelow_nil⟩
  · split
    case h_1 => exact ⟨[], rfl, plainBelow_nil⟩
    case h_2 choice => exact plain choice List.mem_cons_self
    case h_3 =>
      refine ⟨_, rfl, plainBelow_iff.mpr ⟨?_, ?_⟩⟩
      · have other (key : JsString) (notAnyOf : key ≠ js "anyOf") (value : WireJson) :
            (key, value) ∉ [(js "anyOf", WireJson.array choices)] := by
          simp [notAnyOf]
        exact {
          noPropertyNames := other _ (by decide)
          noUri := other _ (by decide) _
          noItems := fun items => other _ (by decide) (.array items)
          noPrefixItems := fun items => other _ (by decide) (.array items)
          properties := fun value isMember => absurd isMember (other _ (by decide) value) }
      · rintro child ⟨member, isMember, isChild⟩
        rw [List.mem_singleton.mp isMember] at isChild
        obtain ⟨_, isChoice, rfl⟩ := childAt_array isChild
        obtain ⟨schema, isSchema, isPlain⟩ := plain _ isChoice
        cases isSchema
        exact isPlain

theorem any_isArray_eq_false {key : JsString} :
    (members.any fun member => member.1 = key && isArray member.2) = false ↔
      ∀ items, (key, .array items) ∉ members := by
  simp only [List.any_eq_false, Bool.and_eq_true, decide_eq_true_eq, not_and, Bool.not_eq_true]
  constructor
  · intro none items isMember
    cases none _ isMember rfl
  · rintro none ⟨_, value⟩ isMember rfl
    cases value with
    | array items => exact absurd isMember (none items)
    | _ => rfl

/-- Without a tuple there is nothing to replace. -/
theorem projectTupleItems_noTuple (noItems : ∀ items, (js "items", .array items) ∉ members)
    (noPrefixItems : ∀ items, (js "prefixItems", .array items) ∉ members) :
    projectTupleItems members = .ok (members, false) := by
  unfold projectTupleItems
  rw [any_isArray_eq_false.mpr noItems, any_isArray_eq_false.mpr noPrefixItems]
  rfl

theorem isObject_iff {value : WireJson} :
    isObject value = true ↔ ∃ members, value = .object members := by
  cases value <;> simp [isObject, WireJson.object?]

theorem childAt_tupleItems {member : JsString × WireJson} {schema : WireJsonObject}
    (isItem : .object schema ∈ tupleItems member) : ChildAt schema member.1 member.2 := by
  obtain ⟨key, value⟩ := member
  unfold tupleItems at isItem
  split at isItem
  case isTrue isKey =>
    cases value with
    | array items =>
      have isKey : hasKey schemaArrayKeys key = true ∨ key = js "items" :=
        isKey.imp_left fun isPrefix => by
          rw [show key = js "prefixItems" from isPrefix]
          decide
      exact .item isKey isItem
    | _ => cases isItem
  case isFalse => cases isItem

/-- A choice for the items of a tuple is a schema in it. -/
theorem projectTupleItems_tuple {projected : WireJsonObject} {changed : Bool}
    (isProjected : projectTupleItems members = .ok (projected, changed))
    (isTuple : ¬ ((∀ items, (js "items", .array items) ∉ members) ∧
      ∀ items, (js "prefixItems", .array items) ∉ members)) :
    changed = true ∧ ∃ projection unrestricted choices,
      TupleWritten projection members projected ∧
      projection.items = itemsSchema unrestricted choices ∧
      ∀ choice ∈ choices, ∃ schema, choice = .object schema ∧ IsChild schema members := by
  unfold projectTupleItems at isProjected
  extract_lets hasPrefix legacy at isProjected
  split at isProjected
  case isTrue noTuple =>
    rw [Bool.and_eq_true, Bool.not_eq_true', Bool.not_eq_true'] at noTuple
    exact absurd ⟨any_isArray_eq_false.mp noTuple.2, any_isArray_eq_false.mp noTuple.1⟩ isTuple
  case isFalse positional isTail tail choices unrestricted existingMax cap continued _ =>
    obtain ⟨_, -, isProjected⟩ := bind_eq_ok.mp isProjected
    obtain ⟨_, -, isProjected⟩ := bind_eq_ok.mp isProjected
    split at isProjected
    case isTrue => cases isProjected
    case isFalse =>
      obtain ⟨output, isWritten, isProjected⟩ := bind_eq_ok.mp isProjected
      cases isProjected
      refine ⟨rfl, _, unrestricted, choices, writeTuple_spec isWritten, rfl, ?_⟩
      intro choice isChoice
      obtain isItem | isTailSchema := List.mem_append.mp isChoice
      · rw [List.mem_filter, isObject_iff] at isItem
        obtain ⟨isItem, schema, rfl⟩ := isItem
        obtain ⟨member, isMember, isItem⟩ := List.mem_flatMap.mp isItem
        exact ⟨schema, rfl, member, isMember, childAt_tupleItems isItem⟩
      · rw [List.mem_filter, isObject_iff, Option.mem_toList] at isTailSchema
        obtain ⟨isTailValue, schema, rfl⟩ := isTailSchema
        obtain ⟨⟨key, value⟩, isFound, rfl⟩ := Option.map_eq_some_iff.mp isTailValue
        have isKey := List.find?_some isFound
        refine ⟨schema, rfl, _, List.mem_of_find?_eq_some isFound, ?_⟩
        have childKey : hasKey schemaChildKeys key = true := by
          simp only [isTail, Bool.and_eq_true, decide_eq_true_eq] at isKey
          rw [isKey.1]
          split <;> decide
        exact .child childKey

end GhcGateway.Requests
