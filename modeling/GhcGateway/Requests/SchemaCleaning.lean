/-
# Cleaned schemas

A cleaned schema has nothing left to clean at any of its positions, and its root is a schema of
objects. The replacement for a tuple has all of its schemas from the tuple, one level deeper where
there are several. So a cleaned schema is cleaned to itself, unless it is deeper than the cleaner
goes.
-/

import GhcGateway.Requests.SchemaMembers
import GhcGateway.Requests.SchemaTuples

namespace GhcGateway.Requests

open Conversion Library

variable {members schema cleaned output sub : WireJsonObject} {changed root : Bool}
  {projection : TupleProjection} {levels depth : Nat} {value : WireJson} {key : JsString}

/-! ## One level -/

/-- A member with another key comes from before. -/
theorem TupleWritten.of_other (written : TupleWritten projection members output)
    (notItems : key ≠ js "items") (notMax : key ≠ js "maxItems")
    (isMember : (key, value) ∈ output) : (key, value) ∈ members := by
  obtain ⟨isOld, -⟩ | isItems | ⟨max, -, isMax⟩ := written.source _ isMember
  · exact isOld
  · exact absurd (congrArg Prod.fst isItems) notItems
  · exact absurd (congrArg Prod.fst isMax) notMax

section Level

variable {clean : SchemaCleaner} {root : Bool} {completed : WireJsonObject}

theorem RootCompleted.noPropertyNames (isCompleted : RootCompleted root members completed changed)
    (value : WireJson) : (js "propertyNames", value) ∉ completed := by
  intro isMember
  have undropped := isCompleted.undropped _ isMember
  simp [isDropped] at undropped

theorem RootCompleted.noUri (isCompleted : RootCompleted root members completed changed) :
    (js "format", .string (js "uri")) ∉ completed := by
  intro isMember
  have undropped := isCompleted.undropped _ isMember
  simp [isDropped] at undropped

/-- What is left of a tuple is plain. -/
theorem TupleWritten.plainBelow (isCompleted : RootCompleted root members completed changed)
    (children : ∀ child, IsChild child completed → PlainBelow child)
    (written : TupleWritten projection completed output)
    (isItems : ∃ schema, projection.items = .object schema ∧ PlainBelow schema) :
    PlainBelow output := by
  obtain ⟨itemsSchema, isItemsSchema, itemsPlain⟩ := isItems
  refine plainBelow_iff.mpr ⟨?_, ?_⟩
  · constructor
    case noPropertyNames =>
      intro value isMember
      exact isCompleted.noPropertyNames value (written.of_other (by decide) (by decide) isMember)
    case noUri =>
      intro isMember
      exact isCompleted.noUri (written.of_other (by decide) (by decide) isMember)
    case noItems =>
      intro items isMember
      obtain ⟨-, -, notItems⟩ | isItems | ⟨max, -, isMax⟩ := written.source _ isMember
      · exact notItems rfl
      · cases (congrArg Prod.snd isItems).trans isItemsSchema
      · cases congrArg Prod.fst isMax
    case noPrefixItems =>
      intro items isMember
      obtain ⟨-, notPrefix, -⟩ | isItems | ⟨max, -, isMax⟩ := written.source _ isMember
      · exact notPrefix rfl
      · cases congrArg Prod.fst isItems
      · cases congrArg Prod.fst isMax
    case properties =>
      intro value isMember
      exact isCompleted.properties value (written.of_other (by decide) (by decide) isMember)
  · rintro child ⟨member, isMember, isChild⟩
    obtain ⟨isOld, -⟩ | rfl | ⟨max, -, rfl⟩ := written.source _ isMember
    · exact children child ⟨member, isOld, isChild⟩
    · rw [isItemsSchema] at isChild
      have notMap : hasKey schemaMapKeys (js "items") = false := by decide
      rw [← childAt_object notMap isChild]
      exact itemsPlain
    · have isData : holdsNoSchema (js "maxItems") = true := by decide
      exact absurd isChild (not_childAt isData)

/-- The type and the properties of the root are left. -/
theorem TupleWritten.objectRoot (written : TupleWritten projection members output)
    (objectRoot : ObjectRoot members) :
    ObjectRoot output where
  hasType := by
    have isOther : isTupleKey (js "type") = false := by decide
    exact objectRoot.hasType.imp fun _ isMember => written.kept _ isMember isOther
  types value isMember :=
    objectRoot.types value (written.of_other (by decide) (by decide) isMember)
  hasProperties := by
    have isOther : isTupleKey (js "properties") = false := by decide
    exact objectRoot.hasProperties.imp fun _ isMember => written.kept _ isMember isOther
  properties value isMember :=
    objectRoot.properties value (written.of_other (by decide) (by decide) isMember)

theorem projectTupleItems_spec {projected : WireJsonObject} {isTuple : Bool}
    (isCompleted : RootCompleted root members completed changed)
    (children : ∀ child, IsChild child completed → PlainBelow child)
    (isProjected : projectTupleItems completed = .ok (projected, isTuple)) :
    PlainBelow projected ∧ (root = true → ObjectRoot projected) ∧
      (isTuple = false → projected = completed) := by
  by_cases noTuple : (∀ items, (js "items", .array items) ∉ completed) ∧
      ∀ items, (js "prefixItems", .array items) ∉ completed
  · rw [projectTupleItems_noTuple noTuple.1 noTuple.2] at isProjected
    cases isProjected
    refine ⟨plainBelow_iff.mpr ⟨?_, children⟩, isCompleted.objectRoot, fun _ => rfl⟩
    exact {
      noPropertyNames := isCompleted.noPropertyNames
      noUri := isCompleted.noUri
      noItems := noTuple.1
      noPrefixItems := noTuple.2
      properties := isCompleted.properties }
  · obtain ⟨rfl, projection, unrestricted, choices, written, isItems, choicesPlain⟩ :=
      projectTupleItems_tuple isProjected noTuple
    refine ⟨?_, ?_, nofun⟩
    · apply written.plainBelow isCompleted children
      rw [isItems]
      apply itemsSchema_plain
      intro choice isChoice
      obtain ⟨schema, isSchema, isChild⟩ := choicesPlain choice isChoice
      exact ⟨schema, isSchema, children schema isChild⟩
    · exact fun isRoot => written.objectRoot (isCompleted.objectRoot isRoot)

/-- What one level of the cleaner guarantees. -/
structure NodeCleaned (clean : SchemaCleaner) (root : Bool) (schema result : WireJsonObject)
    (changed : Bool) : Prop where
  accepted : ∀ child, IsChild child schema → Accepts clean child
  plain : PlainBelow result
  objectRoot : root = true → ObjectRoot result
  unchanged : changed = false → result = schema

theorem cleanNode_spec (cleans : Cleans clean) {result : WireJsonObject}
    (isCleaned : cleanNode clean root schema = .ok (result, changed)) :
    NodeCleaned clean root schema result changed := by
  obtain ⟨⟨members, membersChanged⟩, isMembers, isCleaned⟩ := bind_eq_ok.mp isCleaned
  have membersSpec := cleanMembers_spec cleans isMembers
  let completed := (completeRoot root schema members).1
  let completedChanged := (completeRoot root schema members).2
  have completedSpec : RootCompleted root members completed completedChanged :=
    completeRoot_spec membersSpec rfl
  obtain ⟨⟨projected, isTuple⟩, isProjected, isCleaned⟩ := bind_eq_ok.mp isCleaned
  have children (child : WireJsonObject) (isChild : IsChild child completed) : PlainBelow child :=
    membersSpec.part.plain child (completedSpec.children child isChild)
  obtain ⟨plain, objectRoot, projectedUnchanged⟩ :=
    projectTupleItems_spec completedSpec children isProjected
  have isResult : (if membersChanged || completedChanged || isTuple then projected else schema,
      membersChanged || completedChanged || isTuple) = (result, changed) :=
    Except.ok.inj isCleaned
  have same : (membersChanged || completedChanged || isTuple) = false → projected = schema := by
    simp only [Bool.or_eq_false_iff]
    rintro ⟨⟨unchanged, completedUnchanged⟩, notTuple⟩
    rw [projectedUnchanged notTuple, completedSpec.unchanged completedUnchanged,
      membersSpec.part.unchanged unchanged]
  have isProjection : result = projected := by
    cases isChanged : membersChanged || completedChanged || isTuple with
    | true =>
      rw [isChanged] at isResult
      exact (congrArg Prod.fst isResult).symm
    | false =>
      rw [isChanged] at isResult
      exact (congrArg Prod.fst isResult).symm.trans (same isChanged).symm
  rw [isProjection]
  exact {
    accepted := membersSpec.part.accepted
    plain := plain
    objectRoot := objectRoot
    unchanged := fun unchanged => same ((congrArg Prod.snd isResult).trans unchanged) }

/-! ## Plain schemas -/

theorem cleanSchemaArray_same {items : List WireJson}
    (children : ∀ child, InSome IsSchema items child → clean child = .ok (child, false)) :
    cleanSchemaArray clean items = .ok (items, false) := by
  induction items with
  | nil => rfl
  | cons item items ih =>
    have rest : cleanSchemaArray clean items = .ok (items, false) := by
      apply ih
      rintro child ⟨item, isItem, isSchema⟩
      exact children child ⟨item, List.mem_cons_of_mem _ isItem, isSchema⟩
    by_cases isSchema : ∃ schema, item = .object schema
    · obtain ⟨schema, rfl⟩ := isSchema
      have first := children schema ⟨_, List.mem_cons_self, rfl⟩
      simp only [cleanSchemaArray, first, rest]
      rfl
    · rw [cleanSchemaArray.eq_3 clean item items fun schema isHeld => isSchema ⟨schema, isHeld⟩,
        rest]
      rfl

theorem cleanSchemaMap_same
    (children : ∀ child, InSome (fun member => IsSchema member.2) members child →
      clean child = .ok (child, false)) : cleanSchemaMap clean members = .ok (members, false) := by
  induction members with
  | nil => rfl
  | cons member members ih =>
    have rest : cleanSchemaMap clean members = .ok (members, false) := by
      apply ih
      rintro child ⟨member, isMember, isSchema⟩
      exact children child ⟨member, List.mem_cons_of_mem _ isMember, isSchema⟩
    obtain ⟨name, value⟩ := member
    by_cases isSchema : ∃ schema, value = .object schema
    · obtain ⟨schema, rfl⟩ := isSchema
      have first := children schema ⟨_, List.mem_cons_self, rfl⟩
      simp only [cleanSchemaMap, first, rest]
      rfl
    · have other := cleanSchemaMap.eq_3 clean (name, value) members
        fun _ schema isMember => isSchema ⟨schema, congrArg Prod.snd isMember⟩
      rw [other, rest]
      rfl

theorem cleanValue_same (type : root = true → key = js "type" → isObjectType value = true)
    (properties : key = js "properties" → isObject value = true)
    (children : ∀ child, ChildAt child key value → clean child = .ok (child, false)) :
    cleanValue clean root key value = .ok (value, false) := by
  unfold cleanValue
  split
  case isTrue isType =>
    rw [if_neg]
    simp only [Bool.and_eq_true, Bool.not_eq_true', not_and, Bool.not_eq_false]
    exact fun isRoot => type isRoot isType
  case isFalse =>
    split
    case isTrue isMap =>
      rw [if_neg]
      · split
        case h_1 members =>
          rw [cleanSchemaMap_same fun child isHeld => children child (.of_map isMap isHeld)]
          rfl
        case h_2 => rfl
      · simp only [Bool.and_eq_true, decide_eq_true_eq, Bool.not_eq_true', not_and,
          Bool.not_eq_false]
        exact properties
    case isFalse =>
      split
      case isTrue isArrayKey =>
        rw [Bool.and_eq_true] at isArrayKey
        split
        case h_1 items =>
          rw [cleanSchemaArray_same fun child isHeld =>
            children child (.of_array (.inl isArrayKey.1) isHeld)]
          rfl
        case h_2 => rfl
      case isFalse =>
        split
        case isTrue isChild =>
          split
          case h_1 schema _ =>
            rw [children schema (.child isChild)]
            rfl
          case h_2 items _ =>
            split
            case isTrue isItems =>
              rw [cleanSchemaArray_same fun child isHeld =>
                children child (.of_array (.inr isItems) isHeld)]
              rfl
            case isFalse => rfl
          case h_3 => rfl
        case isFalse => rfl

theorem cleanMembers_same (undropped : ∀ member ∈ members, isDropped member.1 member.2 = false)
    (types : root = true → ∀ value, (js "type", value) ∈ members → isObjectType value = true)
    (properties : ∀ value, (js "properties", value) ∈ members → isObject value = true)
    (children : ∀ child, IsChild child members → clean child = .ok (child, false)) :
    cleanMembers clean root members = .ok (members, false) := by
  induction members with
  | nil => rfl
  | cons member members ih =>
    obtain ⟨key, value⟩ := member
    have rest : cleanMembers clean root members = .ok (members, false) := by
      apply ih
      · exact fun member isMember => undropped member (List.mem_cons_of_mem _ isMember)
      · exact fun isRoot value isMember => types isRoot value (List.mem_cons_of_mem _ isMember)
      · exact fun value isMember => properties value (List.mem_cons_of_mem _ isMember)
      · rintro child ⟨member, isMember, isChild⟩
        exact children child ⟨member, List.mem_cons_of_mem _ isMember, isChild⟩
    have first : cleanValue clean root key value = .ok (value, false) := by
      apply cleanValue_same
      · rintro isRoot rfl
        exact types isRoot value List.mem_cons_self
      · rintro rfl
        exact properties value List.mem_cons_self
      · exact fun child isChild => children child ⟨_, List.mem_cons_self, isChild⟩
    unfold cleanMembers
    rw [if_neg (by simp [undropped _ List.mem_cons_self]), first, rest]
    rfl

/-- A schema that is plain at its level, with nothing to change below, is cleaned to itself. -/
theorem cleanNode_plain (plain : Plain schema) (objectRoot : root = true → ObjectRoot schema)
    (children : ∀ child, IsChild child schema → clean child = .ok (child, false)) :
    cleanNode clean root schema = .ok (schema, false) := by
  have undropped (member : JsString × WireJson) (isMember : member ∈ schema) :
      isDropped member.1 member.2 = false := by
    obtain ⟨key, value⟩ := member
    apply Bool.eq_false_of_not_eq_true
    simp only [isDropped, Bool.or_eq_true, Bool.and_eq_true, decide_eq_true_eq]
    rintro (rfl | ⟨rfl, rfl⟩)
    · exact plain.noPropertyNames value isMember
    · exact plain.noUri isMember
  have members : cleanMembers clean root schema = .ok (schema, false) :=
    cleanMembers_same undropped (fun isRoot => (objectRoot isRoot).types) plain.properties children
  have complete : completeRoot root schema schema = (schema, false) := by
    cases root with
    | false => simp [completeRoot]
    | true =>
      obtain ⟨type, isType⟩ := (objectRoot rfl).hasType
      obtain ⟨properties, isProperties⟩ := (objectRoot rfl).hasProperties
      have hasType : (schema.any fun member => member.1 = js "type") = true :=
        List.any_eq_true.mpr ⟨_, isType, by simp⟩
      have hasProperties : (schema.any fun member => member.1 = js "properties") = true :=
        List.any_eq_true.mpr ⟨_, isProperties, by simp⟩
      simp [completeRoot, hasType, hasProperties]
  have projected : projectTupleItems schema = .ok (schema, false) :=
    projectTupleItems_noTuple plain.noItems plain.noPrefixItems
  unfold cleanNode
  simp only [members, complete, projected, bind, Except.bind]
  rfl

end Level

/-! ## All levels -/

theorem cleanSchemaNode_succ (levels : Nat) (root : Bool) (schema : WireJsonObject) :
    cleanSchemaNode (levels + 1) root schema =
      cleanNode (cleanSchemaNode levels false) root schema :=
  rfl

theorem cleans_cleanSchemaNode (levels : Nat) (root : Bool) :
    Cleans (cleanSchemaNode levels root) := by
  induction levels generalizing root with
  | zero =>
    constructor
    · exact fun _ _ _ isCleaned => nomatch isCleaned
    · exact fun _ _ isCleaned => nomatch isCleaned
  | succ levels ih =>
    constructor
    · exact fun _ _ _ isCleaned => (cleanNode_spec (ih false) isCleaned).plain
    · exact fun _ _ isCleaned => (cleanNode_spec (ih false) isCleaned).unchanged rfl

/-- A schema that is accepted is no deeper than the levels. -/
theorem depth_lt_of_accepts (accepts : Accepts (cleanSchemaNode levels root) schema)
    (below : Below depth sub schema) : depth < levels := by
  induction levels generalizing depth root schema with
  | zero =>
    obtain ⟨_, _, isCleaned⟩ := accepts
    cases isCleaned
  | succ levels ih =>
    obtain ⟨_, _, isCleaned⟩ := accepts
    cases below with
    | self => exact levels.succ_pos
    | child isChild below =>
      have spec := cleanNode_spec (cleans_cleanSchemaNode levels false) isCleaned
      exact Nat.succ_lt_succ (ih (spec.accepted _ isChild) below)

/-- A plain schema that is no deeper than the levels is cleaned to itself. -/
theorem cleanSchemaNode_plain (plain : PlainBelow schema)
    (objectRoot : root = true → ObjectRoot schema)
    (depths : ∀ depth sub, Below depth sub schema → depth < levels) :
    cleanSchemaNode levels root schema = .ok (schema, false) := by
  induction levels generalizing root schema with
  | zero => exact absurd (depths 0 schema (.self schema)) (Nat.lt_irrefl 0)
  | succ levels ih =>
    rw [plainBelow_iff] at plain
    apply cleanNode_plain plain.1 objectRoot
    intro child isChild
    apply ih (plain.2 child isChild)
    · nofun
    · intro depth sub below
      exact Nat.lt_of_succ_lt_succ (depths _ sub (.child isChild below))

/-- A cleaned schema is plain everywhere and its root is a schema of objects. Cleaning it again
changes nothing where it is no deeper than the cleaner goes, and is refused where it is. -/
theorem cleanChatToolSchema_cleaned {schema result : WireJsonObject} {changed : Bool}
    (cleaned : cleanChatToolSchema schema = .ok (result, changed)) :
    PlainBelow result ∧ ObjectRoot result ∧
      (cleanChatToolSchema result = .ok (result, false) ↔
        ∀ depth sub, Below depth sub result → depth ≤ 32) ∧
      ∀ again, cleanChatToolSchema result = .ok again → again = (result, false) := by
  have spec := cleanNode_spec (cleans_cleanSchemaNode 32 false) cleaned
  have same (depths : ∀ depth sub, Below depth sub result → depth ≤ 32) :
      cleanChatToolSchema result = .ok (result, false) :=
    cleanSchemaNode_plain spec.plain spec.objectRoot fun depth sub below =>
      Nat.lt_succ_of_le (depths depth sub below)
  have depths (again : WireJsonObject × Bool) (isAgain : cleanChatToolSchema result = .ok again)
      (depth : Nat) (sub : WireJsonObject) (below : Below depth sub result) : depth ≤ 32 :=
    Nat.le_of_lt_succ (depth_lt_of_accepts ⟨again.1, again.2, isAgain⟩ below)
  refine ⟨spec.plain, spec.objectRoot rfl, ⟨depths _, same⟩, ?_⟩
  intro again isAgain
  have isSame := same (depths again isAgain)
  rw [isAgain] at isSame
  exact Except.ok.inj isSame

/-- A tuple of a string and a number. -/
def pairSchema : WireJsonObject :=
  [(js "type", .string (js "array")),
    (js "prefixItems", .array [.object [(js "type", .string (js "string"))],
      .object [(js "type", .string (js "number"))]]),
    (js "items", .bool false)]

/-- The pair, with its two schemas as choices for all of the items. -/
def choicesSchema : WireJsonObject :=
  [(js "type", .string (js "array")),
    (js "items", .object [(js "anyOf", .array [.object [(js "type", .string (js "string"))],
      .object [(js "type", .string (js "number"))]])]),
    (js "maxItems", wireNumber 2)]

/-- The parameters with a pair in them are cleaned to some without, which are left. -/
theorem cleanChatToolSchema_cleaned_pair :
    let result := [(js "type", WireJson.string (js "object")),
      (js "properties", .object [(js "pair", .object choicesSchema)])]
    cleanChatToolSchema [(js "properties", .object [(js "pair", .object pairSchema)])] =
        .ok (result, true) ∧
      PlainBelow result ∧ ObjectRoot result ∧
      (cleanChatToolSchema result = .ok (result, false) ↔
        ∀ depth sub, Below depth sub result → depth ≤ 32) ∧
      ∀ again, cleanChatToolSchema result = .ok again → again = (result, false) := by
  intro result
  have cleaned : cleanChatToolSchema
      [(js "properties", .object [(js "pair", .object pairSchema)])] = .ok (result, true) := by
    decide
  exact ⟨cleaned, cleanChatToolSchema_cleaned cleaned⟩

/-- The schema under a number of negations. -/
def negated : Nat → WireJsonObject → WireJsonObject
  | 0, schema => schema
  | levels + 1, schema => [(js "not", .object (negated levels schema))]

theorem below_negated (below : Below depth sub schema) :
    Below (levels + depth) sub (negated levels schema) := by
  induction levels with
  | zero => rwa [Nat.zero_add]
  | succ levels ih =>
    rw [Nat.succ_add]
    have isKey : hasKey schemaChildKeys (js "not") = true := by decide
    exact .child ⟨_, List.mem_cons_self, .child isKey⟩ ih

/-- Cleaning goes through a negation. -/
theorem cleanMembers_not {clean : SchemaCleaner}
    (isCleaned : clean schema = .ok (cleaned, changed)) :
    cleanMembers clean root [(js "not", .object schema)] =
      .ok ([(js "not", .object cleaned)], changed) := by
  have value : cleanValue clean root (js "not") (.object schema) =
      .ok (.object cleaned, changed) := by
    have notType : js "not" ≠ js "type" := by decide
    have notMap : hasKey schemaMapKeys (js "not") = false := by decide
    have notArray : hasKey schemaArrayKeys (js "not") = false := by decide
    have isChild : hasKey schemaChildKeys (js "not") = true := by decide
    simp only [cleanValue, notType, notMap, notArray, isChild, isCleaned, Bool.false_and]
    rfl
  have undropped : isDropped (js "not") (.object schema) = false :=
    undropped_of_other (by decide) (by decide) _
  simp only [cleanMembers, undropped, value, bind, Except.bind]
  cases changed <;> rfl

theorem cleanSchemaNode_negated (count : Nat)
    (isCleaned : cleanSchemaNode levels false schema = .ok (cleaned, true)) :
    cleanSchemaNode (levels + count) false (negated count schema) =
      .ok (negated count cleaned, true) := by
  induction count with
  | zero => exact isCleaned
  | succ count ih =>
    rw [← Nat.add_assoc, cleanSchemaNode_succ]
    simp only [cleanNode, negated, cleanMembers_not ih, bind, Except.bind, completeRoot,
      Bool.false_and]
    rfl

/-- The schema of objects that no other schema allows. -/
def refusing (schema : WireJsonObject) : WireJsonObject :=
  [(js "type", .string (js "object")), (js "not", .object schema), (js "properties", .object [])]

theorem cleanSchemaNode_refusing
    (isCleaned : cleanSchemaNode levels false schema = .ok (cleaned, true)) :
    cleanSchemaNode (levels + 1) true (negated 1 schema) = .ok (refusing cleaned, true) := by
  rw [cleanSchemaNode_succ]
  simp only [cleanNode, negated, cleanMembers_not isCleaned, bind, Except.bind, completeRoot,
    Bool.true_and]
  rfl

/-- The choices are deeper by one than the schemas of the pair. -/
theorem below_refusing (count : Nat) :
    Below (count + 3) [(js "type", .string (js "string"))]
      (refusing (negated count choicesSchema)) := by
  have itemsKey : hasKey schemaChildKeys (js "items") = true := by decide
  have anyOfKey : hasKey schemaArrayKeys (js "anyOf") = true := by decide
  have notKey : hasKey schemaChildKeys (js "not") = true := by decide
  have choice : Below 2 [(js "type", .string (js "string"))] choicesSchema := by
    refine .child ⟨_, List.mem_cons_of_mem _ List.mem_cons_self, .child itemsKey⟩ ?_
    refine .child ⟨_, List.mem_cons_self, .item (.inl anyOfKey) List.mem_cons_self⟩ ?_
    exact .self _
  exact .child ⟨_, List.mem_cons_of_mem _ List.mem_cons_self, .child notKey⟩ (below_negated choice)

/-- A pair under the negations that the cleaner just reaches is cleaned to choices that it does not
reach, and a type that allows objects among others is left. -/
theorem cleanChatToolSchema_not_idempotent :
    (∃ result, cleanChatToolSchema (negated 31 pairSchema) = .ok (result, true) ∧
      ∀ again, cleanChatToolSchema result ≠ .ok again) ∧
    cleanChatToolSchema
        [(js "type", .array [.string (js "object"), .string (js "null")]),
          (js "properties", .object [])] =
      .ok ([(js "type", .array [.string (js "object"), .string (js "null")]),
        (js "properties", .object [])], false) := by
  constructor
  · have pair : cleanSchemaNode 2 false pairSchema = .ok (choicesSchema, true) := by decide
    refine ⟨refusing (negated 30 choicesSchema), ?_, ?_⟩
    · exact cleanSchemaNode_refusing (cleanSchemaNode_negated 30 pair)
    · intro again isAgain
      have accepts : Accepts cleanChatToolSchema (refusing (negated 30 choicesSchema)) :=
        ⟨again.1, again.2, isAgain⟩
      exact Nat.lt_irrefl 33 (depth_lt_of_accepts accepts (below_refusing 30))
  · decide

end GhcGateway.Requests
