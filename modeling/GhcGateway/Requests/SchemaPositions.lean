/-
# Positions of a schema

Where a schema has schemas in it: in the members that hold one, in those that hold a list of them,
and in those that hold some by name. A cleaned schema is plain at every position. What the
cleaner makes of one level follows from what it makes of the next.
-/

import GhcGateway.Library.Fallible
import GhcGateway.Requests.StrictSchema

namespace GhcGateway.Requests

open Conversion Library

variable {key : JsString} {child : WireJsonObject}

/-! ## Positions -/

/-- A schema in the value of a member. -/
inductive ChildAt (child : WireJsonObject) : JsString → WireJson → Prop
  | child {key : JsString} (isKey : hasKey schemaChildKeys key = true) :
    ChildAt child key (.object child)
  | item {key : JsString} {items : List WireJson}
    (isKey : hasKey schemaArrayKeys key = true ∨ key = js "items")
      (isItem : .object child ∈ items) :
    ChildAt child key (.array items)
  | entry {key name : JsString} {members : WireJsonObject}
    (isKey : hasKey schemaMapKeys key = true) (isMember : (name, .object child) ∈ members) :
    ChildAt child key (.object members)

/-- A schema just below another. -/
def IsChild (child schema : WireJsonObject) : Prop :=
  ∃ member ∈ schema, ChildAt child member.1 member.2

/-- A schema at some depth of another. -/
inductive Below : Nat → WireJsonObject → WireJsonObject → Prop
  | self (schema : WireJsonObject) : Below 0 schema schema
  | child {depth : Nat} {sub child schema : WireJsonObject} (isChild : IsChild child schema)
    (below : Below depth sub child) : Below (depth + 1) sub schema

/-- A schema that nothing of is left to clean. -/
structure Plain (schema : WireJsonObject) : Prop where
  noPropertyNames : ∀ value, (js "propertyNames", value) ∉ schema
  noUri : (js "format", .string (js "uri")) ∉ schema
  noItems : ∀ items, (js "items", .array items) ∉ schema
  noPrefixItems : ∀ items, (js "prefixItems", .array items) ∉ schema
  properties : ∀ value, (js "properties", value) ∈ schema → isObject value = true

structure ObjectRoot (schema : WireJsonObject) : Prop where
  hasType : ∃ value, (js "type", value) ∈ schema
  types : ∀ value, (js "type", value) ∈ schema → isObjectType value = true
  hasProperties : ∃ value, (js "properties", value) ∈ schema
  properties : ∀ value, (js "properties", value) ∈ schema → isObject value = true

def PlainBelow (schema : WireJsonObject) : Prop := ∀ depth sub, Below depth sub schema → Plain sub

theorem plainBelow_iff {schema : WireJsonObject} :
    PlainBelow schema ↔ Plain schema ∧ ∀ child, IsChild child schema → PlainBelow child := by
  constructor
  · intro plain
    refine ⟨plain 0 schema (.self schema), ?_⟩
    intro child isChild depth sub below
    exact plain (depth + 1) sub (.child isChild below)
  · rintro ⟨plain, children⟩ depth sub below
    cases below with
    | self => exact plain
    | child isChild below => exact children _ isChild _ _ below

/-! ## Keys -/

theorem hasKey_iff {keys : List String} : hasKey keys key = true ↔ key ∈ keys.map js := by
  simp [hasKey]

/-- The keys of maps are no others. -/
theorem apart_of_mapKey (isKey : hasKey schemaMapKeys key = true) :
    hasKey schemaArrayKeys key = false ∧ hasKey schemaChildKeys key = false ∧
      key ≠ js "items" ∧ key ≠ js "type" := by
  have all : ∀ key ∈ schemaMapKeys.map js, hasKey schemaArrayKeys key = false ∧
      hasKey schemaChildKeys key = false ∧ key ≠ js "items" ∧ key ≠ js "type" := by
    decide
  exact all key (hasKey_iff.mp isKey)

theorem isChildKey_items : hasKey schemaChildKeys (js "items") = true := by decide

def holdsNoSchema (key : JsString) : Bool :=
  !hasKey schemaChildKeys key && !hasKey schemaArrayKeys key && !hasKey schemaMapKeys key

theorem not_childAt (none : holdsNoSchema key = true) {value : WireJson} :
    ¬ ChildAt child key value := by
  simp only [holdsNoSchema, Bool.and_eq_true, Bool.not_eq_true'] at none
  rintro (isKey | ⟨isKey | rfl, -⟩ | ⟨isKey, -⟩)
  · cases none.1.1.symm.trans isKey
  · cases none.1.2.symm.trans isKey
  · cases none.1.1.symm.trans isChildKey_items
  · cases none.2.symm.trans isKey

/-! ## One level -/

section Level

variable {clean : SchemaCleaner} {root : Bool} {α : Type}

def Accepts (clean : SchemaCleaner) (schema : WireJsonObject) : Prop :=
  ∃ cleaned changed, clean schema = .ok (cleaned, changed)

/-- A cleaner that leaves its results plain, and says so when it changes nothing. -/
structure Cleans (clean : SchemaCleaner) : Prop where
  plain : ∀ schema cleaned changed, clean schema = .ok (cleaned, changed) → PlainBelow cleaned
  unchanged : ∀ schema cleaned, clean schema = .ok (cleaned, false) → cleaned = schema

/-- What cleaning a part guarantees: its schemas are accepted, what comes out is plain, and an
unchanged part is the same. -/
structure PartCleaned (clean : SchemaCleaner) {α : Type} (holds : α → WireJsonObject → Prop)
    (part cleaned : α) (changed : Bool) : Prop where
  accepted : ∀ child, holds part child → Accepts clean child
  plain : ∀ child, holds cleaned child → PlainBelow child
  unchanged : changed = false → cleaned = part

def InSome {α : Type} (holds : α → WireJsonObject → Prop) (parts : List α)
    (child : WireJsonObject) : Prop :=
  ∃ part ∈ parts, holds part child

theorem PartCleaned.nil (holds : α → WireJsonObject → Prop) :
    PartCleaned clean (InSome holds) [] [] false := by
  constructor <;> simp [InSome]

theorem PartCleaned.cons {α : Type} {holds : α → WireJsonObject → Prop} {part cleaned : α}
    {parts cleanedParts : List α} {changed restChanged : Bool}
    (first : PartCleaned clean holds part cleaned changed)
    (rest : PartCleaned clean (InSome holds) parts cleanedParts restChanged) :
    PartCleaned clean (InSome holds) (part :: parts) (cleaned :: cleanedParts)
      (changed || restChanged) where
  accepted := by
    simp only [InSome, List.mem_cons, exists_eq_or_imp]
    intro child isHeld
    exact isHeld.elim (first.accepted child) (rest.accepted child)
  plain := by
    simp only [InSome, List.mem_cons, exists_eq_or_imp]
    intro child isHeld
    exact isHeld.elim (first.plain child) (rest.plain child)
  unchanged := by
    intro unchanged
    rw [Bool.or_eq_false_iff] at unchanged
    rw [first.unchanged unchanged.1, rest.unchanged unchanged.2]

/-- A part without schemas is kept. -/
theorem PartCleaned.kept {holds : α → WireJsonObject → Prop} {part : α}
    (none : ∀ child, ¬ holds part child) : PartCleaned clean holds part part false where
  accepted child isHeld := absurd isHeld (none child)
  plain child isHeld := absurd isHeld (none child)
  unchanged _ := rfl

/-- A part without schemas is replaced by another. -/
theorem PartCleaned.replaced {holds : α → WireJsonObject → Prop} {part cleaned : α}
    (none : ∀ child, ¬ holds part child) (noneLeft : ∀ child, ¬ holds cleaned child) :
    PartCleaned clean holds part cleaned true where
  accepted child isHeld := absurd isHeld (none child)
  plain child isHeld := absurd isHeld (noneLeft child)
  unchanged := nofun

theorem PartCleaned.inside {β : Type} {inner : α → WireJsonObject → Prop}
    {outer : β → WireJsonObject → Prop} {part cleaned : α} {changed : Bool}
    (isCleaned : PartCleaned clean inner part cleaned changed) (place : α → β)
    (inside : ∀ part child, outer (place part) child → inner part child) :
    PartCleaned clean outer (place part) (place cleaned) changed where
  accepted child isHeld := isCleaned.accepted child (inside part child isHeld)
  plain child isHeld := isCleaned.plain child (inside cleaned child isHeld)
  unchanged unchanged := by rw [isCleaned.unchanged unchanged]

theorem PartCleaned.schema (cleans : Cleans clean) {schema cleaned : WireJsonObject}
    {changed : Bool} (isCleaned : clean schema = .ok (cleaned, changed)) :
    PartCleaned clean Eq schema cleaned changed where
  accepted := by
    rintro _ rfl
    exact ⟨cleaned, changed, isCleaned⟩
  plain := by
    rintro _ rfl
    exact cleans.plain schema cleaned changed isCleaned
  unchanged := by
    rintro rfl
    rw [cleans.unchanged schema cleaned isCleaned]

def IsSchema (value : WireJson) (child : WireJsonObject) : Prop := value = .object child

theorem PartCleaned.value (cleans : Cleans clean) {schema cleaned : WireJsonObject}
    {changed : Bool} (isCleaned : clean schema = .ok (cleaned, changed)) :
    PartCleaned clean IsSchema (.object schema) (.object cleaned) changed :=
  (PartCleaned.schema cleans isCleaned).inside WireJson.object fun _ _ => WireJson.object.inj

theorem cleanSchemaArray_spec (cleans : Cleans clean) {items cleaned : List WireJson}
    {changed : Bool} (isCleaned : cleanSchemaArray clean items = .ok (cleaned, changed)) :
    PartCleaned clean (InSome IsSchema) items cleaned changed := by
  induction items generalizing cleaned changed with
  | nil =>
    cases isCleaned
    exact .nil IsSchema
  | cons item items ih =>
    by_cases isSchema : ∃ schema, item = .object schema
    · obtain ⟨schema, rfl⟩ := isSchema
      obtain ⟨⟨first, firstChanged⟩, isFirst, isCleaned⟩ := bind_eq_ok.mp isCleaned
      obtain ⟨⟨rest, restChanged⟩, isRest, isCleaned⟩ := bind_eq_ok.mp isCleaned
      cases isCleaned
      exact (PartCleaned.value cleans isFirst).cons (ih isRest)
    · have none (child : WireJsonObject) : ¬ IsSchema item child :=
        fun isHeld => isSchema ⟨child, isHeld⟩
      rw [cleanSchemaArray.eq_3 clean item items none] at isCleaned
      obtain ⟨⟨rest, restChanged⟩, isRest, isCleaned⟩ := bind_eq_ok.mp isCleaned
      cases isCleaned
      exact (PartCleaned.kept none).cons (ih isRest)

theorem cleanSchemaMap_spec (cleans : Cleans clean) {members cleaned : WireJsonObject}
    {changed : Bool} (isCleaned : cleanSchemaMap clean members = .ok (cleaned, changed)) :
    PartCleaned clean (InSome fun member => IsSchema member.2) members cleaned changed := by
  induction members generalizing cleaned changed with
  | nil =>
    cases isCleaned
    exact .nil _
  | cons member members ih =>
    obtain ⟨name, value⟩ := member
    by_cases isSchema : ∃ schema, value = .object schema
    · obtain ⟨schema, rfl⟩ := isSchema
      obtain ⟨⟨first, firstChanged⟩, isFirst, isCleaned⟩ := bind_eq_ok.mp isCleaned
      obtain ⟨⟨rest, restChanged⟩, isRest, isCleaned⟩ := bind_eq_ok.mp isCleaned
      cases isCleaned
      have isSchema := PartCleaned.value cleans isFirst
      exact (isSchema.inside (Prod.mk name) fun _ _ isHeld => isHeld).cons (ih isRest)
    · have none (child : WireJsonObject) : ¬ IsSchema value child :=
        fun isHeld => isSchema ⟨child, isHeld⟩
      have other := cleanSchemaMap.eq_3 clean (name, value) members
        fun _ schema isMember => none schema (congrArg Prod.snd isMember)
      rw [other] at isCleaned
      obtain ⟨⟨rest, restChanged⟩, isRest, isCleaned⟩ := bind_eq_ok.mp isCleaned
      cases isCleaned
      have kept : PartCleaned clean (fun member => IsSchema member.2) (name, value) (name, value)
        false := .kept none
      exact kept.cons (ih isRest)

/-- Where a member has its schemas, by its key. -/
theorem childAt_map (isKey : hasKey schemaMapKeys key = true) {members : WireJsonObject}
    (isChild : ChildAt child key (.object members)) :
    InSome (fun member => IsSchema member.2) members child := by
  cases isChild with
  | child isChildKey => cases (apart_of_mapKey isKey).2.1.symm.trans isChildKey
  | entry _ isMember => exact ⟨_, isMember, rfl⟩

theorem childAt_array {items : List WireJson} (isChild : ChildAt child key (.array items)) :
    InSome IsSchema items child := by
  cases isChild with
  | item _ isItem => exact ⟨_, isItem, rfl⟩

theorem ChildAt.of_map (isKey : hasKey schemaMapKeys key = true) {members : WireJsonObject}
    (isHeld : InSome (fun member => IsSchema member.2) members child) :
    ChildAt child key (.object members) := by
  obtain ⟨⟨name, value⟩, isMember, isSchema⟩ := isHeld
  rw [show value = .object child from isSchema] at isMember
  exact .entry isKey isMember

theorem ChildAt.of_array (isKey : hasKey schemaArrayKeys key = true ∨ key = js "items")
    {items : List WireJson} (isHeld : InSome IsSchema items child) :
    ChildAt child key (.array items) := by
  obtain ⟨item, isItem, isSchema⟩ := isHeld
  rw [show item = .object child from isSchema] at isItem
  exact .item isKey isItem

theorem childAt_object (isKey : hasKey schemaMapKeys key = false) {schema : WireJsonObject}
    (isChild : ChildAt child key (.object schema)) : schema = child := by
  cases isChild with
  | child => rfl
  | entry isMapKey => cases isKey.symm.trans isMapKey

theorem not_childAt_map (isKey : hasKey schemaMapKeys key = true) {value : WireJson}
    (notObject : ∀ members, value ≠ .object members) (child : WireJsonObject) :
    ¬ ChildAt child key value := by
  intro isChild
  cases isChild with
  | child => exact notObject _ rfl
  | entry => exact notObject _ rfl
  | item isArrayKey =>
    obtain ⟨notArray, -, notItems, -⟩ := apart_of_mapKey isKey
    exact isArrayKey.elim (by simp [notArray]) notItems

theorem not_childAt_child (notMap : hasKey schemaMapKeys key = false) {value : WireJson}
    (notObject : ∀ members, value ≠ .object members)
    (notItems : hasKey schemaArrayKeys key = true ∨ key = js "items" →
      ∀ items, value ≠ .array items) (child : WireJsonObject) : ¬ ChildAt child key value := by
  intro isChild
  cases isChild with
  | child => exact notObject _ rfl
  | entry isMapKey => cases notMap.symm.trans isMapKey
  | item isKey => exact notItems isKey _ rfl

theorem cleanValue_part (cleans : Cleans clean) {key : JsString} {value cleaned : WireJson}
    {changed : Bool} (isCleaned : cleanValue clean root key value = .ok (cleaned, changed)) :
    PartCleaned clean (fun value child => ChildAt child key value) value cleaned changed := by
  unfold cleanValue at isCleaned
  split at isCleaned
  case isTrue isType =>
    have none (value : WireJson) (child : WireJsonObject) : ¬ ChildAt child key value := by
      rw [isType]
      exact not_childAt (by decide)
    split at isCleaned
    · obtain ⟨_, -, isCleaned⟩ := bind_eq_ok.mp isCleaned
      cases isCleaned
      exact .replaced (none value) (none _)
    · cases isCleaned
      exact .kept (none value)
  case isFalse notType =>
    split at isCleaned
    case isTrue isMap =>
      split at isCleaned
      case isTrue noProperties =>
        obtain ⟨_, -, isCleaned⟩ := bind_eq_ok.mp isCleaned
        cases isCleaned
        apply PartCleaned.replaced
        case none =>
          apply not_childAt_map isMap
          rintro members rfl
          simp [isObject, WireJson.object?] at noProperties
        case noneLeft =>
          intro child isChild
          obtain ⟨_, isMember, -⟩ := childAt_map isMap isChild
          cases isMember
      case isFalse =>
        split at isCleaned
        case h_1 members =>
          obtain ⟨⟨cleanedMembers, _⟩, isCleanedMap, isCleaned⟩ := bind_eq_ok.mp isCleaned
          cases isCleaned
          exact (cleanSchemaMap_spec cleans isCleanedMap).inside WireJson.object
            fun _ _ => childAt_map isMap
        case h_2 notObject =>
          cases isCleaned
          exact .kept (not_childAt_map isMap notObject)
    case isFalse notMap =>
      rw [Bool.not_eq_true] at notMap
      split at isCleaned
      case isTrue isArray =>
        split at isCleaned
        case h_1 items =>
          obtain ⟨⟨cleanedItems, _⟩, isCleanedArray, isCleaned⟩ := bind_eq_ok.mp isCleaned
          cases isCleaned
          exact (cleanSchemaArray_spec cleans isCleanedArray).inside WireJson.array
            fun _ _ => childAt_array
        case h_2 notArray =>
          simp [Requests.isArray, WireJson.array?] at isArray
      case isFalse notArray =>
        have array (isKey : hasKey schemaArrayKeys key = true) (items : List WireJson) :
            value ≠ .array items := by
          rintro rfl
          exact notArray (by simp [isKey, isArray, WireJson.array?])
        split at isCleaned
        case isTrue isChild =>
          split at isCleaned
          case h_1 schema =>
            obtain ⟨⟨cleanedSchema, _⟩, isCleanedSchema, isCleaned⟩ := bind_eq_ok.mp isCleaned
            cases isCleaned
            exact (PartCleaned.schema cleans isCleanedSchema).inside WireJson.object
              fun _ _ => childAt_object notMap
          case h_2 items =>
            split at isCleaned
            case isTrue isItems =>
              obtain ⟨⟨cleanedItems, _⟩, isCleanedArray, isCleaned⟩ := bind_eq_ok.mp isCleaned
              cases isCleaned
              exact (cleanSchemaArray_spec cleans isCleanedArray).inside WireJson.array
                fun _ _ => childAt_array
            case isFalse notItems =>
              cases isCleaned
              apply PartCleaned.kept
              apply not_childAt_child notMap
              · rintro _ ⟨⟩
              · exact fun isKey => isKey.elim array (absurd · notItems)
          case h_3 notObject notItems =>
            cases isCleaned
            exact .kept (not_childAt_child notMap notObject fun _ => notItems)
        case isFalse notChild =>
          cases isCleaned
          apply PartCleaned.kept
          intro child isChild
          cases isChild with
          | child isKey => exact notChild isKey
          | entry isKey => cases notMap.symm.trans isKey
          | item isKey =>
            obtain isKey | rfl := isKey
            · exact array isKey _ rfl
            · exact notChild isChildKey_items

/-! ### What the keys say -/

theorem cleanValue_type {value cleaned : WireJson} {changed : Bool}
    (isCleaned : cleanValue clean true (js "type") value = .ok (cleaned, changed)) :
    isObjectType cleaned = true := by
  unfold cleanValue at isCleaned
  rw [if_pos rfl] at isCleaned
  split at isCleaned
  case isTrue =>
    obtain ⟨_, -, isCleaned⟩ := bind_eq_ok.mp isCleaned
    cases isCleaned
    rfl
  case isFalse isObjectType =>
    cases isCleaned
    simpa using isObjectType

theorem cleanValue_properties {value cleaned : WireJson} {changed : Bool}
    (isCleaned : cleanValue clean root (js "properties") value = .ok (cleaned, changed)) :
    isObject cleaned = true := by
  unfold cleanValue at isCleaned
  rw [if_neg (by decide), if_pos (by decide)] at isCleaned
  split at isCleaned
  case isTrue =>
    obtain ⟨_, -, isCleaned⟩ := bind_eq_ok.mp isCleaned
    cases isCleaned
    rfl
  case isFalse isObject =>
    split at isCleaned
    case h_1 =>
      obtain ⟨_, -, isCleaned⟩ := bind_eq_ok.mp isCleaned
      cases isCleaned
      rfl
    case h_2 =>
      cases isCleaned
      simpa using isObject

/-- A member with a key that no position has is kept. -/
theorem cleanValue_data (isData : holdsNoSchema key = true) (notType : key ≠ js "type")
    (value : WireJson) : cleanValue clean root key value = .ok (value, false) := by
  simp only [holdsNoSchema, Bool.and_eq_true, Bool.not_eq_true'] at isData
  obtain ⟨⟨notChild, notArray⟩, notMap⟩ := isData
  simp [cleanValue, notType, notChild, notArray, notMap]

end Level

end GhcGateway.Requests
