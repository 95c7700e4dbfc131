/-
# The members of a schema

The loop over the members of a schema leaves none to drop, and the members of the root are
completed to a schema of objects.
-/

import GhcGateway.Requests.SchemaPositions

namespace GhcGateway.Requests

open Conversion Library

/-! ## Members -/

section Members

variable {clean : SchemaCleaner} {root : Bool}
  {members schema : WireJsonObject} {key : JsString} {changed : Bool} {value : WireJson}

def MemberChild (member : JsString × WireJson) (child : WireJsonObject) : Prop :=
  ChildAt child member.1 member.2

/-- What the loop of a level guarantees. -/
structure MembersCleaned (clean : SchemaCleaner) (root : Bool) (members cleaned : WireJsonObject)
    (changed : Bool) : Prop where
  part : PartCleaned clean (InSome MemberChild) members cleaned changed
  undropped : ∀ member ∈ cleaned, isDropped member.1 member.2 = false
  types : root = true → ∀ value, (js "type", value) ∈ cleaned → isObjectType value = true
  properties : ∀ value, (js "properties", value) ∈ cleaned → isObject value = true
  keys : ∀ key value, (key, value) ∈ members → isDropped key value = false →
    ∃ value, (key, value) ∈ cleaned

theorem undropped_of_other (notNames : key ≠ js "propertyNames") (notFormat : key ≠ js "format")
    (value : WireJson) : isDropped key value = false := by
  simp [isDropped, notNames, notFormat]

/-- A dropped member has no schemas. -/
theorem memberChild_dropped (dropped : isDropped key value = true) (child : WireJsonObject) :
    ¬ MemberChild (key, value) child := by
  have isData : holdsNoSchema key = true := by
    simp only [isDropped, Bool.or_eq_true, Bool.and_eq_true, decide_eq_true_eq] at dropped
    obtain isNames | ⟨isFormat, -⟩ := dropped
    · rw [isNames]
      decide
    · rw [isFormat]
      decide
  exact not_childAt isData

/-- Cleaning a value does not make its member one to drop. -/
theorem isDropped_cleanValue {cleaned : WireJson} (undropped : isDropped key value = false)
    (isCleaned : cleanValue clean root key value = .ok (cleaned, changed)) :
    isDropped key cleaned = false := by
  by_cases isFormat : key = js "format"
  · subst isFormat
    rw [cleanValue_data (by decide) (by decide)] at isCleaned
    cases isCleaned
    exact undropped
  · simpa [isDropped, isFormat] using undropped

theorem cleanMembers_spec (cleans : Cleans clean) {cleaned : WireJsonObject}
    (isCleaned : cleanMembers clean root members = .ok (cleaned, changed)) :
    MembersCleaned clean root members cleaned changed := by
  induction members generalizing cleaned changed with
  | nil =>
    cases isCleaned
    exact {
      part := .nil MemberChild
      undropped := nofun
      types := nofun
      properties := nofun
      keys := nofun }
  | cons member members ih =>
    obtain ⟨key, value⟩ := member
    unfold cleanMembers at isCleaned
    split at isCleaned
    case isTrue dropped =>
      obtain ⟨_, -, isCleaned⟩ := bind_eq_ok.mp isCleaned
      obtain ⟨⟨rest, restChanged⟩, isRest, isCleaned⟩ := bind_eq_ok.mp isCleaned
      cases isCleaned
      have spec := ih isRest
      have none := memberChild_dropped dropped
      constructor
      case part =>
        constructor
        case accepted =>
          rintro child ⟨member, isMember, isChild⟩
          cases isMember with
          | head => exact absurd isChild (none child)
          | tail _ isMember => exact spec.part.accepted child ⟨member, isMember, isChild⟩
        case plain => exact spec.part.plain
        case unchanged => nofun
      case undropped => exact spec.undropped
      case types => exact spec.types
      case properties => exact spec.properties
      case keys =>
        intro other value' isMember undropped
        cases isMember with
        | head => cases undropped.symm.trans dropped
        | tail _ isMember => exact spec.keys other value' isMember undropped
    case isFalse undropped =>
      rw [Bool.not_eq_true] at undropped
      obtain ⟨⟨cleanedValue, valueChanged⟩, isValue, isCleaned⟩ := bind_eq_ok.mp isCleaned
      obtain ⟨⟨rest, restChanged⟩, isRest, isCleaned⟩ := bind_eq_ok.mp isCleaned
      cases isCleaned
      have spec := ih isRest
      constructor
      case part =>
        have first : PartCleaned clean MemberChild (key, value) (key, cleanedValue) valueChanged :=
          (cleanValue_part cleans isValue).inside (Prod.mk key) fun _ _ isChild => isChild
        exact first.cons spec.part
      case undropped =>
        intro member isMember
        cases isMember with
        | head => exact isDropped_cleanValue undropped isValue
        | tail _ isMember => exact spec.undropped member isMember
      case types =>
        rintro rfl value' isMember
        cases isMember with
        | head => exact cleanValue_type isValue
        | tail _ isMember => exact spec.types rfl value' isMember
      case properties =>
        intro value' isMember
        cases isMember with
        | head => exact cleanValue_properties isValue
        | tail _ isMember => exact spec.properties value' isMember
      case keys =>
        intro other value' isMember undropped
        cases isMember with
        | head => exact ⟨cleanedValue, List.mem_cons_self⟩
        | tail _ isMember =>
          obtain ⟨found, isFound⟩ := spec.keys other value' isMember undropped
          exact ⟨found, List.mem_cons_of_mem _ isFound⟩

/-! ## The root -/

/-- What completing the root leaves as it is, and what it adds. -/
structure RootCompleted (root : Bool) (members completed : WireJsonObject) (changed : Bool) :
    Prop where
  children : ∀ child, IsChild child completed → IsChild child members
  undropped : ∀ member ∈ completed, isDropped member.1 member.2 = false
  properties : ∀ value, (js "properties", value) ∈ completed → isObject value = true
  objectRoot : root = true → ObjectRoot completed
  unchanged : changed = false → completed = members

theorem mem_completeRoot {member : JsString × WireJson} :
    member ∈ (completeRoot root schema members).1 ↔
      (root = true ∧ (∀ value, (js "type", value) ∉ schema) ∧
        member = (js "type", .string (js "object"))) ∨
      member ∈ members ∨
      (root = true ∧ (∀ value, (js "properties", value) ∉ schema) ∧
        member = (js "properties", .object [])) := by
  have absent (key : JsString) :
      (!schema.any fun member => member.1 = key) = true ↔ ∀ value, (key, value) ∉ schema := by
    simp only [Bool.not_eq_true', List.any_eq_false, decide_eq_true_eq]
    constructor
    · exact fun none value isMember => none (key, value) isMember rfl
    · rintro none ⟨_, value⟩ isMember rfl
      exact none value isMember
  have optional (added : Bool) (other : JsString × WireJson) :
      member ∈ (if added then [other] else []) ↔ added = true ∧ member = other := by
    cases added <;> simp
  simp only [completeRoot, List.mem_append, optional, Bool.and_eq_true, absent, or_assoc,
    and_assoc]

theorem completeRoot_spec {completed : WireJsonObject} {wasChanged : Bool}
    (isCleaned : MembersCleaned clean root schema members wasChanged)
    (isCompleted : completeRoot root schema members = (completed, changed)) :
    RootCompleted root members completed changed := by
  have mem (member : JsString × WireJson) :
      member ∈ completed ↔ _ := isCompleted ▸ mem_completeRoot
  have properties (value : WireJson) (isMember : (js "properties", value) ∈ completed) :
      isObject value = true := by
    obtain ⟨-, -, isType⟩ | isMember | ⟨-, -, isAdded⟩ := (mem _).mp isMember
    · cases congrArg Prod.fst isType
    · exact isCleaned.properties value isMember
    · cases isAdded
      rfl
  constructor
  case properties => exact properties
  case children =>
    rintro child ⟨member, isMember, isChild⟩
    obtain ⟨-, -, rfl⟩ | isMember | ⟨-, -, rfl⟩ := (mem member).mp isMember
    · exact absurd isChild (not_childAt (by decide))
    · exact ⟨member, isMember, isChild⟩
    · obtain ⟨_, isEntry, -⟩ := childAt_map (by decide) isChild
      cases isEntry
  case undropped =>
    intro member isMember
    obtain ⟨-, -, rfl⟩ | isMember | ⟨-, -, rfl⟩ := (mem member).mp isMember
    · decide
    · exact isCleaned.undropped member isMember
    · decide
  case objectRoot =>
    rintro rfl
    constructor
    case hasType =>
      by_cases present : ∃ value, (js "type", value) ∈ schema
      · obtain ⟨value, isMember⟩ := present
        obtain ⟨kept, isKept⟩ := isCleaned.keys (js "type") value isMember
          (undropped_of_other (by decide) (by decide) value)
        exact ⟨kept, (mem _).mpr (.inr (.inl isKept))⟩
      · exact ⟨_, (mem _).mpr (.inl ⟨rfl, not_exists.mp present, rfl⟩)⟩
    case types =>
      intro value isMember
      obtain ⟨-, -, isAdded⟩ | isMember | ⟨-, -, isProperties⟩ := (mem _).mp isMember
      · cases isAdded
        rfl
      · exact isCleaned.types rfl value isMember
      · cases congrArg Prod.fst isProperties
    case hasProperties =>
      by_cases present : ∃ value, (js "properties", value) ∈ schema
      · obtain ⟨value, isMember⟩ := present
        obtain ⟨kept, isKept⟩ := isCleaned.keys (js "properties") value isMember
          (undropped_of_other (by decide) (by decide) value)
        exact ⟨kept, (mem _).mpr (.inr (.inl isKept))⟩
      · exact ⟨_, (mem _).mpr (.inr (.inr ⟨rfl, not_exists.mp present, rfl⟩))⟩
    case properties => exact properties
  case unchanged =>
    rintro rfl
    have added := congrArg Prod.snd isCompleted
    have members := congrArg Prod.fst isCompleted
    simp only [completeRoot, Bool.or_eq_false_iff] at added members
    rw [added.1, added.2] at members
    simpa using members.symm

end Members

end GhcGateway.Requests
