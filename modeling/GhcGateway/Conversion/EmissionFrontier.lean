/-
# The emission frontier

A Responses stream may open and complete its items and their parts in any order.
The emitters of the other protocols write in order: `ResponseEmissionFrontier`
points to the item and to the part that may be written next, and keeps the items
and parts that are done ahead of it. What may not be written yet is queued, and
what has been written is recorded to be checked against the ledger at the end.
-/

import GhcGateway.Conversion.Types
import GhcGateway.Library.OrderedMap

namespace GhcGateway.Conversion

open Library

/-- `Set.prototype.add`. -/
def addTo {α : Type} [DecidableEq α] (set : List α) (value : α) : List α :=
  if value ∈ set then set else set ++ [value]

theorem mem_addTo {α : Type} [DecidableEq α] {set : List α} {value other : α} :
    other ∈ addTo set value ↔ other ∈ set ∨ other = value := by
  rw [addTo]
  split
  · next member =>
    constructor
    · exact .inl
    · rintro (old | rfl)
      · exact old
      · exact member
  · rw [List.mem_append, List.mem_singleton]

structure ResponseEmissionFrontier where
  item : Nat
  completedItems : List Int
  content : OrderedMap StreamKey Nat
  completedContent : OrderedMap StreamKey (List Nat)

namespace ResponseEmissionFrontier

def new : ResponseEmissionFrontier := ⟨0, [], .empty, .empty⟩

/-- The part of an item that may be written next. -/
def contentOf (frontier : ResponseEmissionFrontier) (orderKey : StreamKey) : Nat :=
  (frontier.content.get orderKey).getD 0

def allowsContent (frontier : ResponseEmissionFrontier) (key : StreamKey)
    (orderKey : Option StreamKey) : Bool :=
  match orderKey with
  | none => false
  | some orderKey =>
    match orderKey.responseOutputIndex, key.responseMessagePartPosition with
    | some itemIndex, some (outputIndex, contentIndex, _) =>
      orderKey = .responsesMessage itemIndex ∧ itemIndex = frontier.item ∧
        outputIndex = itemIndex ∧ contentIndex = frontier.contentOf orderKey
    | _, _ => false

def allowsItem (frontier : ResponseEmissionFrontier) (key : StreamKey) : Bool :=
  key.responseOutputIndex = some frontier.item

def markContentDone (frontier : ResponseEmissionFrontier) (orderKey : StreamKey)
    (contentIndex : Nat) : ResponseEmissionFrontier :=
  { frontier with
    completedContent := frontier.completedContent.set orderKey
      (addTo ((frontier.completedContent.get orderKey).getD []) contentIndex) }

def contentDoneAtFrontier (frontier : ResponseEmissionFrontier) (orderKey : StreamKey) : Bool :=
  frontier.contentOf orderKey ∈ (frontier.completedContent.get orderKey).getD []

def advanceContent (frontier : ResponseEmissionFrontier) (orderKey : StreamKey) :
    ResponseEmissionFrontier :=
  { frontier with
    completedContent := frontier.completedContent.modify orderKey fun done =>
      done.erase (frontier.contentOf orderKey)
    content := frontier.content.set orderKey (frontier.contentOf orderKey + 1) }

def markItemDone (frontier : ResponseEmissionFrontier) (outputIndex : Int) :
    ResponseEmissionFrontier :=
  { frontier with completedItems := addTo frontier.completedItems outputIndex }

def itemDoneAtFrontier (frontier : ResponseEmissionFrontier) : Bool :=
  (frontier.item : Int) ∈ frontier.completedItems

def advanceItem (frontier : ResponseEmissionFrontier) : ResponseEmissionFrontier :=
  { frontier with
    completedItems := frontier.completedItems.erase frontier.item
    item := frontier.item + 1 }

def currentItemOrderKey (frontier : ResponseEmissionFrontier) : StreamKey :=
  .responsesMessage frontier.item

def currentContentIndex (frontier : ResponseEmissionFrontier) : Nat :=
  frontier.contentOf frontier.currentItemOrderKey

/-- The marks that lie ahead of the frontier. Each advance takes one. -/
def marks (frontier : ResponseEmissionFrontier) : Nat :=
  frontier.completedItems.length +
    frontier.completedContent.weigh fun _ done => done.length

end ResponseEmissionFrontier

/-! ## Queued and written content -/

structure PendingContent where
  orderKey : StreamKey
  kind : ContentKind
  delta : JsString

/-- The content written under a key. -/
structure StreamedContent where
  text : JsString
  refusal : JsString

/-- `streamed[kind]`. -/
def StreamedContent.value (streamed : StreamedContent) : ContentKind → JsString
  | .text => streamed.text
  | .refusal => streamed.refusal

/-- `streamed[kind] += delta`. -/
def StreamedContent.append (streamed : StreamedContent) (kind : ContentKind) (delta : JsString) :
    StreamedContent :=
  match kind with
  | .text => { streamed with text := streamed.text ++ delta }
  | .refusal => { streamed with refusal := streamed.refusal ++ delta }

def recordStreamed (streamedContent : OrderedMap StreamKey StreamedContent) (key : StreamKey)
    (kind : ContentKind) (delta : JsString) : OrderedMap StreamKey StreamedContent :=
  streamedContent.set key (((streamedContent.get key).getD ⟨[], []⟩).append kind delta)

/-- `streamedContent.get(key)?.[kind] ?? ""`. -/
def streamedValue (streamedContent : OrderedMap StreamKey StreamedContent) (key : StreamKey)
    (kind : ContentKind) : JsString :=
  match streamedContent.get key with
  | some streamed => streamed.value kind
  | none => []

def queueContent (pendingContent : OrderedMap StreamKey PendingContent) (key : StreamKey)
    (orderKey : Option StreamKey) (kind : ContentKind) (delta : JsString) :
    Fallible (OrderedMap StreamKey PendingContent) := do
  let orderKey ← required orderKey
  match pendingContent.get key with
  | some pending => do
    require (pending.orderKey = orderKey ∧ pending.kind = kind)
    return pendingContent.set key { pending with delta := pending.delta ++ delta }
  | none => return pendingContent.set key ⟨orderKey, kind, delta⟩

/-- The parts of a message with the keys they are streamed under. -/
def keyedParts (key : StreamKey) (contentKeys : List StreamKey) (content : List SemanticContent) :
    List (StreamKey × SemanticContent) :=
  content.zipIdx.map fun entry => ((contentKeys[entry.2]?).getD key, entry.1)

/-- What has been written grows by what is recorded. -/
theorem streamedValue_recordStreamed (streamedContent : OrderedMap StreamKey StreamedContent)
    (key other : StreamKey) (kind otherKind : ContentKind) (delta : JsString) :
    streamedValue (recordStreamed streamedContent key kind delta) other otherKind =
      streamedValue streamedContent other otherKind ++
        if key = other ∧ kind = otherKind then delta else [] := by
  rw [streamedValue, recordStreamed, OrderedMap.get_set]
  by_cases same : key = other
  · subst same
    rw [if_pos rfl, streamedValue]
    cases streamedContent.get key with
    | none => cases kind <;> cases otherKind <;> simp [StreamedContent.append,
        StreamedContent.value]
    | some streamed =>
      cases kind <;> cases otherKind <;> simp [StreamedContent.append, StreamedContent.value]
  · rw [if_neg same, if_neg fun both => same both.1, List.append_nil]
    rfl

end GhcGateway.Conversion
