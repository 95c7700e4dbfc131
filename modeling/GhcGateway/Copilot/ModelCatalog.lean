/-
# The model catalog

`CopilotModelCatalog` keeps one catalog for each account and shares a fetch among the
callers that ask for the same credential generation. An invalidation raises the
generation of the account, so that a fetch that started before it is not cached and
not shared any more.

A step is what runs without an interruption: a call of `get` up to its first `await`,
the rest of `fetchCatalog` after the source has answered, the callback that marks a
fetch as settled, the end of a caller's wait, `invalidate` and `clear`. The source may
answer whether or not it has been aborted. The catalog is never closed.

`epochs` is not a part of the program: it counts, for each account, the calls of
`invalidate` and `clear` so far.
-/

import GhcGateway.Library.OrderedMap
import GhcGateway.Library.Schedule
import GhcGateway.Library.SingleFlight
import GhcGateway.Serialization.Text

namespace GhcGateway.Copilot

open Library SingleFlight

universe u

/-- `CatalogSnapshot`. The models, parsed, and the time they arrived at are one
value. -/
structure CatalogSnapshot (α : Type u) where
  accountId : JsString
  models : α
  generation : Nat
  credentialGeneration : Nat

/-- `CacheEntry`, with the number of the fetch it comes from. -/
structure CatalogCacheEntry (α : Type u) where
  catalog : CatalogSnapshot α
  generation : Nat
  credentialGeneration : Nat
  fetch : Nat

/-- The fetches and the callers. A fetch is tagged with its generation. -/
abbrev CatalogRoom (α : Type u) := Room (JsString × Nat) Nat Unit (CatalogSnapshot α)

/-- `CopilotModelCatalog`. `inflight` holds the numbers of fetches. -/
structure CopilotModelCatalog (α : Type u) where
  cache : OrderedMap JsString (CatalogCacheEntry α)
  generations : OrderedMap JsString Nat
  credentialGenerations : OrderedMap JsString Nat
  inflight : OrderedMap JsString Nat
  room : CatalogRoom α
  epochs : JsString → Nat

namespace CopilotModelCatalog

variable {α : Type u}

def new : CopilotModelCatalog α :=
  ⟨OrderedMap.empty, OrderedMap.empty, OrderedMap.empty, OrderedMap.empty, Room.empty, fun _ => 0⟩

def generation (catalog : CopilotModelCatalog α) (accountId : JsString) : Nat :=
  (catalog.generations.get accountId).getD 0

def isCurrent (catalog : CopilotModelCatalog α) (accountId : JsString)
    (generation credentialGeneration : Nat) : Bool :=
  catalog.generation accountId = generation &&
    catalog.credentialGenerations.get accountId = some credentialGeneration

/-! ## Getting -/

/-- A call, before it is known what it waits for. -/
def call (catalog : CopilotModelCatalog α) (accountId : JsString) (credentialGeneration : Nat)
    (aborted : Bool) : Call (JsString × Nat) Unit (CatalogSnapshot α) where
  key := (accountId, credentialGeneration)
  tag := ()
  made := catalog.epochs accountId
  abortedAtStart := aborted
  aborted := aborted
  progress := .aborted

def noteCredentialGeneration (catalog : CopilotModelCatalog α) (accountId : JsString)
    (credentialGeneration : Nat) : CopilotModelCatalog α :=
  { catalog with
    credentialGenerations := catalog.credentialGenerations.set accountId
      (max credentialGeneration
        ((catalog.credentialGenerations.get accountId).getD credentialGeneration)) }

/-- The cached catalog of an account, if it has the credential generation. -/
def hit (catalog : CopilotModelCatalog α) (accountId : JsString) (credentialGeneration : Nat) :
    Option (CatalogCacheEntry α) :=
  (catalog.cache.get accountId).filter fun hit => hit.credentialGeneration = credentialGeneration

/-- The fetch that a call may share. -/
def pending (catalog : CopilotModelCatalog α) (accountId : JsString) (credentialGeneration : Nat) :
    Option Nat :=
  (catalog.inflight.get accountId).filter fun id =>
    (catalog.room.flights[id]?).any fun fetch =>
      !fetch.aborted && fetch.tag = catalog.generation accountId &&
        fetch.key.2 = credentialGeneration

/-- The part of `get` after a miss: a fetch is shared or started. -/
def fetchCatalog (catalog : CopilotModelCatalog α) (accountId : JsString)
    (credentialGeneration : Nat) (aborted : Bool) : CopilotModelCatalog α :=
  let call := catalog.call accountId credentialGeneration aborted
  match catalog.pending accountId credentialGeneration with
  | some id => { catalog with room := catalog.room.join id call }
  | none =>
    let id := catalog.room.flights.length
    let fetch := Flight.new (accountId, credentialGeneration) (catalog.generation accountId)
      (catalog.epochs accountId)
    { catalog with
      room := (catalog.room.start fetch).join id call
      inflight := catalog.inflight.set accountId id }

/-- `get` up to its first `await`. -/
def get (catalog : CopilotModelCatalog α) (accountId : JsString) (credentialGeneration : Nat)
    (aborted : Bool) : CopilotModelCatalog α :=
  let catalog := catalog.noteCredentialGeneration accountId credentialGeneration
  match catalog.hit accountId credentialGeneration with
  | some hit =>
    { catalog with
      room := catalog.room.answer
        { catalog.call accountId credentialGeneration aborted with
          progress := .hit hit.fetch hit.catalog } }
  | none => catalog.fetchCatalog accountId credentialGeneration aborted

/-! ## Fetches -/

/-- The rest of `fetchCatalog`: the source has answered with models, or it or their
parsing has failed. -/
def answered (catalog : CopilotModelCatalog α) (id : Nat) (answer : Option α) :
    Option (CopilotModelCatalog α) :=
  match catalog.room.flights[id]? with
  | none => none
  | some fetch =>
    let snapshot := answer.map fun models =>
      CatalogSnapshot.mk fetch.key.1 models fetch.tag fetch.key.2
    (catalog.room.settle id snapshot).map fun room =>
      match snapshot with
      | none => { catalog with room := room }
      | some snapshot =>
        if catalog.isCurrent fetch.key.1 fetch.tag fetch.key.2 then
          { catalog with
            room := room
            cache := catalog.cache.set fetch.key.1 ⟨snapshot, fetch.tag, fetch.key.2, id⟩ }
        else { catalog with room := room }

/-- The inflight fetches without one that an account may have. -/
def dropInflight (catalog : CopilotModelCatalog α) (accountId : JsString) (id : Nat) :
    OrderedMap JsString Nat :=
  if catalog.inflight.get accountId = some id then catalog.inflight.erase accountId
  else catalog.inflight

/-- The callback of `promise.finally`. -/
def settled (catalog : CopilotModelCatalog α) (id : Nat) : Option (CopilotModelCatalog α) :=
  match catalog.room.flights[id]? with
  | none => none
  | some fetch =>
    (catalog.room.finish id).map fun room =>
      { catalog with room := room, inflight := catalog.dropInflight fetch.key.1 id }

/-- The end of `waitForInflight`. -/
def leave (catalog : CopilotModelCatalog α) (caller : Nat) (byAbort : Bool) :
    Option (CopilotModelCatalog α) :=
  (catalog.room.leave caller byAbort).map fun room =>
    match catalog.room.orphan caller with
    | none => { catalog with room := room }
    | some (id, fetch) =>
      { catalog with room := room, inflight := catalog.dropInflight fetch.key.1 id }

/-! ## Invalidation -/

def bump (catalog : CopilotModelCatalog α) (accountId : JsString) : CopilotModelCatalog α :=
  { catalog with
    generations := catalog.generations.set accountId (catalog.generation accountId + 1) }

def invalidate (catalog : CopilotModelCatalog α) (accountId : JsString) : CopilotModelCatalog α :=
  { ({ catalog with cache := catalog.cache.erase accountId }).bump accountId with
    epochs := Function.update catalog.epochs accountId (catalog.epochs accountId + 1) }

/-- `new Set([...this.cache.keys(), ...this.generations.keys()])`. -/
def knownAccounts (catalog : CopilotModelCatalog α) : List JsString :=
  catalog.cache.keys ++ catalog.generations.keys.filter fun accountId =>
    accountId ∉ catalog.cache.keys

def clear (catalog : CopilotModelCatalog α) : CopilotModelCatalog α :=
  { catalog.knownAccounts.foldl bump catalog with
    cache := OrderedMap.empty
    epochs := fun accountId => catalog.epochs accountId + 1 }

/-! ## Steps -/

inductive Event (α : Type u)
  | get (accountId : JsString) (credentialGeneration : Nat) (aborted : Bool)
  | abort (caller : Nat)
  | answered (fetch : Nat) (answer : Option α)
  | settled (fetch : Nat)
  | leave (caller : Nat) (byAbort : Bool)
  | invalidate (accountId : JsString)
  | clear

def step (catalog : CopilotModelCatalog α) : Event α → Option (CopilotModelCatalog α)
  | .get accountId credentialGeneration aborted =>
    some (catalog.get accountId credentialGeneration aborted)
  | .abort caller => some { catalog with room := catalog.room.abortCall caller }
  | .answered fetch answer => catalog.answered fetch answer
  | .settled fetch => catalog.settled fetch
  | .leave caller byAbort => catalog.leave caller byAbort
  | .invalidate accountId => some (catalog.invalidate accountId)
  | .clear => some catalog.clear

def system (α : Type u) : Concurrent (CopilotModelCatalog α) (Event α) := ⟨step⟩

end CopilotModelCatalog

end GhcGateway.Copilot
