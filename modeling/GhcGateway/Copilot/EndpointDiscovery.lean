/-
# The discovery of endpoints

`EndpointDiscovery` remembers one endpoint for each account, in the lane of the
account's credential generation. The operations under way are joined by account and
credential generation. An invalidation drops the lane and the joins of the account; the
operations go on, but their lanes are not the account's any more.

A lane is an object that operations and callers hold on to, so lanes are numbered. With
the endpoint of a lane stands the number of the operation that found it. A step is what
runs without an interruption. The promise of an operation is its completion, which
callers see once the operation is marked as settled. The discovery is never closed.

`epochs` is not a part of the program: it counts the invalidations of each account.
-/

import GhcGateway.Library.OrderedMap
import GhcGateway.Library.Schedule
import GhcGateway.Library.SingleFlight
import GhcGateway.Serialization.Text

namespace GhcGateway.Copilot

open Library SingleFlight

/-- The kind of a GitHub environment, with the host of an enterprise server. -/
inductive DiscoveryEnvironment
  | githubCom
  | ghes (host : JsString)

/-- What of a `BoundAccount` is read. -/
structure DiscoveryAccount where
  accountId : JsString
  credentialGeneration : Nat
  environment : DiscoveryEnvironment

structure DiscoveryLane where
  accountId : JsString
  credentialGeneration : Nat
  endpoint : Option (Nat × JsString)
  operation : Option Nat

/-- What an operation was started with: its lane and the environment. -/
structure DiscoveryTag where
  lane : Nat
  environment : DiscoveryEnvironment

/-- `GITHUB_COM_FALLBACK` and the host of an enterprise server without its port. -/
def fallbackEndpoint : DiscoveryEnvironment → JsString
  | .githubCom => js "https://api.githubcopilot.com"
  | .ghes host => js "https://copilot-api." ++ host.takeWhile fun unit => unit ≠ 0x3A

/-- The operations and the callers. A caller is tagged with its lane. -/
abbrev DiscoveryRoom := Room (JsString × Nat) DiscoveryTag Nat JsString

structure EndpointDiscovery where
  objects : List DiscoveryLane
  lanes : OrderedMap JsString Nat
  joins : OrderedMap JsString (OrderedMap Nat Nat)
  room : DiscoveryRoom
  epochs : JsString → Nat

namespace EndpointDiscovery

def new : EndpointDiscovery :=
  ⟨[], OrderedMap.empty, OrderedMap.empty, Room.empty, fun _ => 0⟩

def current (discovery : EndpointDiscovery) (accountId : JsString) : Option (Nat × DiscoveryLane) :=
  (discovery.lanes.get accountId).bind fun id =>
    (discovery.objects[id]?).map fun lane => (id, lane)

def changeLane (discovery : EndpointDiscovery) (id : Nat) (change : DiscoveryLane → DiscoveryLane) :
    EndpointDiscovery :=
  { discovery with objects := discovery.objects.modify id change }

/-- `delete lane.operation`, if it is this operation. -/
def DiscoveryLane.dropOperation (operation : Nat) (lane : DiscoveryLane) : DiscoveryLane :=
  if lane.operation = some operation then { lane with operation := none } else lane

/-! ## Joins -/

def joinFor (discovery : EndpointDiscovery) (accountId : JsString) (credentialGeneration : Nat) :
    Option Nat :=
  (discovery.joins.get accountId).bind fun accountJoins => accountJoins.get credentialGeneration

def removeJoin (discovery : EndpointDiscovery) (accountId : JsString) (credentialGeneration : Nat)
    (operation : Nat) : EndpointDiscovery :=
  match discovery.joins.get accountId with
  | none => discovery
  | some accountJoins =>
    if accountJoins.get credentialGeneration = some operation then
      let rest := accountJoins.erase credentialGeneration
      { discovery with
        joins :=
          if rest.entries = [] then discovery.joins.erase accountId
          else discovery.joins.set accountId rest }
    else discovery

/-- The join of `startOperation`. -/
def addJoin (discovery : EndpointDiscovery) (accountId : JsString) (credentialGeneration : Nat)
    (operation : Nat) : EndpointDiscovery :=
  let accountJoins := (discovery.joins.get accountId).getD OrderedMap.empty
  { discovery with
    joins := discovery.joins.set accountId (accountJoins.set credentialGeneration operation) }

/-! ## Discovering -/

/-- A call, before it is known what it waits for. -/
def call (discovery : EndpointDiscovery) (account : DiscoveryAccount) (lane : Nat)
    (aborted : Bool) : Call (JsString × Nat) Nat JsString where
  key := (account.accountId, account.credentialGeneration)
  tag := lane
  made := discovery.epochs account.accountId
  abortedAtStart := aborted
  aborted := aborted
  progress := .aborted

def newLane (discovery : EndpointDiscovery) (account : DiscoveryAccount) : EndpointDiscovery :=
  { discovery with
    objects := discovery.objects ++
      [⟨account.accountId, account.credentialGeneration, none, none⟩] }

/-- The lane of a call that has no remembered endpoint: a new one that becomes the
account's, the account's own, or a new one for credentials older than the account's. -/
def chooseLane (discovery : EndpointDiscovery) (account : DiscoveryAccount) :
    EndpointDiscovery × Nat :=
  let id := discovery.objects.length
  let own := { discovery.newLane account with lanes := discovery.lanes.set account.accountId id }
  match discovery.current account.accountId with
  | none => (own, id)
  | some (currentId, lane) =>
    if lane.credentialGeneration < account.credentialGeneration then (own, id)
    else if lane.credentialGeneration = account.credentialGeneration then (discovery, currentId)
    else (discovery.newLane account, id)

/-- `startOperation`, up to the answer of the source, and the wait for it. -/
def startOperation (discovery : EndpointDiscovery) (account : DiscoveryAccount) (lane : Nat)
    (aborted : Bool) : EndpointDiscovery :=
  let id := discovery.room.flights.length
  let operation := Flight.new (account.accountId, account.credentialGeneration)
    ⟨lane, account.environment⟩ (discovery.epochs account.accountId)
  let room := (discovery.room.start operation).join id (discovery.call account lane aborted)
  let discovery := discovery.changeLane lane fun object => { object with operation := some id }
  let discovery := discovery.addJoin account.accountId account.credentialGeneration id
  { discovery with room := room }

/-- `joinFor(account) ?? startOperation(account, lane)`, and the wait for it. -/
def joinOperation (discovery : EndpointDiscovery) (account : DiscoveryAccount) (lane : Nat)
    (aborted : Bool) : EndpointDiscovery :=
  match discovery.joinFor account.accountId account.credentialGeneration with
  | some id =>
    { discovery with room := discovery.room.join id (discovery.call account lane aborted) }
  | none => discovery.startOperation account lane aborted

/-- The remembered endpoint of an account, if it has the credential generation. -/
def remembered (discovery : EndpointDiscovery) (account : DiscoveryAccount) :
    Option (Nat × JsString) :=
  (discovery.current account.accountId).bind fun current =>
    if current.2.credentialGeneration = account.credentialGeneration then current.2.endpoint
    else none

/-- `discover` up to its first `await`. -/
def discover (discovery : EndpointDiscovery) (account : DiscoveryAccount) (aborted : Bool) :
    EndpointDiscovery :=
  if aborted then
    { discovery with room := discovery.room.answer (discovery.call account 0 aborted) }
  else
    match discovery.remembered account with
    | some (operation, endpoint) =>
      { discovery with
        room := discovery.room.answer
          { discovery.call account 0 aborted with progress := .hit operation endpoint } }
    | none =>
      let (discovery, lane) := discovery.chooseLane account
      discovery.joinOperation account lane aborted

/-! ## Operations -/

/-- The callback of `then`, or the failure of the source: an endpoint, none, or an
error. -/
def answered (discovery : EndpointDiscovery) (id : Nat) (answer : Option (Option JsString)) :
    Option EndpointDiscovery :=
  match discovery.room.flights[id]? with
  | none => none
  | some operation =>
    let endpoint := answer.map fun discovered =>
      discovered.getD (fallbackEndpoint operation.tag.environment)
    (discovery.room.settle id endpoint).map fun room =>
      let discovery := { discovery with room := room }
      match endpoint, discovery.objects[operation.tag.lane]? with
      | some endpoint, some lane =>
        if discovery.lanes.get operation.key.1 = some operation.tag.lane ∧
            lane.operation = some id ∧ operation.aborted = false then
          discovery.changeLane operation.tag.lane fun lane =>
            { lane with endpoint := some (id, endpoint) }
        else discovery
      | _, _ => discovery

/-- The callback of `finally`. -/
def settled (discovery : EndpointDiscovery) (id : Nat) : Option EndpointDiscovery :=
  match discovery.room.flights[id]? with
  | none => none
  | some operation =>
    (discovery.room.finish id).map fun room =>
      (({ discovery with room := room }).removeJoin operation.key.1 operation.key.2 id).changeLane
        operation.tag.lane (DiscoveryLane.dropOperation id)

/-- `onOrphaned`, without the abortion: what the last caller does on leaving. -/
def onOrphaned (discovery : EndpointDiscovery) (call : Call (JsString × Nat) Nat JsString)
    (id : Nat) : EndpointDiscovery :=
  let discovery := discovery.removeJoin call.key.1 call.key.2 id
  let discovery := discovery.changeLane call.tag (DiscoveryLane.dropOperation id)
  if discovery.lanes.get call.key.1 = some call.tag then
    { discovery with lanes := discovery.lanes.erase call.key.1 }
  else discovery

/-- Whether a caller may see the completion of what it waits for. -/
def completes (discovery : EndpointDiscovery) (caller : Nat) : Bool :=
  (discovery.room.calls[caller]?).any fun call =>
    match call.progress with
    | .waiting id => (discovery.room.flights[id]?).any Flight.settled
    | _ => false

/-- The end of `waitForOperation`. -/
def leave (discovery : EndpointDiscovery) (caller : Nat) (byAbort : Bool) :
    Option EndpointDiscovery :=
  if byAbort || discovery.completes caller then
    (discovery.room.leave caller byAbort).map fun room =>
      match discovery.room.orphan caller, discovery.room.calls[caller]? with
      | some (id, _), some call => { discovery.onOrphaned call id with room := room }
      | _, _ => { discovery with room := room }
  else none

def invalidate (discovery : EndpointDiscovery) (accountId : JsString) : EndpointDiscovery :=
  { discovery with
    lanes := discovery.lanes.erase accountId
    joins := discovery.joins.erase accountId
    epochs := Function.update discovery.epochs accountId (discovery.epochs accountId + 1) }

/-! ## Steps -/

inductive Event
  | discover (account : DiscoveryAccount) (aborted : Bool)
  | abort (caller : Nat)
  | answered (operation : Nat) (answer : Option (Option JsString))
  | settled (operation : Nat)
  | leave (caller : Nat) (byAbort : Bool)
  | invalidate (accountId : JsString)

def step (discovery : EndpointDiscovery) : Event → Option EndpointDiscovery
  | .discover account aborted => some (discovery.discover account aborted)
  | .abort caller => some { discovery with room := discovery.room.abortCall caller }
  | .answered operation answer => discovery.answered operation answer
  | .settled operation => discovery.settled operation
  | .leave caller byAbort => discovery.leave caller byAbort
  | .invalidate accountId => some (discovery.invalidate accountId)

def system : Concurrent EndpointDiscovery Event := ⟨step⟩

end EndpointDiscovery

end GhcGateway.Copilot
