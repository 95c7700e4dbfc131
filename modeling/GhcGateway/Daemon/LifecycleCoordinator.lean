/-
# The life cycle coordinator

`LifecycleCoordinator` runs the operations on a data directory one after the other,
each under a lease of the directory. An operation waits in the queue of its directory,
then its lease is acquired, it runs, and the lease is released. A lane is drained by
one loop: a step of the model is what runs without a suspension, and so ends where the
loop awaits a lease or an operation.

A queued node that settles leaves the queue, so a node is settled where it is in no
queue and not in flight. The log of the lanes is what happened to the calls.
-/

import GhcGateway.Library.OrderedMap
import GhcGateway.Library.Schedule
import GhcGateway.Library.Turns
import GhcGateway.Serialization.Text

namespace GhcGateway.Daemon

open Library

/-! ## Errors -/

/-- What a run may be rejected with. -/
inductive LifecycleError
  | cli (code : JsString)
  /-- `DaemonIdentityFileError`, and whether its cause is one of permissions. -/
  | identityFile (permission : Bool)
  /-- An error whose code is `EACCES` or `EPERM`. -/
  | permission
  | selectedRootMissing
  | other (message : JsString)
  deriving DecidableEq

def interrupted : LifecycleError := .cli (js "interrupted")

def normalizeCoordinatorError (error : LifecycleError) (aborted : Bool) : LifecycleError :=
  if aborted then interrupted
  else
    match error with
    | .cli code => .cli code
    | .identityFile true => .cli (js "permission_denied")
    | .identityFile false => .cli (js "security_error")
    | .permission => .cli (js "permission_denied")
    | error => error

/-! ## Lanes -/

inductive DataDirSource
  | default
  | custom
  deriving DecidableEq

/-- `QueueNode`, by the number of its call. Several calls may share a signal. -/
structure QueueNode where
  run : Nat
  signal : Option Nat
  dataDirSource : Option DataDirSource
  createDataDir : Option Bool
  deriving DecidableEq

/-- `node.signal?.aborted`. -/
def QueueNode.isAborted (node : QueueNode) (aborted : List Nat) : Bool :=
  node.signal.any aborted.contains

/-- What the node that was taken from the queue last waits for. -/
inductive LifecycleStage
  | acquiring
  | operating

/-- `DirectoryLane`. It is draining while a node is in flight. -/
structure DirectoryLane where
  queue : List QueueNode
  inFlight : Option (QueueNode × LifecycleStage)

inductive LaneEvent (ρ : Type)
  | refused (run : Nat) (error : LifecycleError)
  | queued (node : QueueNode)
  /-- A queued node is aborted, and its call rejected as interrupted. -/
  | withdrawn (node : QueueNode)
  /-- The node is taken from the queue. -/
  | started (node : QueueNode)
  | acquired (node : QueueNode)
  | operating (node : QueueNode)
  | operated (node : QueueNode)
  | released (node : QueueNode)
  | releaseFailed (node : QueueNode)
  | settled (node : QueueNode) (outcome : Except LifecycleError ρ)

variable {ρ : Type}

namespace DirectoryLane

def idle : DirectoryLane := ⟨[], none⟩

/-- `drain`, from the head of its loop to the next lease that is awaited. -/
def drain (aborted : List Nat) : List QueueNode → DirectoryLane × List (LaneEvent ρ)
  | [] => (idle, [])
  | node :: queue =>
    if node.isAborted aborted then
      let (lane, events) := drain aborted queue
      (lane, .started node :: .settled node (.error interrupted) :: events)
    else (⟨queue, some (node, .acquiring)⟩, [.started node])

/-- The end of a turn: the call settles, and the loop goes on. -/
def settle (aborted : List Nat) (queue : List QueueNode) (node : QueueNode)
    (before : List (LaneEvent ρ)) (outcome : Except LifecycleError ρ) :
    DirectoryLane × List (LaneEvent ρ) :=
  let (lane, events) := drain aborted queue
  (lane, before ++ .settled node outcome :: events)

/-- The `catch` of a turn that holds a lease, with the error of the release if it
throws. -/
def reject (aborted : List Nat) (queue : List QueueNode) (node : QueueNode)
    (before : List (LaneEvent ρ)) (error : LifecycleError) :
    Option LifecycleError → DirectoryLane × List (LaneEvent ρ)
  | none => settle aborted queue node (before ++ [.released node])
    (.error (normalizeCoordinatorError error (node.isAborted aborted)))
  | some releaseError => settle aborted queue node (before ++ [.releaseFailed node])
    (.error (normalizeCoordinatorError releaseError (node.isAborted aborted)))

end DirectoryLane

/-- How `leases.acquire` settles. -/
inductive LeaseAnswer
  | acquired
  | missing
  | failed (error : LifecycleError)

namespace DirectoryLane

/-- The acquisition that is awaited settles. A release is attempted only of a lease that
came after an abort. -/
def leaseSettled (aborted : List Nat) (lane : DirectoryLane) (answer : LeaseAnswer)
    (release : Option LifecycleError) : Option (DirectoryLane × List (LaneEvent ρ)) :=
  match lane.inFlight with
  | some (node, .acquiring) =>
    match answer with
    | .failed error => some (settle aborted lane.queue node []
      (.error (normalizeCoordinatorError error (node.isAborted aborted))))
    | .missing => some (settle aborted lane.queue node []
      (.error (normalizeCoordinatorError .selectedRootMissing (node.isAborted aborted))))
    | .acquired =>
      if node.isAborted aborted then
        some (reject aborted lane.queue node [.acquired node] interrupted release)
      else some (⟨lane.queue, some (node, .operating)⟩, [.acquired node, .operating node])
  | _ => none

/-- The operation that is awaited settles. The lease is kept when its release throws, so
the `catch` tries to release it again. -/
def operationSettled (aborted : List Nat) (lane : DirectoryLane)
    (result : Except LifecycleError ρ) (first second : Option LifecycleError) :
    Option (DirectoryLane × List (LaneEvent ρ)) :=
  match lane.inFlight with
  | some (node, .operating) =>
    match result with
    | .error error => some (reject aborted lane.queue node [.operated node] error first)
    | .ok value =>
      if node.isAborted aborted then
        some (reject aborted lane.queue node [.operated node] interrupted first)
      else
        match first with
        | none => some (settle aborted lane.queue node [.operated node, .released node] (.ok value))
        | some error =>
          some (reject aborted lane.queue node [.operated node, .releaseFailed node] error second)
  | _ => none

/-- The abort of a signal: its nodes leave the queue. -/
def abort (lane : DirectoryLane) (signal : Nat) : DirectoryLane :=
  { lane with queue := lane.queue.filter fun node => node.signal ≠ some signal }

/-- What the abort of a signal does to the calls of a lane. -/
def abortEvents (lane : DirectoryLane) (signal : Nat) : List (LaneEvent ρ) :=
  (lane.queue.filter fun node => node.signal = some signal).map .withdrawn

end DirectoryLane

/-! ## The coordinator -/

def maxPendingLifecycleOperationsPerDirectory : Nat := 64

/-- `LifecycleCoordinator`, with the number of calls so far, the signals that are aborted
and the log of every lane. -/
structure LifecycleCoordinator (κ ρ : Type) where
  lanes : OrderedMap κ DirectoryLane
  calls : Nat
  aborted : List Nat
  log : List (κ × LaneEvent ρ)

/-- A step of the coordinator or of what it waits for. A key is the resolved path of a
data directory. -/
inductive LifecycleStep (κ ρ : Type)
  | run (key : κ) (signal : Option Nat) (dataDirSource : Option DataDirSource)
      (createDataDir : Option Bool)
  | abort (signal : Nat)
  | leaseSettled (key : κ) (answer : LeaseAnswer) (release : Option LifecycleError)
  | operationSettled (key : κ) (result : Except LifecycleError ρ)
      (first second : Option LifecycleError)

namespace LifecycleCoordinator

variable {κ : Type} [DecidableEq κ]

def initial : LifecycleCoordinator κ ρ := ⟨.empty, 0, [], []⟩

variable (state : LifecycleCoordinator κ ρ)

def laneOf (key : κ) : DirectoryLane := (state.lanes.get key).getD .idle

/-- A lane after some events. It leaves the map when it is drained. -/
def put (key : κ) (lane : DirectoryLane) (events : List (LaneEvent ρ)) :
    LifecycleCoordinator κ ρ :=
  { state with
    lanes := if lane.queue = [] ∧ lane.inFlight = none then state.lanes.erase key
      else state.lanes.set key lane
    log := state.log ++ events.map (key, ·) }

/-- `run`, up to the first suspension. -/
def run (key : κ) (signal : Option Nat) (dataDirSource : Option DataDirSource)
    (createDataDir : Option Bool) : LifecycleCoordinator κ ρ :=
  let node : QueueNode := ⟨state.calls, signal, dataDirSource, createDataDir⟩
  let state := { state with calls := state.calls + 1 }
  let lane := state.laneOf key
  if node.isAborted state.aborted then
    { state with log := state.log ++ [(key, .refused node.run interrupted)] }
  else if maxPendingLifecycleOperationsPerDirectory ≤ lane.queue.length then
    state.put key lane [.refused node.run (.cli (js "unavailable"))]
  else if lane.inFlight.isSome then
    state.put key { lane with queue := lane.queue ++ [node] } [.queued node]
  else
    let (lane, events) := DirectoryLane.drain state.aborted (lane.queue ++ [node])
    state.put key lane (.queued node :: events)

def abort (signal : Nat) : LifecycleCoordinator κ ρ :=
  { state with
    lanes := state.lanes.mapValues fun lane => lane.abort signal
    aborted := signal :: state.aborted
    log := state.log ++ state.lanes.entries.flatMap fun entry =>
      (entry.2.abortEvents signal).map (entry.1, ·) }

/-- A step, where it can happen. -/
def step : LifecycleStep κ ρ → Option (LifecycleCoordinator κ ρ)
  | .run key signal dataDirSource createDataDir =>
    some (state.run key signal dataDirSource createDataDir)
  | .abort signal => some (state.abort signal)
  | .leaseSettled key answer release => do
    let (lane, events) ← (state.laneOf key).leaseSettled state.aborted answer release
    return state.put key lane events
  | .operationSettled key result first second => do
    let (lane, events) ← (state.laneOf key).operationSettled state.aborted result first second
    return state.put key lane events

end LifecycleCoordinator

def lifecycleCoordinator (κ ρ : Type) [DecidableEq κ] :
    Concurrent (LifecycleCoordinator κ ρ) (LifecycleStep κ ρ) where
  step state label := state.step label

end GhcGateway.Daemon
