/-
# The account coordinator

`AccountCoordinator` runs the work that changes accounts in lanes: one for the life cycle of
all accounts and one for the credentials of each account that has such work. A lane runs one
work at a time and queues the others. The lane of an account is made when it is first needed
and leaves the map when it has nothing left to do.

A work is known by the number of the call that brought it and runs until the continuation
after `await node.work()`; a step is what runs without a suspension. Work begins as the last
thing of a step, so the calls it makes at once are the next steps. The `catch` of
`withCredentialGeneration` is a continuation of its own.
-/

import GhcGateway.Library.OrderedMap
import GhcGateway.Library.Schedule
import GhcGateway.Library.Turns
import GhcGateway.Serialization.Text

namespace GhcGateway.Accounts

open Library

inductive LaneOwner
  | lifecycle
  | generation (accountId : JsString)
  deriving DecidableEq

/-- A lane object: what its `onChange` closes over, and a number no other lane has. -/
structure LaneId where
  owner : LaneOwner
  serial : Nat
  deriving DecidableEq

/-- A work, by the number of the call that brought it. -/
abbrev WorkId := Nat

/-- A call of `drain`. -/
abbrev DrainId := Nat

structure CoordinationLane where
  active : Bool
  queue : List WorkId

def CoordinationLane.pending (lane : CoordinationLane) : Nat :=
  lane.queue.length + if lane.active then 1 else 0

/-- `AccountCoordinator`, with the lanes it has made. -/
structure AccountCoordinator where
  stopped : Bool
  lane : LaneId → CoordinationLane
  made : Nat
  generations : OrderedMap JsString LaneId
  drainWaiters : List DrainId

/-- The coordinator, the works that run and the rejected calls whose `catch` has not run,
each with its lane, and what has happened to calls and works so far. -/
structure Coordination extends AccountCoordinator where
  running : List (LaneId × WorkId)
  rejected : List (JsString × LaneId)
  calls : Nat
  drains : Nat
  drained : List DrainId
  arrived : List (LaneOwner × WorkId)
  withdrawn : List (LaneOwner × WorkId)
  started : List (LaneOwner × WorkId)
  finished : List (LaneOwner × WorkId)

namespace Coordination

def lifecycle : LaneId := ⟨.lifecycle, 0⟩

def initial : Coordination where
  stopped := false
  lane _ := ⟨false, []⟩
  made := 1
  generations := .empty
  drainWaiters := []
  running := []
  rejected := []
  calls := 0
  drains := 0
  drained := []
  arrived := []
  withdrawn := []
  started := []
  finished := []

variable (state : Coordination)

def isIdle : Bool :=
  (state.lane lifecycle).pending = 0 && state.generations.entries.length = 0

def changed : Coordination :=
  if state.isIdle then
    { state with drainWaiters := [], drained := state.drained ++ state.drainWaiters }
  else state

/-- The removal of a lane from the map: it is still there, and nothing is left for it. -/
def forget (accountId : JsString) (id : LaneId) : Coordination :=
  if (state.lane id).pending = 0 ∧ state.generations.get accountId = some id then
    { state with generations := state.generations.erase accountId }
  else state

def generationChanged (accountId : JsString) (id : LaneId) : Coordination :=
  (state.forget accountId id).changed

/-- `onChange` of a lane. -/
def onChange (id : LaneId) : Coordination :=
  match id.owner with
  | .lifecycle => state.changed
  | .generation accountId => state.generationChanged accountId id

def setLane (id : LaneId) (lane : CoordinationLane) : Coordination :=
  { state with lane := Function.update state.lane id lane }

/-- `admit`: the work begins. -/
def admitWork (id : LaneId) (work : WorkId) : Coordination :=
  { state with
    running := state.running ++ [(id, work)]
    started := state.started ++ [(id.owner, work)] }

/-- `run`, once the signal was found not to be aborted. -/
def run (id : LaneId) (work : WorkId) : Coordination :=
  let state := { state with arrived := state.arrived ++ [(id.owner, work)] }
  let lane := state.lane id
  if lane.active then (state.setLane id { lane with queue := lane.queue ++ [work] }).onChange id
  else ((state.setLane id { lane with active := true }).onChange id).admitWork id work

def withLifecycle (aborted : Bool) : Coordination :=
  let work := state.calls
  let state := { state with calls := state.calls + 1 }
  if state.stopped || aborted then state else state.run lifecycle work

/-- The lane of an account, made if there is none. -/
def generationLane (accountId : JsString) : LaneId × Coordination :=
  match state.generations.get accountId with
  | some id => (id, state)
  | none =>
    let id := ⟨.generation accountId, state.made⟩
    (id, { state.setLane id ⟨false, []⟩ with
      made := state.made + 1
      generations := state.generations.set accountId id })

/-- `withCredentialGeneration` up to its suspension. The second look at the signal, in `run`,
comes before anything else can happen. -/
def withCredentialGeneration (accountId : JsString) (aborted : Bool) : Coordination :=
  let work := state.calls
  let state := { state with calls := state.calls + 1 }
  if state.stopped || aborted then state
  else
    let (id, state) := state.generationLane accountId
    state.run id work

/-- The call of a lane is rejected; that of an account's lane has a `catch`. -/
def reject (id : LaneId) : Coordination :=
  match id.owner with
  | .lifecycle => state
  | .generation accountId => { state with rejected := state.rejected ++ [(accountId, id)] }

/-- The end of `admit`, when the promise of the work is fulfilled or rejected. -/
def finish (id : LaneId) (work : WorkId) (failed : Bool) : Option Coordination :=
  if (id, work) ∈ state.running then
    let lane := state.lane id
    let state :=
      { state with
        running := state.running.erase (id, work)
        finished := state.finished ++ [(id.owner, work)] }
    let state := if failed then state.reject id else state
    let state := (state.setLane id ⟨lane.queue ≠ [], lane.queue.tail⟩).onChange id
    match lane.queue with
    | [] => some state
    | next :: _ => some (state.admitWork id next)
  else none

/-- The listener of a queued work's signal. -/
def abort (id : LaneId) (work : WorkId) : Coordination :=
  let lane := state.lane id
  if work ∈ lane.queue then
    let state := { state with withdrawn := state.withdrawn ++ [(id.owner, work)] }
    ((state.setLane id { lane with queue := lane.queue.erase work }).reject id).onChange id
  else state

/-- The `catch` of a rejected `withCredentialGeneration`. -/
def caught (place : Nat) : Option Coordination :=
  (state.rejected[place]?).map fun call =>
    { state with rejected := state.rejected.eraseIdx place }.forget call.1 call.2

def stop : Coordination :=
  if state.stopped then state else { state with stopped := true }.changed

def drain : Coordination :=
  if state.isIdle then
    { state with drains := state.drains + 1, drained := state.drained ++ [state.drains] }
  else
    { state with drains := state.drains + 1, drainWaiters := state.drainWaiters ++ [state.drains] }

end Coordination

/-- One step of the coordinator. `close` is `stop` and then `drain`. -/
inductive CoordinatorStep
  | withLifecycle (aborted : Bool)
  | withCredentialGeneration (accountId : JsString) (aborted : Bool)
  | finish (id : LaneId) (work : WorkId) (failed : Bool)
  | abort (id : LaneId) (work : WorkId)
  | caught (place : Nat)
  | stop
  | drain

def accountCoordinator : Concurrent Coordination CoordinatorStep where
  step state
    | .withLifecycle aborted => some (state.withLifecycle aborted)
    | .withCredentialGeneration accountId aborted =>
      some (state.withCredentialGeneration accountId aborted)
    | .finish id work failed => state.finish id work failed
    | .abort id work => some (state.abort id work)
    | .caught place => state.caught place
    | .stop => some state.stop
    | .drain => some state.drain

namespace Coordination

variable (state : Coordination)

def ofOwner (owner : LaneOwner) (history : List (LaneOwner × WorkId)) : List WorkId :=
  (history.filter fun entry => entry.1 = owner).map Prod.snd

/-- The works of a lane owner that run, in whatever lane. -/
def runningOf (owner : LaneOwner) : List WorkId :=
  (state.running.filter fun entry => entry.1.owner = owner).map Prod.snd

/-- The lane that a call for the owner would find. -/
def laneOf : LaneOwner → Option LaneId
  | .lifecycle => some lifecycle
  | .generation accountId => state.generations.get accountId

def waitingOf (owner : LaneOwner) : List WorkId :=
  match state.laneOf owner with
  | some id => (state.lane id).queue
  | none => []

/-- A lane that has work, running or queued. -/
def Live (id : LaneId) : Prop := (state.lane id).pending ≠ 0

/-- Nothing is queued or running, in any lane ever made. -/
def Quiet : Prop := state.running = [] ∧ ∀ id, (state.lane id).queue = []

def turns (owner : LaneOwner) : Turns WorkId where
  running := state.runningOf owner
  waiting := state.waitingOf owner
  arrived := ofOwner owner state.arrived
  withdrawn := ofOwner owner state.withdrawn
  started := ofOwner owner state.started
  finished := ofOwner owner state.finished

end Coordination

end GhcGateway.Accounts
