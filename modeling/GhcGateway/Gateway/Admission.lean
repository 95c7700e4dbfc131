/-
# Admission of requests

`AdmissionController` lets at most `activeMax` requests run and keeps the others
in a queue. Its calls suspend: a waiter woken by a release takes its slot only when
its continuation runs, and until then the slot counts as free. The model keeps the
settled promises whose continuations have not run beside the controller, so that
every order in which arrivals, releases, aborts, timeouts and resumptions can
happen is a schedule.

One snapshot of the configuration is fixed throughout. Deadlines are left to the
schedule: the delay of a waiter may end at any time.
-/

import GhcGateway.Gateway.Failure
import GhcGateway.Library.Schedule
import Mathlib.Data.List.Count

namespace GhcGateway.Gateway

open Library

/-- The part of `RuntimeConfigSnapshot` that admission reads. -/
structure AdmissionLimits where
  activeMax : Nat
  queueMax : Nat

/-- A call of `acquire`, by its place in the order of all calls. -/
abbrev RequestId := Nat

/-- `AdmissionController`. A waiter is known by its request. -/
structure AdmissionController where
  active : Nat
  closed : Bool
  waiters : List RequestId

/-- What a call of `acquire` does before it suspends for the first time. -/
inductive AcquireResult
  | failed (failure : GatewayFailure)
  | granted
  | suspended
  deriving DecidableEq

/-- What the promise of a waiter was settled with. -/
inductive WaiterSettlement
  | resolved
  | rejected (failure : GatewayFailure)
  deriving DecidableEq

def admissionFailure (kind : GatewayFailureKind) : GatewayFailure := ⟨kind, none, none⟩

namespace AdmissionController

/-- `acquire` up to its first suspension. The second look of `waitForSlot` at the
signal is left out: it comes before anything else can run. -/
def acquire (limits : AdmissionLimits) (controller : AdmissionController) (request : RequestId)
    (aborted : Bool) : AdmissionController × AcquireResult :=
  if controller.closed || aborted then (controller, .failed (admissionFailure .aborted))
  else if controller.active < limits.activeMax then
    ({ controller with active := controller.active + 1 }, .granted)
  else if controller.waiters.length ≥ limits.queueMax then
    (controller, .failed (admissionFailure .queueFull))
  else ({ controller with waiters := controller.waiters ++ [request] }, .suspended)

/-- `release`, with the waiter it resolves. -/
def release (controller : AdmissionController) : AdmissionController × Option RequestId :=
  ({ controller with
      active := controller.active - 1
      waiters := controller.waiters.tail }, controller.waiters.head?)

/-- `close`, with the waiters it rejects. -/
def close (controller : AdmissionController) : AdmissionController × List RequestId :=
  ({ controller with closed := true, waiters := [] }, controller.waiters)

def removeWaiter (controller : AdmissionController) (request : RequestId) : AdmissionController :=
  { controller with waiters := controller.waiters.erase request }

end AdmissionController

/-- The controller, the calls whose promise is settled and whose continuation has
not run, and the requests admitted and not released. -/
structure Admission where
  controller : AdmissionController
  arrivals : Nat
  settled : List (RequestId × WaiterSettlement)
  admitted : List RequestId

/-- One move: `resume` runs the continuation at a place among those that are due,
`delayFailed` carries the error of the delay when that is a gateway failure. -/
inductive AdmissionStep
  | acquire (aborted : Bool)
  | release (request : RequestId)
  | abort (request : RequestId)
  | timeout (request : RequestId)
  | delayFailed (request : RequestId) (error : Option GatewayFailure)
  | close
  | resume (place : Nat)

namespace Admission

def initial : Admission := ⟨⟨0, false, []⟩, 0, [], []⟩

/-- A waiter leaves the queue with a failure; any other request is not touched. -/
def rejectWaiter (state : Admission) (request : RequestId) (failure : GatewayFailure) : Admission :=
  if request ∈ state.controller.waiters then
    { state with
      controller := state.controller.removeWaiter request
      settled := state.settled ++ [(request, .rejected failure)] }
  else state

/-- The continuation of a call: `active += 1` once its slot was handed over, or the
failure of its wait. -/
def resume (state : Admission) (place : Nat) : Option Admission :=
  match state.settled[place]? with
  | none => none
  | some (request, .resolved) =>
    some { state with
      controller := { state.controller with active := state.controller.active + 1 }
      settled := state.settled.eraseIdx place
      admitted := state.admitted ++ [request] }
  | some (_, .rejected _) => some { state with settled := state.settled.eraseIdx place }

/-- A call of `acquire`. -/
def acquire (limits : AdmissionLimits) (state : Admission) (aborted : Bool) : Admission :=
  let (controller, result) := state.controller.acquire limits state.arrivals aborted
  { state with
    controller
    arrivals := state.arrivals + 1
    admitted := if result = .granted then state.admitted ++ [state.arrivals] else state.admitted }

/-- The call of the release function of a request. -/
def release (state : Admission) (request : RequestId) : Admission :=
  let (controller, next) := state.controller.release
  { state with
    controller
    settled := state.settled ++ next.toList.map (·, .resolved)
    admitted := state.admitted.erase request }

def close (state : Admission) : Admission :=
  let (controller, waiters) := state.controller.close
  { state with
    controller
    settled := state.settled ++ waiters.map (·, .rejected (admissionFailure .aborted)) }

/-- Calls that a release has woken and that have not taken their slot yet. -/
def woken (state : Admission) : Nat := state.settled.countP fun entry => entry.2 = .resolved

end Admission

/-- The moves of an admission controller under one snapshot. A release happens once
for each grant. -/
def admission (limits : AdmissionLimits) : Concurrent Admission AdmissionStep where
  step state
    | .acquire aborted => some (state.acquire limits aborted)
    | .release request => if request ∈ state.admitted then some (state.release request) else none
    | .abort request => some (state.rejectWaiter request (admissionFailure .aborted))
    | .timeout request => some (state.rejectWaiter request (admissionFailure .queueTimeout))
    | .delayFailed request error =>
      some (state.rejectWaiter request (error.getD (admissionFailure .aborted)))
    | .close => some state.close
    | .resume place => state.resume place

/-- A call that finds a free slot leaves one for every woken waiter. -/
def LeavesWokenRoom (limits : AdmissionLimits) (state : Admission) : AdmissionStep → Prop
  | .acquire aborted =>
    (state.controller.acquire limits state.arrivals aborted).2 = .granted →
      state.controller.active + state.woken < limits.activeMax
  | _ => True

end GhcGateway.Gateway
