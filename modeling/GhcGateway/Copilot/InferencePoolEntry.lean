/-
# An entry of the inference pool

`InferencePoolEntry` hands out a bounded number of slots for one connection
profile, queues the calls beyond them, and owns the dispatcher that all slots
share. Each function here is what the source does between two suspensions; the
steps that come after a suspension (an initialisation that ends, a dispatcher that
has been closed) are functions of their own.

A release function is known by the call it was given to: `leases` are those
handed out and not yet called. Dispatchers are known by the initialisation that
created them.
-/

import Mathlib.Data.List.Basic

namespace GhcGateway.Copilot

structure InferencePoolLimits where
  maxEntries : Nat
  connectionsPerEntry : Nat
  maxWaitersPerEntry : Nat
  idleTimeoutMs : Nat
  maxAcquisitionMs : Nat
  shutdownGraceMs : Nat

def InferencePoolLimits.defaults : InferencePoolLimits := ⟨16, 4, 16, 30000, 120000, 2000⟩

/-- A call of `acquire`. -/
abbrev CallId := Nat

/-- A call of the dispatcher factory. -/
abbrev InitId := Nat

/-- What a call of `acquire` can fail with: `closedError()`, the two errors of the
pool, the reason of the caller's signal, and an error of the dispatcher factory. -/
inductive PoolError
  | closed
  | saturated
  | acquireTimeout
  | aborted
  | factory (error : Nat)
  deriving DecidableEq

/-- How far `closePromise` is: not started, waiting for the initialisation that was
pending (if one was), waiting for the dispatcher to close, or settled. -/
inductive CloseStage
  | unset
  | pending (init : Option InitId)
  | dispatcher (dispatcher : InitId)
  | fulfilled
  | rejected
  deriving DecidableEq

structure InferencePoolEntry where
  dispatcher : Option InitId
  dispatcherPromise : Option InitId
  closingDispatcher : Option InitId
  closingDispatcherPromise : Option InitId
  waiters : List CallId
  active : Nat
  closed : Bool
  idleTimer : Bool
  failedInitialization : Bool
  closePromise : CloseStage
  forceClosed : Bool
  lastUsedMs : Nat
  leases : List CallId
  deriving DecidableEq

/-- What a call of `acquire` does before it suspends. -/
inductive SlotResult
  | failed (error : PoolError)
  | granted
  | waiting
  deriving DecidableEq

/-- What a call of `getDispatcher` does before it suspends. -/
inductive DispatcherResult
  | failed (error : PoolError)
  | ready (dispatcher : InitId)
  | pending (init : InitId)

namespace InferencePoolEntry

def new (now : Nat) : InferencePoolEntry :=
  ⟨none, none, none, none, [], 0, false, false, false, .unset, false, now, []⟩

def idle (entry : InferencePoolEntry) : Bool :=
  entry.active = 0 && entry.waiters.isEmpty && entry.dispatcherPromise.isNone

def touch (entry : InferencePoolEntry) (now : Nat) : InferencePoolEntry :=
  { entry with lastUsedMs := now, idleTimer := false }

def scheduleIdle (entry : InferencePoolEntry) (now : Nat) : InferencePoolEntry :=
  let entry := entry.touch now
  if !entry.idle || entry.closed then entry else { entry with idleTimer := true }

/-- `acquire` up to its suspension. -/
def acquire (limits : InferencePoolLimits) (entry : InferencePoolEntry) (call : CallId)
    (aborted : Bool) (now : Nat) : InferencePoolEntry × SlotResult :=
  if aborted then (entry, .failed .aborted)
  else if entry.closed then (entry, .failed .closed)
  else
    let entry := entry.touch now
    if entry.active < limits.connectionsPerEntry then
      ({ entry with active := entry.active + 1, leases := entry.leases ++ [call] }, .granted)
    else if entry.waiters.length ≥ limits.maxWaitersPerEntry then (entry, .failed .saturated)
    else ({ entry with waiters := entry.waiters ++ [call] }, .waiting)

/-- `onIdle` where the entry is idle. -/
def noteIdle (entry : InferencePoolEntry) (now : Nat) : InferencePoolEntry :=
  if entry.idle then entry.scheduleIdle now else entry

/-- The function that `releaseOnce` returns, with the waiter it hands the slot to. -/
def release (entry : InferencePoolEntry) (lease : CallId) (now : Nat) :
    InferencePoolEntry × Option CallId :=
  if lease ∈ entry.leases then
    let entry := { entry with lastUsedMs := now, leases := entry.leases.erase lease }
    match entry.waiters with
    | waiter :: waiters =>
      ({ entry with waiters, leases := entry.leases ++ [waiter] }, some waiter)
    | [] => (({ entry with active := entry.active - 1 } : InferencePoolEntry).noteIdle now, none)
  else (entry, none)

def removeWaiter (entry : InferencePoolEntry) (call : CallId) : InferencePoolEntry :=
  { entry with waiters := entry.waiters.erase call }

/-- `getDispatcher` up to its suspension; `init` is the number of the next
initialisation, should it start one. -/
def getDispatcher (entry : InferencePoolEntry) (init : InitId) :
    InferencePoolEntry × DispatcherResult :=
  if entry.closed then (entry, .failed .closed)
  else
    match entry.dispatcher with
    | some dispatcher => (entry, .ready dispatcher)
    | none =>
      match entry.dispatcherPromise with
      | some pending => (entry, .pending pending)
      | none => ({ entry with dispatcherPromise := some init }, .pending init)

/-- The initialisation has created its dispatcher. -/
def created (entry : InferencePoolEntry) (init : InitId) : InferencePoolEntry :=
  { entry with
    failedInitialization := false
    dispatcher := if entry.closed then entry.dispatcher else entry.dispatcher.or (some init) }

def createFailed (entry : InferencePoolEntry) : InferencePoolEntry :=
  { entry with failedInitialization := true }

/-- The `finally` of an initialisation. -/
def finished (entry : InferencePoolEntry) (init : InitId) (now : Nat) : InferencePoolEntry :=
  let promise := if entry.dispatcherPromise = some init then none else entry.dispatcherPromise
  ({ entry with dispatcherPromise := promise } : InferencePoolEntry).noteIdle now

/-- `closeDispatcher` once it knows the dispatcher there is to close. -/
def closeWith (entry : InferencePoolEntry) (dispatcher : Option InitId) : InferencePoolEntry :=
  let entry := { entry with closingDispatcherPromise := none, dispatcher := none }
  match dispatcher with
  | some dispatcher =>
    if entry.forceClosed then { entry with closePromise := .fulfilled }
    else
      { entry with
        closingDispatcher := some dispatcher
        closePromise := .dispatcher dispatcher }
  | none => { entry with closePromise := .fulfilled }

/-- `close` up to its suspension, with the waiters it rejects. -/
def close (entry : InferencePoolEntry) : InferencePoolEntry × List CallId :=
  if entry.closePromise ≠ .unset then (entry, [])
  else if entry.closed && entry.dispatcher.isNone && entry.dispatcherPromise.isNone then
    ({ entry with closePromise := .fulfilled }, [])
  else
    let closing : InferencePoolEntry := { entry with
      closed := true
      idleTimer := false
      waiters := []
      dispatcherPromise := none
      closingDispatcherPromise := entry.dispatcherPromise }
    match entry.dispatcher with
    | some dispatcher => (closing.closeWith (some dispatcher), entry.waiters)
    | none => ({ closing with closePromise := .pending entry.dispatcherPromise }, entry.waiters)

def dispatcherClosed (entry : InferencePoolEntry) (dispatcher : InitId) (closed : Bool) :
    InferencePoolEntry :=
  if closed then
    { entry with
      closingDispatcher :=
        if entry.closingDispatcher = some dispatcher then none else entry.closingDispatcher
      closePromise := .fulfilled }
  else { entry with closePromise := .rejected }

/-- `forceClose` up to its suspension, with the waiters it rejects. -/
def forceClose (entry : InferencePoolEntry) : InferencePoolEntry × List CallId :=
  ({ entry with
      forceClosed := true
      closed := true
      idleTimer := false
      waiters := []
      dispatcherPromise := none
      closingDispatcherPromise := none
      dispatcher := none
      closingDispatcher := none }, entry.waiters)

end InferencePoolEntry

end GhcGateway.Copilot
