/-
# The inference pool registry

`BoundedInferencePoolRegistry` keeps one entry for each connection profile in use,
at most `maxEntries` of them, and makes room by draining an idle one. A call of
`acquire` selects an entry, takes a slot in it and waits for its dispatcher, and
suspends between any two of these. The stage of each call says which continuation
of it is due; a move runs one of them, or settles something a call waits for. What
a timer does is a move that may happen at any time; so is the abort of the signal
of a call.

Entries, calls and initialisations are numbered as they are made and are never
forgotten, so that an entry that has left the registry can still be spoken of.
-/

import GhcGateway.Copilot.InferencePoolEntry
import GhcGateway.Library.OrderedMap
import GhcGateway.Library.Schedule
import GhcGateway.Serialization.Text
import Mathlib.Data.List.MinMax

namespace GhcGateway.Copilot

open Library

structure InferenceConnectionProfile where
  origin : JsString
  connectTimeoutMs : Nat

def profileKey (profile : InferenceConnectionProfile) : JsString :=
  profile.origin ++ js "\n" ++ js (toString profile.connectTimeoutMs)

/-- An entry, by its place in the order of creation. -/
abbrev EntryId := Nat

/-- Where a call of `acquire` stands: which continuation of it is due, or what it
waits for. -/
inductive CallStage
  | unborn
  | selected (entry : EntryId)
  | evicting (entry : EntryId)
  | evicted (completed : Bool)
  | waiting (entry : EntryId)
  | granted (entry : EntryId)
  | initializing (entry : EntryId) (init : InitId)
  | failing (entry : EntryId) (error : PoolError)
  | leased (entry : EntryId) (dispatcher : InitId)
  | failed (error : PoolError)
  deriving DecidableEq

/-- A call of `acquire`, with the state of its signal. -/
structure PoolCall where
  profile : InferenceConnectionProfile
  aborted : Bool
  stage : CallStage

/-- An initialisation: the factory at work, its outcome noted by the entry, and the
promise that callers wait for settled with it. -/
inductive InitStage
  | unborn
  | creating (entry : EntryId)
  | noted (entry : EntryId) (outcome : Except Nat InitId)
  | settled (entry : EntryId) (outcome : Except Nat InitId)

/-- `beginDraining` of an entry: not called, waiting for the entry to close (for a
call, or for nobody), waiting for what is forced to close, done. -/
inductive DrainStage
  | unset
  | grace (owner : Option CallId)
  | forced
  | done

/-- `BoundedInferencePoolRegistry` with its entries, calls and initialisations. -/
structure InferencePool where
  entries : OrderedMap JsString EntryId
  draining : List EntryId
  closed : Bool
  pool : EntryId → InferencePoolEntry
  profiles : EntryId → InferenceConnectionProfile
  drains : EntryId → DrainStage
  calls : CallId → PoolCall
  inits : InitId → InitStage
  nextEntry : EntryId
  nextCall : CallId
  nextInit : InitId
  clock : Nat

namespace InferencePool

def initial : InferencePool where
  entries := .empty
  draining := []
  closed := false
  pool := fun _ => .new 0
  profiles := fun _ => ⟨[], 0⟩
  drains := fun _ => .unset
  calls := fun _ => ⟨⟨[], 0⟩, false, .unborn⟩
  inits := fun _ => .unborn
  nextEntry := 0
  nextCall := 0
  nextInit := 0
  clock := 0

def setEntry (state : InferencePool) (id : EntryId) (entry : InferencePoolEntry) : InferencePool :=
  { state with pool := Function.update state.pool id entry }

def setStage (state : InferencePool) (call : CallId) (stage : CallStage) : InferencePool :=
  { state with calls := Function.update state.calls call { state.calls call with stage } }

def rejectAll (state : InferencePool) (waiters : List CallId) (error : PoolError) :
    InferencePool :=
  waiters.foldl (fun state waiter => state.setStage waiter (.failed error)) state

/-- The waiter a released slot was handed to, if any. -/
def grantTo (state : InferencePool) (id : EntryId) (waiter : Option CallId) : InferencePool :=
  match waiter with
  | some waiter => state.setStage waiter (.granted id)
  | none => state

def closeEntry (state : InferencePool) (id : EntryId) : InferencePool :=
  let (entry, waiters) := (state.pool id).close
  (state.setEntry id entry).rejectAll waiters .closed

def forceCloseEntry (state : InferencePool) (id : EntryId) : InferencePool :=
  let (entry, waiters) := (state.pool id).forceClose
  (state.setEntry id entry).rejectAll waiters .closed

/-- `beginDraining` up to its suspension. -/
def beginDraining (state : InferencePool) (id : EntryId) (owner : Option CallId) : InferencePool :=
  { state with
    draining := state.draining ++ [id]
    drains := Function.update state.drains id (.grace owner) }.closeEntry id

/-- `beginDraining` answers the call that waits for it. -/
def answerDrain (state : InferencePool) (owner : Option CallId) (completed : Bool) :
    InferencePool :=
  match owner with
  | some call => state.setStage call (.evicted completed)
  | none => state

/-- The rest of `beginDraining` where the entry did not close in time. -/
def forceDraining (state : InferencePool) (id : EntryId) (owner : Option CallId) :
    InferencePool :=
  { state.forceCloseEntry id with drains := Function.update state.drains id .forced }.answerDrain
    owner false

/-- The idle entry that was used the longest time ago. -/
def idlest (state : InferencePool) : Option EntryId :=
  (state.entries.values.filter fun id => (state.pool id).idle).argmin
    fun id => (state.pool id).lastUsedMs

/-- One turn of the loop of `entryFor`. -/
def entryFor (limits : InferencePoolLimits) (state : InferencePool) (call : CallId) :
    InferencePool :=
  let request := state.calls call
  let key := profileKey request.profile
  if request.aborted then state.setStage call (.failed .aborted)
  else if state.closed then state.setStage call (.failed .closed)
  else
    match state.entries.get key with
    | some id =>
      (state.setEntry id ((state.pool id).touch state.clock)).setStage call (.selected id)
    | none =>
      if state.entries.entries.length + state.draining.length < limits.maxEntries then
        { state with
          entries := state.entries.set key state.nextEntry
          pool := Function.update state.pool state.nextEntry (.new state.clock)
          profiles := Function.update state.profiles state.nextEntry request.profile
          nextEntry := state.nextEntry + 1 }.setStage call (.selected state.nextEntry)
      else
        match state.idlest with
        | none => state.setStage call (.failed .saturated)
        | some id =>
          ({ state with
            entries := state.entries.erase (profileKey (state.profiles id)) }.beginDraining id
              (some call)).setStage call (.evicting id)

/-- `acquire` up to its first suspension. -/
def acquire (limits : InferencePoolLimits) (state : InferencePool)
    (profile : InferenceConnectionProfile) (aborted : Bool) : InferencePool :=
  let call := state.nextCall
  let state := { state with
    calls := Function.update state.calls call ⟨profile, aborted, .unborn⟩
    nextCall := call + 1 }
  if state.closed then state.setStage call (.failed .closed) else state.entryFor limits call

/-- The call goes on to `entry.acquire`. -/
def takeSlot (limits : InferencePoolLimits) (state : InferencePool) (call : CallId) (id : EntryId) :
    InferencePool :=
  let (entry, result) :=
    (state.pool id).acquire limits call (state.calls call).aborted state.clock
  (state.setEntry id entry).setStage call <|
    match result with
    | .failed error => .failed error
    | .granted => .granted id
    | .waiting => .waiting id

/-- The call goes on to `entry.getDispatcher`; a signal that is aborted by now ends
the wait for a dispatcher at once. -/
def useDispatcher (state : InferencePool) (call : CallId) (id : EntryId) : InferencePool :=
  let (entry, result) := (state.pool id).getDispatcher state.nextInit
  match result with
  | .failed error => (state.setEntry id entry).setStage call (.failing id error)
  | .ready dispatcher => (state.setEntry id entry).setStage call (.leased id dispatcher)
  | .pending init =>
    let stage := if (state.calls call).aborted then .failing id .aborted else .initializing id init
    if init = state.nextInit then
      ({ state with
        inits := Function.update state.inits init (.creating id)
        nextInit := init + 1 }.setEntry id entry).setStage call stage
    else (state.setEntry id entry).setStage call stage

/-- The call has its dispatcher, or learns why there is none. -/
def receiveDispatcher (state : InferencePool) (call : CallId) (id : EntryId) (init : InitId) :
    Option InferencePool :=
  match state.inits init with
  | .settled _ (.ok dispatcher) =>
    some (state.setStage call
      (if (state.pool id).closed then .failing id .closed else .leased id dispatcher))
  | .settled _ (.error error) => some (state.setStage call (.failing id (.factory error)))
  | _ => none

/-- The `catch` of `acquire`: the slot is released, and an entry whose
initialisation failed is dropped. -/
def cleanUp (state : InferencePool) (call : CallId) (id : EntryId) (error : PoolError) :
    InferencePool :=
  let key := profileKey (state.calls call).profile
  let state := state.setStage call (.failed error)
  let (entry, waiter) := (state.pool id).release call state.clock
  let state := (state.setEntry id entry).grantTo id waiter
  if entry.failedInitialization && state.entries.get key = some id then
    { state with entries := state.entries.erase key }
  else state

def resume (limits : InferencePoolLimits) (state : InferencePool) (call : CallId) :
    Option InferencePool :=
  match (state.calls call).stage with
  | .selected id => some (state.takeSlot limits call id)
  | .evicted true => some (state.entryFor limits call)
  | .evicted false => some (state.setStage call (.failed .acquireTimeout))
  | .granted id => some (state.useDispatcher call id)
  | .initializing id init => state.receiveDispatcher call id init
  | .failing id error => some (state.cleanUp call id error)
  | _ => none

def release (state : InferencePool) (call : CallId) : Option InferencePool :=
  match (state.calls call).stage with
  | .leased id _ =>
    let (entry, waiter) := (state.pool id).release call state.clock
    some ((state.setEntry id entry).grantTo id waiter)
  | _ => none

/-- A waiter gives up. -/
def leaveQueue (state : InferencePool) (call : CallId) (id : EntryId) (error : PoolError) :
    InferencePool :=
  (state.setEntry id ((state.pool id).removeWaiter call)).setStage call (.failed error)

def abort (state : InferencePool) (call : CallId) : InferencePool :=
  let state := { state with
    calls := Function.update state.calls call { state.calls call with aborted := true } }
  match (state.calls call).stage with
  | .waiting id => state.leaveQueue call id .aborted
  | .initializing id _ => state.setStage call (.failing id .aborted)
  | _ => state

/-- The time a call may wait for its slot, or for its dispatcher, is over. -/
def timeout (state : InferencePool) (call : CallId) : Option InferencePool :=
  match (state.calls call).stage with
  | .waiting id => some (state.leaveQueue call id .acquireTimeout)
  | .initializing id _ => some (state.setStage call (.failing id .acquireTimeout))
  | _ => none

/-- The dispatcher factory ends. -/
def noteInit (state : InferencePool) (init : InitId) (outcome : Except Nat Unit) :
    Option InferencePool :=
  match state.inits init, outcome with
  | .creating id, .ok () =>
    let entry := (state.pool id).created init
    some { state.setEntry id entry with
      inits := Function.update state.inits init (.noted id (.ok (entry.dispatcher.getD init))) }
  | .creating id, .error error =>
    some { state.setEntry id (state.pool id).createFailed with
      inits := Function.update state.inits init (.noted id (.error error)) }
  | _, _ => none

/-- The `finally` of an initialisation. -/
def settleInit (state : InferencePool) (init : InitId) : Option InferencePool :=
  match state.inits init with
  | .noted id outcome =>
    some { state.setEntry id ((state.pool id).finished init state.clock) with
      inits := Function.update state.inits init (.settled id outcome) }
  | _ => none

/-- `closeDispatcher` goes on after its wait for an initialisation. -/
def continueClose (state : InferencePool) (id : EntryId) : Option InferencePool :=
  match (state.pool id).closePromise with
  | .pending none => some (state.setEntry id ((state.pool id).closeWith none))
  | .pending (some init) =>
    match state.inits init with
    | .settled _ (.ok dispatcher) =>
      some (state.setEntry id ((state.pool id).closeWith (some dispatcher)))
    | .settled _ (.error _) => some (state.setEntry id ((state.pool id).closeWith none))
    | _ => none
  | _ => none

/-- `dispatcher.close()` settles. -/
def dispatcherClosed (state : InferencePool) (id : EntryId) (closed : Bool) :
    Option InferencePool :=
  match (state.pool id).closePromise with
  | .dispatcher dispatcher =>
    some (state.setEntry id ((state.pool id).dispatcherClosed dispatcher closed))
  | _ => none

/-- `beginDraining` goes on: the entry has closed. -/
def finishDrain (state : InferencePool) (id : EntryId) : Option InferencePool :=
  match state.drains id, (state.pool id).closePromise with
  | .grace owner, .fulfilled =>
    some ({ state with
      draining := state.draining.erase id
      drains := Function.update state.drains id .done }.answerDrain owner true)
  | .grace owner, .rejected => some (state.forceDraining id owner)
  | _, _ => none

/-- `beginDraining` goes on: its grace is over. -/
def timeoutDrain (state : InferencePool) (id : EntryId) : Option InferencePool :=
  match state.drains id with
  | .grace owner => some (state.forceDraining id owner)
  | _ => none

/-- What was forced to close has settled. -/
def endDrain (state : InferencePool) (id : EntryId) : Option InferencePool :=
  match state.drains id with
  | .forced =>
    some { state with
      draining := state.draining.erase id
      drains := Function.update state.drains id .done }
  | _ => none

def idleTimeout (state : InferencePool) (id : EntryId) : Option InferencePool :=
  if (state.pool id).idleTimer then
    let state := state.setEntry id { state.pool id with idleTimer := false }
    let key := profileKey (state.profiles id)
    if state.closed || state.entries.get key ≠ some id || !(state.pool id).idle then some state
    else some ({ state with entries := state.entries.erase key }.beginDraining id none)
  else none

/-- `close` up to its suspension. -/
def close (state : InferencePool) : InferencePool :=
  let all := state.entries.values ++ state.draining
  all.foldl closeEntry { state with closed := true, entries := .empty, draining := all }

def forceClose (state : InferencePool) : InferencePool :=
  let all := state.entries.values ++ state.draining
  all.foldl forceCloseEntry { state with closed := true, entries := .empty, draining := [] }

end InferencePool

inductive PoolStep
  | acquire (profile : InferenceConnectionProfile) (aborted : Bool)
  | resume (call : CallId)
  | release (call : CallId)
  | abort (call : CallId)
  | timeout (call : CallId)
  | noteInit (init : InitId) (outcome : Except Nat Unit)
  | settleInit (init : InitId)
  | continueClose (entry : EntryId)
  | dispatcherClosed (entry : EntryId) (closed : Bool)
  | finishDrain (entry : EntryId)
  | timeoutDrain (entry : EntryId)
  | endDrain (entry : EntryId)
  | idleTimeout (entry : EntryId)
  | tick (ms : Nat)
  | close
  | forceClose

def inferencePool (limits : InferencePoolLimits) : Concurrent InferencePool PoolStep where
  step state
    | .acquire profile aborted => some (state.acquire limits profile aborted)
    | .resume call => state.resume limits call
    | .release call => state.release call
    | .abort call => some (state.abort call)
    | .timeout call => state.timeout call
    | .noteInit init outcome => state.noteInit init outcome
    | .settleInit init => state.settleInit init
    | .continueClose id => state.continueClose id
    | .dispatcherClosed id closed => state.dispatcherClosed id closed
    | .finishDrain id => state.finishDrain id
    | .timeoutDrain id => state.timeoutDrain id
    | .endDrain id => state.endDrain id
    | .idleTimeout id => state.idleTimeout id
    | .tick ms => some { state with clock := state.clock + ms }
    | .close => some state.close
    | .forceClose => some state.forceClose

end GhcGateway.Copilot
