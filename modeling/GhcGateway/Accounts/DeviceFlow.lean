/-
# Device flows

`DeviceFlowService` logs accounts in by the device flow of GitHub: `start` asks for a
code, `poll` asks whether the user has entered it and commits the account, `cancel`
gives the flow up. Each of them suspends wherever it awaits a call of the OAuth
client or of the account directory, and another call may run there; so may a timer,
the abort of a signal, and the end of the service.

A poll in flight is known by its flow, of which it is the only one: `pollingFlows` and
`settlements` are set and cleared together, and stand here as one map. The objects of
pending flows are never forgotten, since a poll still reads the one it has begun with
after it has left the map. A timer may fire at any time while it is set.
-/

import GhcGateway.Accounts.DeviceFlowLife
import GhcGateway.Library.OrderedMap
import GhcGateway.Library.Schedule

namespace GhcGateway.Accounts

open Library

def maxDeviceFlows : Nat := 8

def deviceFlowTtlMs : Nat := 15 * 60 * 1000

def deviceFlowTerminalTtlMs : Nat := 60_000

/-- A `flowId`, by its place among those made. -/
abbrev FlowId := Nat

/-- A call of `start`. -/
abbrev StartId := Nat

/-- `GitHubEnvironment`, by its host. -/
abbrev GitHubEnvironment := String

/-- What `requestDeviceCode` answers. -/
structure DeviceCode where
  deviceCode : String
  userCode : String
  verificationUri : String
  intervalSec : Nat
  expiresInSec : Nat

/-- A user as the OAuth client describes it. -/
structure GitHubUser where
  id : String
  login : String
  name : Option String
  deriving DecidableEq

/-- What `exchangeDeviceCode` answers. -/
inductive ExchangeResult
  | pending
  | slowDown (pollIntervalSeconds : Option Nat)
  | expired
  | denied
  | failed
  | complete (accessToken : String) (user : GitHubUser)
  | authorized (accessToken : String)
  deriving DecidableEq

/-- An error of the OAuth client: one that `isPermanentOAuthError` recognises, or not. -/
inductive OAuthFailure
  | permanent
  | other
  deriving DecidableEq

/-- How `upsertAuthenticated` ends: with the account, with an
`AccountDirectoryPostCommitError`, with an `AccountDirectoryError`, with another one. -/
inductive UpsertOutcome
  | bound
  | postCommit
  | directory
  | other
  deriving DecidableEq

structure DeviceFlowSnapshot where
  flowId : FlowId
  userCode : String
  verificationUri : String
  expiresAtMs : Nat
  pollIntervalSeconds : Nat
  nextPollAtMs : Nat

/-- How `start` fails: closed, aborted, at its capacity, for a host that is none, with the
error of the OAuth client. -/
inductive StartFailure
  | closed
  | aborted
  | capacity
  | environment
  | remote
  deriving DecidableEq

/-- `authorized` of a pending flow. -/
structure Authorized where
  accessToken : String
  user : Option GitHubUser

/-- The timer of a pending flow: the one `start` sets, or the one
`extendAuthorizedSettlement` sets in its place. -/
inductive ExpiryTimer
  | initial
  | extended

/-- `PendingFlow`, with the state of its two signals. -/
structure PendingFlow where
  environment : GitHubEnvironment
  deviceCode : String
  userCode : String
  verificationUri : String
  expiresAtMs : Nat
  pollIntervalSeconds : Nat
  nextPollAtMs : Nat
  authorized : Option Authorized
  cancellationAborted : Bool
  settlementAborted : Bool
  expiryTimer : Option ExpiryTimer

/-- `DeviceFlowState` as the map of flows holds it; the object of a pending flow is kept
elsewhere. The timer of a terminal flow is set for as long as the flow is in the map. -/
inductive Flow
  | pending
  | terminal (status : FlowStatus) (expiresAtMs : Nat)
  deriving DecidableEq

def Flow.isPending : Flow → Bool
  | .pending => true
  | .terminal _ _ => false

/-- A call that `waitForAuthorizedRetry` makes again. -/
inductive AuthorizedCall
  | fetchUser
  | upsert

/-- What a poll in flight awaits: the exchange, the user, a retry, the directory before it
has committed and after, the cleanup after a failed one. -/
inductive PollStage
  | exchanging
  | fetching
  | waiting (call : AuthorizedCall)
  | committing
  | committed (account : AccountId)
  | cleaning (account : AccountId) (attempt : Nat)

def PollStage.account : PollStage → Option AccountId
  | .committed account => some account
  | .cleaning account _ => some account
  | _ => none

/-- A poll in flight, with the state of the signal of its caller. -/
structure Poll where
  startedAtMs : Nat
  aborted : Bool
  stage : PollStage

/-- A cancel that awaits the settlement of a poll, and its result once there is one. -/
structure Cancel where
  flow : FlowId
  result : Option SettlementResult

/-- A call of `start` that awaits its code. -/
structure Starting where
  environment : GitHubEnvironment
  aborted : Bool

/-- `DeviceFlowService`, with the objects it holds and what its calls have answered. -/
structure DeviceFlowService where
  flows : OrderedMap FlowId Flow
  pendings : FlowId → PendingFlow
  polls : OrderedMap FlowId Poll
  cancels : OrderedMap CancelId Cancel
  starts : OrderedMap StartId Starting
  startingFlows : Nat
  closed : Bool
  closing : Bool
  forceClosed : Bool
  nextFlow : FlowId
  nextCancel : CancelId
  nextStart : StartId
  nowMs : Nat
  started : List (StartId × Except StartFailure DeviceFlowSnapshot)
  log : List (FlowId × FlowEvent)

namespace DeviceFlowService

def initial : DeviceFlowService where
  flows := .empty
  pendings := fun _ => ⟨"", "", "", "", 0, 0, 0, none, false, false, none⟩
  polls := .empty
  cancels := .empty
  starts := .empty
  startingFlows := 0
  closed := false
  closing := false
  forceClosed := false
  nextFlow := 0
  nextCancel := 0
  nextStart := 0
  nowMs := 0
  started := []
  log := []

variable (state : DeviceFlowService)

def note (id : FlowId) (event : FlowEvent) : DeviceFlowService :=
  { state with log := state.log ++ [(id, event)] }

def answer (id : FlowId) (answer : FlowAnswer) : DeviceFlowService :=
  state.note id (.answered answer)

def change (id : FlowId) (flow : PendingFlow) : DeviceFlowService :=
  { state with pendings := Function.update state.pendings id flow }

/-- `cancellation.abort()` and `settlement.abort()`. -/
def abortFlow (id : FlowId) : DeviceFlowService :=
  state.change id
    { state.pendings id with cancellationAborted := true, settlementAborted := true }

def abortCancellation (id : FlowId) : DeviceFlowService :=
  state.change id { state.pendings id with cancellationAborted := true }

def clearTimer (id : FlowId) : DeviceFlowService :=
  state.change id { state.pendings id with expiryTimer := none }

/-- `removeFlow` of the flow that the map holds. -/
def removeFlow (id : FlowId) : DeviceFlowService :=
  let removed := { state with flows := state.flows.erase id }
  if state.flows.get id = some .pending then (removed.clearTimer id).abortFlow id else removed

/-- The entries of flows that have ended, oldest first. -/
def terminals : List (FlowId × Flow) := state.flows.entries.filter fun entry => !entry.2.isPending

/-- `rememberTerminal` makes room by evicting the oldest. -/
def evictTerminal : DeviceFlowService :=
  match state.terminals with
  | [] => state
  | (oldest, _) :: rest =>
    if rest.length + 1 ≥ maxDeviceFlows then (state.removeFlow oldest).note oldest .dropped
    else state

def rememberTerminal (id : FlowId) (status : FlowStatus) : DeviceFlowService :=
  if state.closed then state
  else
    let room := (state.removeFlow id).evictTerminal
    { room with
      flows := room.flows.set id (.terminal status (room.nowMs + deviceFlowTerminalTtlMs)) }

/-! ## `start` -/

/-- One turn of the loop of `gc`. -/
def gcFlow (id : FlowId) : DeviceFlowService :=
  match state.flows.get id with
  | none => state
  | some .pending =>
    if (state.pendings id).expiresAtMs ≤ state.nowMs then state.rememberTerminal id .expired
    else state
  | some (.terminal _ expiresAtMs) =>
    if expiresAtMs ≤ state.nowMs then (state.removeFlow id).note id .dropped else state

/-- `gc`. A flow that the loop itself has set again is not expired when the loop comes to
it, so it is enough to visit the keys there were. -/
def gc : DeviceFlowService := state.flows.keys.foldl gcFlow state

def activeFlowCount : Nat := (state.flows.values.filter Flow.isPending).length

/-- A call of `start` ends. -/
def endStart (start : StartId) (outcome : Except StartFailure DeviceFlowSnapshot) :
    DeviceFlowService :=
  { state with started := state.started ++ [(start, outcome)] }

/-- `start` up to its request. -/
def start (resolveGitHubEnvironment : String → Option GitHubEnvironment) (host : String)
    (aborted : Bool) : DeviceFlowService :=
  let start := state.nextStart
  let state := { state with nextStart := start + 1 }
  if state.closed then state.endStart start (.error .closed)
  else if aborted then state.endStart start (.error .aborted)
  else
    let state := state.gc
    if state.activeFlowCount + state.startingFlows ≥ maxDeviceFlows then
      state.endStart start (.error .capacity)
    else
      match resolveGitHubEnvironment host with
      | none => state.endStart start (.error .environment)
      | some environment =>
        { state with
          starts := state.starts.set start ⟨environment, false⟩
          startingFlows := state.startingFlows + 1 }

/-- The signal of a call of `start` is aborted, by its caller or by its timer. -/
def abortStart (start : StartId) : Option DeviceFlowService :=
  match state.starts.get start with
  | none => none
  | some starting =>
    some { state with starts := state.starts.set start { starting with aborted := true } }

def newFlow (environment : GitHubEnvironment) (requested : DeviceCode) (startedAtMs : Nat) :
    PendingFlow :=
  let pollIntervalSeconds := max 1 requested.intervalSec
  let expiresAtMs := startedAtMs + min (requested.expiresInSec * 1000) deviceFlowTtlMs
  { environment
    deviceCode := requested.deviceCode
    userCode := requested.userCode
    verificationUri := requested.verificationUri
    expiresAtMs
    pollIntervalSeconds
    nextPollAtMs := min expiresAtMs (startedAtMs + pollIntervalSeconds * 1000)
    authorized := none
    cancellationAborted := false
    settlementAborted := false
    expiryTimer := some .initial }

def snapshot (id : FlowId) (flow : PendingFlow) : DeviceFlowSnapshot where
  flowId := id
  userCode := flow.userCode
  verificationUri := flow.verificationUri
  expiresAtMs := flow.expiresAtMs
  pollIntervalSeconds := flow.pollIntervalSeconds
  nextPollAtMs := flow.nextPollAtMs

/-- The flow is put into the map. -/
def addFlow (flow : PendingFlow) : DeviceFlowService :=
  { state with
    flows := state.flows.set state.nextFlow .pending
    pendings := Function.update state.pendings state.nextFlow flow
    nextFlow := state.nextFlow + 1 }

/-- `start` goes on with the code it has got, or with the error of its request. -/
def requested (start : StartId) (code : Option DeviceCode) : Option DeviceFlowService :=
  match state.starts.get start with
  | none => none
  | some starting =>
    let state := { state with
      starts := state.starts.erase start
      startingFlows := state.startingFlows - 1 }
    match code with
    | none => some (state.endStart start (.error .remote))
    | some code =>
      if starting.aborted then some (state.endStart start (.error .aborted))
      else
        let flow := newFlow starting.environment code state.nowMs
        some ((state.addFlow flow).endStart start (.ok (snapshot state.nextFlow flow)))

/-! ## `poll` -/

/-- `pending` of a flow. -/
def pending (flow : PendingFlow) (nextPollAtMs : Nat) : FlowAnswer :=
  .pending flow.pollIntervalSeconds nextPollAtMs

def setPoll (id : FlowId) (poll : Poll) : DeviceFlowService :=
  { state with polls := state.polls.set id poll }

def setStage (id : FlowId) (stage : PollStage) : DeviceFlowService :=
  { state with polls := state.polls.modify id fun poll => { poll with stage } }

/-- `operationSignal.aborted` of a poll. -/
def operationAborted (id : FlowId) (poll : Poll) : Bool :=
  poll.aborted || (state.pendings id).cancellationAborted

/-- `settle`: the cancels that wait for the poll of a flow get its result. -/
def settle (id : FlowId) (result : SettlementResult) : DeviceFlowService :=
  { state with
    cancels := state.cancels.mapValues fun cancel =>
      if cancel.flow = id ∧ cancel.result = none then { cancel with result := some result }
      else cancel }

def endPoll (id : FlowId) (result : SettlementResult) (answers : List FlowAnswer) :
    DeviceFlowService :=
  let settled := state.settle id result
  { settled with
    polls := settled.polls.erase id
    log := settled.log ++ answers.map fun answer => (id, .answered answer) }

/-- What `settleOnce` is called with when a poll answers a status. -/
def settlementOf : FlowStatus → SettlementResult
  | .complete account => .complete account
  | _ => .canceled

/-- A poll remembers the status it answers. -/
def report (id : FlowId) (status : FlowStatus) : DeviceFlowService :=
  (state.rememberTerminal id status).endPoll id (settlementOf status) [.status status]

/-- The `catch` of `poll`, for an error that answers what the last argument says. -/
def catchError (id : FlowId) (poll : Poll) (failure : OAuthFailure) (answers : List FlowAnswer) :
    DeviceFlowService :=
  if failure = .permanent then state.report id .failed
  else if (state.pendings id).expiresAtMs ≤ state.nowMs ∧ state.operationAborted id poll then
    state.report id .expired
  else state.endPoll id .canceled answers

def extendAuthorizedSettlement (flow : PendingFlow) : PendingFlow :=
  { flow with
    expiresAtMs := flow.expiresAtMs + deviceFlowTerminalTtlMs
    expiryTimer := some .extended }

def authorize (flow : PendingFlow) (authorized : Authorized) : PendingFlow :=
  extendAuthorizedSettlement { flow with authorized := some authorized }

def nameUser (flow : PendingFlow) (user : GitHubUser) : PendingFlow :=
  { flow with authorized := flow.authorized.map fun authorized =>
      { authorized with user := some user } }

/-- When the flow may be polled again after an exchange that began at the time given. -/
def scheduleNext (flow : PendingFlow) (startedAtMs : Nat) : PendingFlow :=
  { flow with nextPollAtMs := min flow.expiresAtMs (startedAtMs + flow.pollIntervalSeconds * 1000) }

def slowDown (flow : PendingFlow) (startedAtMs : Nat) (pollIntervalSeconds : Option Nat) :
    PendingFlow :=
  scheduleNext
    { flow with
      pollIntervalSeconds := max (flow.pollIntervalSeconds + 5) (pollIntervalSeconds.getD 0) }
    startedAtMs

/-- `poll` comes to the directory. -/
def commitUser (id : FlowId) (poll : Poll) : DeviceFlowService :=
  if state.closed && (state.pendings id).settlementAborted then
    state.catchError id poll .other []
  else state.setStage id .committing

def waitForAuthorizedRetry (id : FlowId) (poll : Poll) (call : AuthorizedCall) :
    DeviceFlowService :=
  if (state.pendings id).settlementAborted || (state.pendings id).expiresAtMs ≤ state.nowMs then
    state.catchError id poll .other []
  else state.setStage id (.waiting call)

/-- Whether a poll of the flow would begin. -/
def ready (id : FlowId) : Bool :=
  state.flows.get id = some .pending && !state.polls.has id &&
    state.nowMs < (state.pendings id).expiresAtMs && (state.pendings id).nextPollAtMs ≤ state.nowMs

/-- `poll` of a flow that is ready, up to its first suspension. -/
def beginPoll (id : FlowId) (aborted : Bool) : DeviceFlowService :=
  let flow := state.pendings id
  let poll : Poll := ⟨state.nowMs, aborted, .exchanging⟩
  let begun := (state.change id (scheduleNext flow state.nowMs)).setPoll id poll
  match flow.authorized with
  | none => begun
  | some ⟨_, none⟩ => begun.setStage id .fetching
  | some ⟨_, some _⟩ => begun.commitUser id poll

/-- `poll` of a pending flow. -/
def pollPending (id : FlowId) (flow : PendingFlow) (aborted : Bool) : DeviceFlowService :=
  if flow.expiresAtMs ≤ state.nowMs then
    if state.polls.has id then state.answer id (pending flow (state.nowMs + 1000))
    else (state.rememberTerminal id .expired).answer id (.status .expired)
  else if state.polls.has id then
    state.answer id (pending flow
      (max flow.nextPollAtMs (state.nowMs + flow.pollIntervalSeconds * 1000)))
  else if flow.nextPollAtMs > state.nowMs then state.answer id (pending flow flow.nextPollAtMs)
  else state.beginPoll id aborted

/-- `poll`; where its signal is aborted, or the service is closed, it only throws. -/
def poll (id : FlowId) (aborted : Bool) : DeviceFlowService :=
  if state.closed || aborted then state
  else
    match state.flows.get id with
    | none => state.answer id .notFound
    | some (.terminal status expiresAtMs) =>
      if expiresAtMs ≤ state.nowMs then
        ((state.removeFlow id).note id .dropped).answer id .notFound
      else state.answer id (.status status)
    | some .pending => state.pollPending id (state.pendings id) aborted

/-- The signal of the caller of a poll in flight is aborted. -/
def abortPoll (id : FlowId) : Option DeviceFlowService :=
  match state.polls.get id with
  | none => none
  | some poll => some (state.setPoll id { poll with aborted := true })

/-- A poll ends with nothing new. -/
def postpone (id : FlowId) : DeviceFlowService :=
  let flow := state.pendings id
  state.endPoll id .canceled [pending flow flow.nextPollAtMs]

/-- `poll` goes on after an exchange that has not brought a token. -/
def unauthorized (id : FlowId) (poll : Poll) (result : ExchangeResult) : DeviceFlowService :=
  if state.operationAborted id poll then state.catchError id poll .other []
  else if state.flows.get id ≠ some .pending then state.catchError id poll .other [.notFound]
  else if (state.pendings id).expiresAtMs ≤ state.nowMs then state.report id .expired
  else
    match result with
    | .pending => state.postpone id
    | .slowDown seconds =>
      (state.change id (slowDown (state.pendings id) poll.startedAtMs seconds)).postpone id
    | .expired => state.report id .expired
    | .denied => state.report id .denied
    | _ => state.report id .failed

/-- `poll` goes on after the exchange. -/
def exchanged (id : FlowId) (outcome : Except OAuthFailure ExchangeResult) :
    Option DeviceFlowService :=
  match state.polls.get id with
  | some ⟨startedAtMs, aborted, .exchanging⟩ =>
    let poll : Poll := ⟨startedAtMs, aborted, .exchanging⟩
    let authorized := fun authorized => state.change id (authorize (state.pendings id) authorized)
    match outcome with
    | .error failure => some (state.catchError id poll failure [])
    | .ok (.authorized accessToken) =>
      some ((authorized ⟨accessToken, none⟩).setStage id .fetching)
    | .ok (.complete accessToken user) =>
      some ((authorized ⟨accessToken, some user⟩).commitUser id poll)
    | .ok result => some (state.unauthorized id poll result)
  | _ => none

/-- `fetchAuthorizedUser` goes on after `fetchUser`. -/
def fetched (id : FlowId) (outcome : Except OAuthFailure GitHubUser) : Option DeviceFlowService :=
  match state.polls.get id with
  | some ⟨startedAtMs, aborted, .fetching⟩ =>
    let poll : Poll := ⟨startedAtMs, aborted, .fetching⟩
    match outcome with
    | .ok user => some ((state.change id (nameUser (state.pendings id) user)).commitUser id poll)
    | .error .permanent => some (state.catchError id poll .permanent [])
    | .error .other => some (state.waitForAuthorizedRetry id poll .fetchUser)
  | _ => none

/-- The delay of `waitForAuthorizedRetry` ends. -/
def retry (id : FlowId) : Option DeviceFlowService :=
  match state.polls.get id with
  | some ⟨_, _, .waiting call⟩ =>
    if (state.pendings id).settlementAborted then none
    else
      match call with
      | .fetchUser => some (state.setStage id .fetching)
      | .upsert => some (state.setStage id .committing)
  | _ => none

def giveUp (id : FlowId) : Option DeviceFlowService :=
  match state.polls.get id with
  | some ⟨startedAtMs, aborted, .waiting call⟩ =>
    if (state.pendings id).settlementAborted then
      some (state.catchError id ⟨startedAtMs, aborted, .waiting call⟩ .other [])
    else none
  | _ => none

/-- The transaction of `upsertAuthenticated`, which looks at the signal before it. -/
def commit (id : FlowId) (account : AccountId) : Option DeviceFlowService :=
  match state.polls.get id with
  | some ⟨_, _, .committing⟩ =>
    if (state.pendings id).settlementAborted then none
    else some ((state.setStage id (.committed account)).note id (.committed account))
  | _ => none

/-- `poll` goes on after `upsertAuthenticated`. -/
def upserted (id : FlowId) (outcome : UpsertOutcome) : Option DeviceFlowService :=
  match state.polls.get id, outcome with
  | some ⟨startedAtMs, aborted, .committing⟩, .directory =>
    some (state.catchError id ⟨startedAtMs, aborted, .committing⟩ .other [])
  | some ⟨startedAtMs, aborted, .committing⟩, .other =>
    some (state.waitForAuthorizedRetry id ⟨startedAtMs, aborted, .committing⟩ .upsert)
  | some ⟨_, _, .committed account⟩, .bound => some (state.report id (.complete account))
  | some ⟨_, _, .committed account⟩, .postCommit => some (state.setStage id (.cleaning account 0))
  | _, _ => none

/-- An attempt of `retryPostCommitCleanup` ends; there are three. -/
def cleaned (id : FlowId) (succeeded : Bool) : Option DeviceFlowService :=
  match state.polls.get id with
  | some ⟨_, _, .cleaning account attempt⟩ =>
    if succeeded || attempt + 1 ≥ 3 then some (state.report id (.complete account))
    else some (state.setStage id (.cleaning account (attempt + 1)))
  | _ => none

/-! ## `cancel`, timers and the end of the service -/

/-- A cancel awaits the settlement of a poll. -/
def awaitSettlement (id : FlowId) : DeviceFlowService :=
  { state with
    cancels := state.cancels.set state.nextCancel ⟨id, none⟩
    nextCancel := state.nextCancel + 1 }

/-- `cancel` up to its suspension. -/
def cancel (id : FlowId) : DeviceFlowService :=
  match state.flows.get id with
  | none => state.answer id .notFound
  | some (.terminal (.complete account) _) => state.answer id (.status (.complete account))
  | some (.terminal _ _) => (state.removeFlow id).answer id .canceled
  | some .pending =>
    if state.polls.has id then (state.abortCancellation id).awaitSettlement id
    else (state.removeFlow id).answer id .canceled

/-- `cancel` goes on with the result of the poll. -/
def cancelEnds (cancel : CancelId) : Option DeviceFlowService :=
  match state.cancels.get cancel with
  | some ⟨id, some result⟩ =>
    let state := { state with cancels := state.cancels.erase cancel }
    let state :=
      if result = .canceled ∧ state.flows.get id = some .pending then state.removeFlow id else state
    some (state.answer id result.answer)
  | _ => none

/-- The timer of a pending flow fires. -/
def expire (id : FlowId) : Option DeviceFlowService :=
  match (state.pendings id).expiryTimer with
  | none => none
  | some .initial =>
    let state := state.clearTimer id
    if state.flows.get id = some .pending then
      let state := state.abortFlow id
      if state.polls.has id then some state else some (state.rememberTerminal id .expired)
    else some state
  | some .extended => some ((state.clearTimer id).abortFlow id)

/-- The timer of a terminal flow fires. -/
def forget (id : FlowId) : Option DeviceFlowService :=
  match state.flows.get id with
  | some (.terminal _ _) => some ((state.removeFlow id).note id .dropped)
  | _ => none

/-- One turn of the loop of `close`. -/
def closeFlow (id : FlowId) : DeviceFlowService :=
  if state.flows.get id = some .pending ∧ (state.pendings id).authorized ≠ none ∧
      state.polls.has id then
    (state.abortCancellation id).clearTimer id
  else state.removeFlow id

def removeAll : DeviceFlowService := state.flows.keys.foldl removeFlow state

/-- No call of `start` goes on, and no flow is made, polled or remembered any more. -/
def shut : DeviceFlowService :=
  { state with
    closed := true
    starts := state.starts.mapValues fun starting => { starting with aborted := true } }

/-- `close` up to its suspension. -/
def close : DeviceFlowService :=
  if state.closed then state
  else
    let state := { state.shut with closing := true }
    state.flows.keys.foldl closeFlow state

/-- `close` goes on when every poll has settled, or the service is closed by force. -/
def finishClose : Option DeviceFlowService :=
  if state.closing ∧ (state.polls.entries = [] ∨ state.forceClosed) then
    some { state.removeAll with closing := false }
  else none

def forceClose : DeviceFlowService :=
  if state.forceClosed then state else { state.shut with forceClosed := true }.removeAll

end DeviceFlowService

/-- One move of the service, of one of its calls, or of what they wait for. -/
inductive DeviceFlowStep
  | start (host : String) (aborted : Bool)
  | abortStart (start : StartId)
  | requested (start : StartId) (code : Option DeviceCode)
  | poll (flow : FlowId) (aborted : Bool)
  | abortPoll (flow : FlowId)
  | exchanged (flow : FlowId) (outcome : Except OAuthFailure ExchangeResult)
  | fetched (flow : FlowId) (outcome : Except OAuthFailure GitHubUser)
  | retry (flow : FlowId)
  | giveUp (flow : FlowId)
  | commit (flow : FlowId) (account : AccountId)
  | upserted (flow : FlowId) (outcome : UpsertOutcome)
  | cleaned (flow : FlowId) (succeeded : Bool)
  | cancel (flow : FlowId)
  | cancelEnds (cancel : CancelId)
  | expire (flow : FlowId)
  | forget (flow : FlowId)
  | close
  | finishClose
  | forceClose
  | tick (ms : Nat)

def DeviceFlowService.step (resolveGitHubEnvironment : String → Option GitHubEnvironment)
    (state : DeviceFlowService) : DeviceFlowStep → Option DeviceFlowService
  | .start host aborted => some (state.start resolveGitHubEnvironment host aborted)
  | .abortStart start => state.abortStart start
  | .requested start code => state.requested start code
  | .poll flow aborted => some (state.poll flow aborted)
  | .abortPoll flow => state.abortPoll flow
  | .exchanged flow outcome => state.exchanged flow outcome
  | .fetched flow outcome => state.fetched flow outcome
  | .retry flow => state.retry flow
  | .giveUp flow => state.giveUp flow
  | .commit flow account => state.commit flow account
  | .upserted flow outcome => state.upserted flow outcome
  | .cleaned flow succeeded => state.cleaned flow succeeded
  | .cancel flow => some (state.cancel flow)
  | .cancelEnds cancel => state.cancelEnds cancel
  | .expire flow => state.expire flow
  | .forget flow => state.forget flow
  | .close => some state.close
  | .finishClose => state.finishClose
  | .forceClose => some state.forceClose
  | .tick ms => some { state with nowMs := state.nowMs + ms }

/-- The service, its calls moving one at a time. -/
def deviceFlows (resolveGitHubEnvironment : String → Option GitHubEnvironment) :
    Concurrent DeviceFlowService DeviceFlowStep :=
  ⟨DeviceFlowService.step resolveGitHubEnvironment⟩

end GhcGateway.Accounts
