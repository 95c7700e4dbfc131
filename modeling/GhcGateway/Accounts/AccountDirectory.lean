/-
# The account directory

`AccountDirectory` keeps the accounts in a database and their secrets in a
`CredentialStore`, with no transaction over both. `upsertAuthenticated` puts a new
generation of the secret before its transaction makes it the current one, `remove` takes
the account out of use before it deletes the secrets, and `reconcile` finishes removals
and prunes the store.

The calls work one at a time, in the lifecycle lane of `AccountCoordinator`: a call begins
here when the lane admits it. Between two accesses to a store its signal may be aborted,
and the process may crash. `FileCredentialStore` replaces its document by renaming a staged
one, so a call of it that fails leaves the document as it was, or has replaced it already;
an aborted signal it refuses at its start.
-/

import GhcGateway.Library.Generations
import GhcGateway.Library.OrderedMap
import GhcGateway.Library.Schedule
import GhcGateway.Accounts.DeviceFlowLife

namespace GhcGateway.Accounts

open Library

structure SecretCredential where
  generation : Nat
  githubToken : String
  copilotToken : Option String
  copilotExpiresAtMs : Option Nat
  deriving DecidableEq

inductive CredentialState
  | active
  | removing
  | removed
  deriving DecidableEq

inductive EnvironmentKind
  | githubCom
  | ghes
  deriving DecidableEq

/-- `AccountRow`, without its key. -/
structure AccountRow where
  revision : Nat
  host : String
  userId : String
  environmentKind : EnvironmentKind
  login : Option String
  displayName : Option String
  authenticatedAtMs : Option Nat
  credentialGeneration : Option Nat
  state : CredentialState
  deriving DecidableEq

def AccountRow.isActive (row : AccountRow) : Bool := row.state = .active

/-- The row of `gateway_preferences`. -/
structure GatewayPreferences where
  revision : Nat
  defaultAccountId : Option AccountId

/-- The input of `upsertAuthenticated`, its host and user resolved: the account id is
`formatAccountId` of the two. -/
structure Authentication where
  accountId : AccountId
  host : String
  userId : String
  environmentKind : EnvironmentKind
  login : Option String
  displayName : Option String
  secret : SecretCredential
  deriving DecidableEq

inductive DirectoryErrorCode
  | notFound
  | revisionConflict
  | capacity
  | noDefault
  deriving DecidableEq

structure AccountDirectoryError where
  code : DirectoryErrorCode
  message : String
  deriving DecidableEq

/-- A call of the directory; `cleanup` is `retryCleanup` of an
`AccountDirectoryPostCommitError`. -/
inductive DirectoryRequest
  | upsertAuthenticated (input : Authentication)
  | remove (accountId : AccountId) (expectedRevision : Nat)
  | reconcile
  | cleanup
  deriving DecidableEq

/-- How a call of the credential store ends: its document is written, or it throws before
the document is replaced, or after. -/
inductive StoreOutcome
  | written
  | failed
  | published
  deriving DecidableEq

/-- Why a call rejects: its signal, an error of the directory, an error of the credential
store at the put, at the prune that follows a failed transaction, or anywhere else; an
abort that comes after the put; an error of the database. -/
inductive Rejection
  | aborted
  | directory (error : AccountDirectoryError)
  | put (outcome : StoreOutcome)
  | abortedAfterPut
  | transaction
  | compensation
  | store
  | database
  deriving DecidableEq

/-- How a call ends. -/
inductive DirectoryOutcome
  | bound (row : AccountRow)
  | removed (row : AccountRow)
  | reconciled
  | cleaned
  | postCommit (accountId : AccountId)
  | rejected (reason : Rejection)
  deriving DecidableEq

/-- Where the call at work stands: before anything, after the put, after a failed
transaction, after the commit, with an account to delete the secrets of, with one whose
secrets are deleted, between two removals of `reconcile`. -/
inductive DirectoryStage
  | begun
  | stored (existing : Option AccountRow) (generation : Nat)
  | compensating
  | committed
  | removing (accountId : AccountId)
  | erased (accountId : AccountId)
  | sweeping
  deriving DecidableEq

abbrev Secrets := Generations AccountId SecretCredential

/-- The call at work, the secrets there were when it began, and the accounts that
`reconcile` has still to remove. -/
structure DirectoryWork where
  request : DirectoryRequest
  aborted : Bool
  before : Secrets
  stage : DirectoryStage
  rest : List (AccountId × Nat)

structure DirectoryEnd where
  request : DirectoryRequest
  outcome : DirectoryOutcome
  before : Secrets

/-- The two stores and the call at work; `ended` is the call that the last step ended. -/
structure AccountStores where
  accounts : OrderedMap AccountId AccountRow
  preferences : GatewayPreferences
  secrets : Secrets
  work : Option DirectoryWork
  ended : Option DirectoryEnd
  nowMs : Nat

namespace AccountStores

/-- The stores as the migrations make them. -/
def initial : AccountStores where
  accounts := .empty
  preferences := ⟨0, none⟩
  secrets := fun _ _ => none
  work := none
  ended := none
  nowMs := 0

variable (state : AccountStores) (work : DirectoryWork)

def activeCount : Nat := (state.accounts.values.filter AccountRow.isActive).length

def activeCredentialReferences (accountId : AccountId) : Option Nat :=
  match state.accounts.get accountId with
  | some row => if row.isActive then row.credentialGeneration else none
  | none => none

def setStage (stage : DirectoryStage) : AccountStores :=
  { state with work := some { work with stage } }

/-- The call at work ends. -/
def finish (outcome : DirectoryOutcome) : AccountStores :=
  { state with work := none, ended := some ⟨work.request, outcome, work.before⟩ }

def reject (reason : Rejection) : AccountStores := state.finish work (.rejected reason)

def putGeneration (accountId : AccountId) (generation : Nat) (value : SecretCredential) :
    AccountStores :=
  { state with secrets := state.secrets.put accountId generation value }

def removeAccount (accountId : AccountId) : AccountStores :=
  { state with secrets := state.secrets.remove accountId }

/-- `credentials.prune` of the active references. -/
def prune : AccountStores :=
  { state with secrets := state.secrets.prune state.activeCredentialReferences }

def bind (accountId : AccountId) : Except AccountDirectoryError AccountRow :=
  match state.accounts.get accountId with
  | none => .error ⟨.notFound, "account not found"⟩
  | some row =>
    if !row.isActive then .error ⟨.notFound, "account not found"⟩
    else if row.credentialGeneration = none then
      .error ⟨.noDefault, "account has no credential generation"⟩
    else .ok row

/-! ## `upsertAuthenticated` -/

/-- `existing?.credential_state` is the one given. -/
def inState (existing : Option AccountRow) (credentialState : CredentialState) : Bool :=
  existing.any fun row => row.state = credentialState

def nextGeneration (existing : Option AccountRow) : Nat :=
  (existing.bind AccountRow.credentialGeneration).getD 0 + 1

/-- `upsertAuthenticated` up to its put. -/
def upsertPut (maxAuthenticated : Nat) (input : Authentication) (outcome : StoreOutcome) :
    AccountStores :=
  let existing := state.accounts.get input.accountId
  if work.aborted then state.reject work .aborted
  else if inState existing .removing then
    state.reject work (.directory ⟨.revisionConflict, "account removal is in progress"⟩)
  else if !inState existing .active && decide (maxAuthenticated ≤ state.activeCount) then
    state.reject work (.directory ⟨.capacity, "authenticated account capacity reached"⟩)
  else
    let generation := nextGeneration existing
    let put := state.putGeneration input.accountId generation { input.secret with generation }
    match outcome with
    | .written => put.setStage work (.stored existing generation)
    | .failed => state.reject work (.put .failed)
    | .published => put.reject work (.put .published)

def authenticatedRow (input : Authentication) (existing : Option AccountRow)
    (generation nowMs : Nat) :
    AccountRow :=
  match existing with
  | none =>
    { revision := 1
      host := input.host
      userId := input.userId
      environmentKind := input.environmentKind
      login := input.login
      displayName := input.displayName
      authenticatedAtMs := some nowMs
      credentialGeneration := some generation
      state := .active }
  | some row =>
    { row with
      revision := row.revision + 1
      login := input.login <|> row.login
      displayName := input.displayName <|> row.displayName
      authenticatedAtMs := some nowMs
      credentialGeneration := some generation
      state := .active }

/-- An account becomes the default where there is none. -/
def adoptDefault (preferences : GatewayPreferences) (accountId : AccountId) : GatewayPreferences :=
  match preferences.defaultAccountId with
  | none => ⟨preferences.revision + 1, some accountId⟩
  | some _ => preferences

/-- The transaction of `upsertAuthenticated`. -/
def upsertRow (input : Authentication) (existing : Option AccountRow) (generation : Nat) :
    AccountStores :=
  { state with
    accounts := state.accounts.set input.accountId
      (authenticatedRow input existing generation state.nowMs)
    preferences := adoptDefault state.preferences input.accountId }

/-- `upsertAuthenticated` after its put. Where the signal has been aborted by now, the prune
that is to take the secret back is given that signal and refuses it. -/
def upsertTransact (input : Authentication) (existing : Option AccountRow) (generation : Nat)
    (succeeds : Bool) : AccountStores :=
  if work.aborted then state.reject work .abortedAfterPut
  else if succeeds then (state.upsertRow input existing generation).setStage work .committed
  else state.setStage work .compensating

/-- The prune after a transaction that has failed. -/
def upsertCompensate (outcome : StoreOutcome) : AccountStores :=
  if work.aborted then state.reject work .compensation
  else
    match outcome with
    | .written => state.prune.reject work .transaction
    | .failed => state.reject work .compensation
    | .published => state.prune.reject work .compensation

def upsertPrune (accountId : AccountId) (outcome : StoreOutcome) : AccountStores :=
  if work.aborted then state.finish work (.postCommit accountId)
  else
    match outcome with
    | .written =>
      match state.prune.bind accountId with
      | .ok row => state.prune.finish work (.bound row)
      | .error error => state.prune.reject work (.directory error)
    | .failed => state.finish work (.postCommit accountId)
    | .published => state.prune.finish work (.postCommit accountId)

/-! ## `remove` and `reconcile` -/

/-- A removal is over: of `remove`, or one of those of `reconcile`. -/
def endRemoval (row : AccountRow) : AccountStores :=
  match work.request with
  | .reconcile => state.setStage work .sweeping
  | _ => state.finish work (.removed row)

/-- The transaction that takes an account out of use. -/
def retireRow (accountId : AccountId) (row : AccountRow) : AccountStores :=
  { state with
    accounts := state.accounts.set accountId
      { row with state := .removing, revision := row.revision + 1 }
    preferences :=
      ⟨state.preferences.revision + 1,
        if state.preferences.defaultAccountId = some accountId then none
        else state.preferences.defaultAccountId⟩ }

/-- `removeUnlocked` up to its call of the credential store. -/
def removeUnlocked (accountId : AccountId) (expectedRevision : Nat) (succeeds : Bool) :
    AccountStores :=
  if work.aborted then state.reject work .aborted
  else
    match state.accounts.get accountId with
    | none => state.reject work (.directory ⟨.notFound, "account not found"⟩)
    | some row =>
      if row.revision ≠ expectedRevision then
        state.reject work (.directory ⟨.revisionConflict, "account revision conflict"⟩)
      else
        match row.state with
        | .removed => state.endRemoval work row
        | .removing => state.setStage work (.removing accountId)
        | .active =>
          if succeeds then (state.retireRow accountId row).setStage work (.removing accountId)
          else state.reject work .database

/-- `removeUnlocked` deletes the secrets. -/
def eraseSecrets (accountId : AccountId) (outcome : StoreOutcome) : AccountStores :=
  match outcome with
  | .written => (state.removeAccount accountId).setStage work (.erased accountId)
  | .failed => state.reject work .store
  | .published => (state.removeAccount accountId).reject work .store

/-- `removeUnlocked` after the secrets are deleted. -/
def markRemoved (accountId : AccountId) (succeeds : Bool) : AccountStores :=
  if work.aborted then state.reject work .aborted
  else if !succeeds then state.reject work .database
  else
    match state.accounts.get accountId with
    | none => state.reject work (.directory ⟨.notFound, "account not found"⟩)
    | some row =>
      let removed := { row with state := .removed, revision := row.revision + 1 }
      { state with accounts := state.accounts.set accountId removed }.endRemoval work removed

/-- The accounts that `reconcile` removes, with their revisions. -/
def removingRows : List (AccountId × Nat) :=
  (state.accounts.entries.filter fun entry => entry.2.state = .removing).map fun entry =>
    (entry.1, entry.2.revision)

/-- The prune of `reconcile` and of a cleanup. -/
def prunePlainly (outcome : StoreOutcome) (done : DirectoryOutcome) : AccountStores :=
  if work.aborted then state.reject work .aborted
  else
    match outcome with
    | .written => state.prune.finish work done
    | .failed => state.reject work .store
    | .published => state.prune.reject work .store

/-! ## The steps -/

/-- A call is admitted. `reconcile` takes no signal. -/
def call (request : DirectoryRequest) (aborted : Bool) : Option AccountStores :=
  match state.work, request with
  | some _, _ => none
  | none, .reconcile =>
    some { state with
      work := some ⟨request, false, state.secrets, .sweeping, state.removingRows⟩ }
  | none, _ => some { state with work := some ⟨request, aborted, state.secrets, .begun, []⟩ }

/-- The signal of the call at work is aborted. -/
def abort : Option AccountStores :=
  match state.work with
  | some work =>
    if work.request = .reconcile then none
    else some { state with work := some { work with aborted := true } }
  | none => none

/-- The call at work goes on to its next access to the credential store. -/
def store (maxAuthenticated : Nat) (outcome : StoreOutcome) : Option AccountStores :=
  match state.work with
  | none => none
  | some work =>
    match work.request, work.stage with
    | .upsertAuthenticated input, .begun =>
      some (state.upsertPut work maxAuthenticated input outcome)
    | .upsertAuthenticated _, .compensating => some (state.upsertCompensate work outcome)
    | .upsertAuthenticated input, .committed =>
      some (state.upsertPrune work input.accountId outcome)
    | .cleanup, .begun => some (state.prunePlainly work outcome .cleaned)
    | _, .removing accountId => some (state.eraseSecrets work accountId outcome)
    | .reconcile, .sweeping =>
      if work.rest = [] then some (state.prunePlainly work outcome .reconciled) else none
    | _, _ => none

/-- The call at work goes on to its next transaction. -/
def transact (succeeds : Bool) : Option AccountStores :=
  match state.work with
  | none => none
  | some work =>
    match work.request, work.stage with
    | .upsertAuthenticated input, .stored existing generation =>
      some (state.upsertTransact work input existing generation succeeds)
    | .remove accountId expectedRevision, .begun =>
      some (state.removeUnlocked work accountId expectedRevision succeeds)
    | _, .erased accountId => some (state.markRemoved work accountId succeeds)
    | .reconcile, .sweeping =>
      match work.rest with
      | [] => none
      | (accountId, revision) :: rest =>
        some (state.removeUnlocked { work with rest } accountId revision succeeds)
    | _, _ => none

end AccountStores

/-- A step: a call is admitted, its signal is aborted, it goes on, the process crashes and
starts again, time goes by. -/
inductive AccountStep
  | call (request : DirectoryRequest) (aborted : Bool)
  | abort
  | store (outcome : StoreOutcome)
  | transact (succeeds : Bool)
  | crash
  | tick (ms : Nat)

def AccountStores.step (maxAuthenticated : Nat) (state : AccountStores) :
    AccountStep → Option AccountStores
  | .call request aborted => { state with ended := none }.call request aborted
  | .abort => { state with ended := none }.abort
  | .store outcome => { state with ended := none }.store maxAuthenticated outcome
  | .transact succeeds => { state with ended := none }.transact succeeds
  | .crash => some { state with ended := none, work := none }
  | .tick ms => some { state with ended := none, nowMs := state.nowMs + ms }

/-- The bound on active accounts that the constructor makes of its argument. -/
def clampMaxAuthenticated (maxAuthenticated : Nat) : Nat := min (max maxAuthenticated 1) 32

/-- The directory over its two stores. -/
def accountStores (maxAuthenticated : Nat) : Concurrent AccountStores AccountStep :=
  ⟨AccountStores.step (clampMaxAuthenticated maxAuthenticated)⟩

end GhcGateway.Accounts
