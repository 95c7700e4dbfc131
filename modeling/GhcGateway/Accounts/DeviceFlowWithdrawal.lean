/-
# Withdrawn device flows

Apart from the calls that make flows, a move only takes flows away: `Recedes` says so,
and that a flow that leaves the map takes its signal with it, which keeps a poll still
in flight from committing. What follows holds of every run: after a cancel has answered
that a flow is canceled nothing is committed by it, and there are at most
`maxDeviceFlows` pending flows.
-/

import GhcGateway.Accounts.DeviceFlow

namespace GhcGateway.Accounts.DeviceFlowService

open Library OrderedMap

variable {id : FlowId} {state middle : DeviceFlowService} {answers : List FlowAnswer}
  {event : FlowEvent}

def history (state : DeviceFlowService) (id : FlowId) : List FlowEvent :=
  state.log.filterMap fun entry => if entry.1 = id then some entry.2 else none

def Pending (state : DeviceFlowService) (id : FlowId) : Prop :=
  state.flows.get id = some .pending

def Aborted (state : DeviceFlowService) (id : FlowId) : Prop :=
  (state.pendings id).settlementAborted = true

def Known (state : DeviceFlowService) (id : FlowId) : Prop :=
  state.flows.get id ≠ none ∨ state.polls.has id = true ∨
    (∃ cancel ∈ state.cancels.values, cancel.flow = id) ∨
      (id, FlowEvent.answered .canceled) ∈ state.log

theorem Pending.known (pending : state.Pending id) : state.Known id := by
  left
  rw [pending]
  exact Option.some_ne_none _

theorem known_of_get {flow : Flow} (found : state.flows.get id = some flow) : state.Known id := by
  left
  rw [found]
  exact Option.some_ne_none _

theorem has_of_get {poll : Poll} (found : state.polls.get id = some poll) :
    state.polls.has id = true := by
  rw [OrderedMap.has, found]
  rfl

theorem known_of_poll {poll : Poll} (found : state.polls.get id = some poll) : state.Known id :=
  .inr (.inl (has_of_get found))

/-- Cancels get new numbers, and a service that closes stays closed. -/
structure Endures (state next : DeviceFlowService) : Prop where
  cancels : ∀ cancel, next.cancels.get cancel ≠ none →
    state.cancels.get cancel ≠ none ∨ cancel < next.nextCancel
  nextCancel : state.nextCancel ≤ next.nextCancel
  closed : state.closed = true → next.closed = true
  closing : next.closing = true → state.closing = true ∨ next.closed = true

namespace Endures

variable {state middle next : DeviceFlowService}

theorem refl (state : DeviceFlowService) : Endures state state where
  cancels _ := .inl
  nextCancel := le_rfl
  closed closed := closed
  closing := .inl

theorem trans (first : Endures state middle) (second : Endures middle next) :
    Endures state next where
  cancels cancel isSet := by
    rcases second.cancels cancel isSet with before | new
    · exact (first.cancels cancel before).imp_right fun old => old.trans_le second.nextCancel
    · exact .inr new
  nextCancel := first.nextCancel.trans second.nextCancel
  closed closed := second.closed (first.closed closed)
  closing closing := by
    rcases second.closing closing with before | closed
    · exact (first.closing before).imp_right second.closed
    · exact .inr closed

end Endures

/-- Flows leave and their signals are aborted; nothing is committed, and what is canceled
is not pending. -/
structure Recedes (state next : DeviceFlowService) : Prop where
  endures : Endures state next
  pending : ∀ id, next.Pending id → state.Pending id
  left : ∀ id, state.Pending id → next.Pending id ∨ next.Aborted id
  aborted : ∀ id, state.Aborted id → next.Aborted id
  polled : ∀ id, next.polls.has id = true → state.polls.has id = true ∨ next.Pending id ∨
    next.Aborted id
  known : ∀ id, next.Known id → state.Known id
  starting : next.startingFlows = state.startingFlows
  starts : next.starts.entries.length = state.starts.entries.length
  nextFlow : next.nextFlow = state.nextFlow
  log : ∃ more, next.log = state.log ++ more ∧ ∀ entry ∈ more,
    (∀ account, entry.2 ≠ .committed account) ∧
      (entry.2 = .answered .canceled → ¬ next.Pending entry.1)

namespace Recedes

variable {state middle next : DeviceFlowService}

theorem refl (state : DeviceFlowService) : Recedes state state where
  endures := .refl state
  pending _ := id
  left _ := .inl
  aborted _ := id
  polled _ := .inl
  known _ := id
  starting := rfl
  starts := rfl
  nextFlow := rfl
  log := ⟨[], (List.append_nil _).symm, fun _ member => nomatch member⟩

theorem trans (first : Recedes state middle) (second : Recedes middle next) :
    Recedes state next where
  endures := first.endures.trans second.endures
  pending id pending := first.pending id (second.pending id pending)
  left id pending := by
    rcases first.left id pending with still | aborted
    · exact second.left id still
    · exact .inr (second.aborted id aborted)
  aborted id aborted := second.aborted id (first.aborted id aborted)
  polled id polled := by
    rcases second.polled id polled with before | ended
    · rcases first.polled id before with sooner | pending | aborted
      · exact .inl sooner
      · exact .inr (second.left id pending)
      · exact .inr (.inr (second.aborted id aborted))
    · exact .inr ended
  known id known := first.known id (second.known id known)
  starting := second.starting.trans first.starting
  starts := second.starts.trans first.starts
  nextFlow := second.nextFlow.trans first.nextFlow
  log := by
    obtain ⟨more, grown, fits⟩ := first.log
    obtain ⟨later, grownLater, fitsLater⟩ := second.log
    refine ⟨more ++ later, by rw [grownLater, grown, List.append_assoc], fun entry member => ?_⟩
    rcases List.mem_append.mp member with early | late
    · exact ⟨(fits entry early).1, fun canceled pending =>
        (fits entry early).2 canceled (second.pending _ pending)⟩
    · exact fitsLater entry late

/-- A loop each of whose turns takes flows away. -/
theorem foldl {step : DeviceFlowService → FlowId → DeviceFlowService} {keys : List FlowId}
    (each : ∀ state, ∀ id ∈ keys, Recedes state (step state id)) (state : DeviceFlowService) :
    Recedes state (keys.foldl step state) := by
  induction keys generalizing state with
  | nil => exact .refl state
  | cons id keys ih =>
    exact (each state id List.mem_cons_self).trans
      (ih (fun state other member => each state other (List.mem_cons_of_mem _ member)) _)

end Recedes

variable (state : DeviceFlowService)

/-! ## What the functions of the service do to the flows -/

theorem pendings_change (id other : FlowId) (flow : PendingFlow) :
    (state.change id flow).pendings other = if other = id then flow else state.pendings other := by
  rw [change]
  exact Function.update_apply state.pendings id flow other

theorem recedes_change {flow : PendingFlow}
    (aborted : state.Aborted id → flow.settlementAborted = true) :
    Recedes state (state.change id flow) where
  endures := { Endures.refl state with }
  pending _ pending := pending
  left _ := .inl
  aborted other isAborted := by
    rw [Aborted, pendings_change]
    by_cases same : other = id
    · subst same
      rw [if_pos rfl]
      exact aborted isAborted
    · rw [if_neg same]
      exact isAborted
  polled _ := .inl
  known _ known := known
  starting := rfl
  starts := rfl
  nextFlow := rfl
  log := (Recedes.refl state).log

theorem recedes_abortFlow (id : FlowId) : Recedes state (state.abortFlow id) :=
  state.recedes_change fun _ => rfl

theorem recedes_clearTimer (id : FlowId) : Recedes state (state.clearTimer id) :=
  state.recedes_change fun aborted => aborted

theorem Recedes.note {state : DeviceFlowService} (recedes : Recedes state middle)
    (uncommitted : ∀ account, event ≠ .committed account)
    (canceled : event = .answered .canceled → state.Known id ∧ ¬ middle.Pending id) :
    Recedes state (middle.note id event) where
  endures := { recedes.endures with }
  pending := recedes.pending
  left := recedes.left
  aborted := recedes.aborted
  polled := recedes.polled
  known other known := by
    rcases known with found | polled | waits | member
    · exact recedes.known other (.inl found)
    · exact recedes.known other (.inr (.inl polled))
    · exact recedes.known other (.inr (.inr (.inl waits)))
    · rcases List.mem_append.mp member with before | new
      · exact recedes.known other (.inr (.inr (.inr before)))
      · obtain ⟨rfl, rfl⟩ := Prod.mk.inj (List.mem_singleton.mp new)
        exact (canceled rfl).1
  starting := recedes.starting
  starts := recedes.starts
  nextFlow := recedes.nextFlow
  log := by
    obtain ⟨more, grown, fits⟩ := recedes.log
    refine ⟨more ++ [(id, event)], ?_, fun entry member => ?_⟩
    · rw [← List.append_assoc, ← grown]
      rfl
    · rcases List.mem_append.mp member with before | new
      · exact fits entry before
      · rw [List.mem_singleton.mp new]
        exact ⟨uncommitted, fun isCanceled => (canceled isCanceled).2⟩

theorem Recedes.answer {state : DeviceFlowService} (recedes : Recedes state middle)
    {answer : FlowAnswer} (canceled : answer = .canceled → state.Known id ∧ ¬ middle.Pending id) :
    Recedes state (middle.answer id answer) :=
  recedes.note (fun _ same => nomatch same) fun same => canceled (FlowEvent.answered.inj same)

theorem recedes_setStage (id : FlowId) (stage : PollStage) :
    Recedes state (state.setStage id stage) := by
  have has (other : FlowId) : (state.setStage id stage).polls.has other =
      state.polls.has other := by
    rw [OrderedMap.has, OrderedMap.has, setStage, get_modify]
    split
    · exact Option.isSome_map
    · rfl
  exact {
    endures := { Endures.refl state with }
    pending := fun _ pending => pending
    left := fun _ => .inl
    aborted := fun _ aborted => aborted
    polled := fun other polled => .inl (by rwa [has] at polled)
    known := fun other known => by
      rcases known with found | polled | rest
      · exact .inl found
      · exact .inr (.inl (by rwa [has] at polled))
      · exact .inr (.inr rest)
    starting := rfl
    starts := rfl
    nextFlow := rfl
    log := (Recedes.refl state).log }

theorem removeFlow_flows (id other : FlowId) :
    (state.removeFlow id).flows.get other = if id = other then none else state.flows.get other := by
  rw [← get_erase, removeFlow]
  split <;> rfl

theorem not_pending_removeFlow (id : FlowId) : ¬ (state.removeFlow id).Pending id := by
  rw [Pending, removeFlow_flows, if_pos rfl]
  exact nofun

/-- The flow leaves the map. -/
theorem recedes_erase (aborted : state.Pending id → state.Aborted id) :
    Recedes state { state with flows := state.flows.erase id } where
  endures := { Endures.refl state with }
  pending other pending := by
    rw [Pending, get_erase] at pending
    split at pending
    · cases pending
    · exact pending
  left other pending := by
    rw [Pending, get_erase]
    by_cases same : id = other
    · subst same
      exact .inr (aborted pending)
    · rw [if_neg same]
      exact .inl pending
  aborted _ aborted := aborted
  polled _ := .inl
  known other known := by
    rcases known with found | rest
    · rw [get_erase] at found
      split at found
      · exact absurd rfl found
      · exact .inl found
    · exact .inr rest
  starting := rfl
  starts := rfl
  nextFlow := rfl
  log := ⟨[], (List.append_nil _).symm, fun _ member => nomatch member⟩

theorem recedes_removeFlow (id : FlowId) : Recedes state (state.removeFlow id) := by
  rw [removeFlow]
  split
  case isTrue pending =>
    -- the signals may as well be aborted before the flow leaves
    have aborts := (state.recedes_clearTimer id).trans ((state.clearTimer id).recedes_abortFlow id)
    refine aborts.trans (((state.clearTimer id).abortFlow id).recedes_erase fun _ => ?_)
    rw [Aborted, abortFlow, pendings_change, if_pos rfl]
  case isFalse unset => exact state.recedes_erase fun pending => absurd pending unset

theorem recedes_drop (id : FlowId) : Recedes state ((state.removeFlow id).note id .dropped) :=
  (state.recedes_removeFlow id).note (fun _ same => nomatch same) fun same => nomatch same

theorem recedes_evictTerminal : Recedes state state.evictTerminal := by
  rw [evictTerminal]
  split
  · exact .refl state
  · split
    · exact state.recedes_drop _
    · exact .refl state

/-- A flow that is not pending gets a terminal record. -/
theorem Recedes.setTerminal {state : DeviceFlowService} (recedes : Recedes state middle)
    (known : state.Known id) (ended : ¬ middle.Pending id) (status : FlowStatus)
    (expiresAtMs : Nat) :
    Recedes state { middle with flows := middle.flows.set id (.terminal status expiresAtMs) } := by
  have pending (other : FlowId) :
      (middle.flows.set id (.terminal status expiresAtMs)).get other = some .pending ↔
        middle.Pending other := by
    rw [get_set]
    split
    case isTrue same => exact ⟨nofun, fun isPending => absurd isPending (same ▸ ended)⟩
    case isFalse => exact Iff.rfl
  exact { recedes with
    endures := { recedes.endures with }
    pending := fun other isPending => recedes.pending other ((pending other).mp isPending)
    left := fun other wasPending => (recedes.left other wasPending).imp_left (pending other).mpr
    polled := fun other polled =>
      (recedes.polled other polled).imp_right (Or.imp_left (pending other).mpr)
    known := fun other isKnown => by
      rcases isKnown with found | rest
      · rw [get_set] at found
        split at found
        case isTrue same => exact same ▸ known
        case isFalse => exact recedes.known other (.inl found)
      · exact recedes.known other (.inr rest)
    log := by
      obtain ⟨more, grown, fits⟩ := recedes.log
      exact ⟨more, grown, fun entry member => ⟨(fits entry member).1, fun canceled isPending =>
        (fits entry member).2 canceled ((pending entry.1).mp isPending)⟩⟩ }

theorem recedes_rememberTerminal (known : state.Known id) (status : FlowStatus) :
    Recedes state (state.rememberTerminal id status) := by
  rw [rememberTerminal]
  split
  · exact .refl state
  · have evicts := (state.removeFlow id).recedes_evictTerminal
    refine ((state.recedes_removeFlow id).trans evicts).setTerminal known ?_ _ _
    exact fun pending => state.not_pending_removeFlow id (evicts.pending id pending)

/-! ## The calls of the service -/

theorem recedes_gcFlow (id : FlowId) : Recedes state (state.gcFlow id) := by
  unfold gcFlow
  split
  · exact .refl state
  case h_2 found =>
    split
    · exact state.recedes_rememberTerminal (known_of_get found) .expired
    · exact .refl state
  · split
    · exact state.recedes_drop id
    · exact .refl state

theorem recedes_gc : Recedes state state.gc :=
  Recedes.foldl (fun state id _ => state.recedes_gcFlow id) state

/-- The flows of the cancels that wait. -/
theorem cancels_settle (id other : FlowId) (result : SettlementResult) :
    (∃ cancel ∈ (state.settle id result).cancels.values, cancel.flow = other) ↔
      ∃ cancel ∈ state.cancels.values, cancel.flow = other := by
  have kept (cancel : Cancel) : (if cancel.flow = id ∧ cancel.result = none then
      { cancel with result := some result } else cancel).flow = cancel.flow := by
    split <;> rfl
  rw [settle, values_mapValues]
  simp only [List.mem_map, exists_exists_and_eq_and, kept]

/-- A poll that ends answers anything but that its flow is canceled. -/
theorem recedes_endPoll (id : FlowId) (result : SettlementResult)
    (notCanceled : .canceled ∉ answers) : Recedes state (state.endPoll id result answers) where
  endures := { Endures.refl state with
    cancels := fun cancel isSet => .inl fun unset => isSet <| by
      rw [endPoll, settle, get_mapValues, unset, Option.map_none] }
  pending _ pending := pending
  left _ := .inl
  aborted _ aborted := aborted
  polled other polled := by
    left
    rw [OrderedMap.has, endPoll, get_erase] at polled
    split at polled
    · cases polled
    · exact polled
  known other known := by
    rcases known with found | polled | waits | member
    · exact .inl found
    · rw [OrderedMap.has, endPoll, get_erase] at polled
      split at polled
      · cases polled
      · exact .inr (.inl polled)
    · exact .inr (.inr (.inl ((state.cancels_settle id other result).mp waits)))
    · rcases List.mem_append.mp member with before | new
      · exact .inr (.inr (.inr before))
      · obtain ⟨answer, isAnswer, same⟩ := List.mem_map.mp new
        rw [FlowEvent.answered.inj (Prod.mk.inj same).2] at isAnswer
        exact absurd isAnswer notCanceled
  starting := rfl
  starts := rfl
  nextFlow := rfl
  log := by
    refine ⟨answers.map fun answer => (id, .answered answer), rfl, fun entry member => ?_⟩
    obtain ⟨answer, isAnswer, rfl⟩ := List.mem_map.mp member
    refine ⟨by rintro _ ⟨⟩, fun same => ?_⟩
    rw [FlowEvent.answered.inj same] at isAnswer
    exact absurd isAnswer notCanceled

theorem recedes_report (known : state.Known id) (status : FlowStatus) :
    Recedes state (state.report id status) :=
  (state.recedes_rememberTerminal known status).trans
    (recedes_endPoll _ id _ (by simp))

theorem recedes_catchError (known : state.Known id) (poll : Poll) (failure : OAuthFailure)
    (notCanceled : .canceled ∉ answers) :
    Recedes state (state.catchError id poll failure answers) := by
  rw [catchError]
  split
  · exact state.recedes_report known .failed
  · split
    · exact state.recedes_report known .expired
    · exact state.recedes_endPoll id .canceled notCanceled

theorem recedes_commitUser (known : state.Known id) (poll : Poll) :
    Recedes state (state.commitUser id poll) := by
  rw [commitUser]
  split
  · exact state.recedes_catchError known poll .other List.not_mem_nil
  · exact state.recedes_setStage id .committing

theorem recedes_waitForAuthorizedRetry (known : state.Known id) (poll : Poll)
    (call : AuthorizedCall) : Recedes state (state.waitForAuthorizedRetry id poll call) := by
  rw [waitForAuthorizedRetry]
  split
  · exact state.recedes_catchError known poll .other List.not_mem_nil
  · exact state.recedes_setStage id (.waiting call)

/-- A poll of a pending flow starts, or its state changes. -/
theorem recedes_setPoll (fits : state.Pending id ∨ state.polls.has id = true) (poll : Poll) :
    Recedes state (state.setPoll id poll) := by
  have had (other : FlowId) (polled : (state.polls.set id poll).has other = true) :
      other = id ∨ state.polls.has other = true := by
    rw [OrderedMap.has, get_set] at polled
    split at polled
    case isTrue same => exact .inl same.symm
    case isFalse => exact .inr polled
  exact {
    endures := { Endures.refl state with }
    pending := fun _ pending => pending
    left := fun _ => .inl
    aborted := fun _ aborted => aborted
    polled := fun other polled => by
      rcases had other polled with rfl | before
      · exact fits.symm.imp_right .inl
      · exact .inl before
    known := fun other known => by
      rcases known with found | polled | rest
      · exact .inl found
      · rcases had other polled with rfl | before
        · exact fits.elim (fun pending => pending.known) fun polled => .inr (.inl polled)
        · exact .inr (.inl before)
      · exact .inr (.inr rest)
    starting := rfl
    starts := rfl
    nextFlow := rfl
    log := (Recedes.refl state).log }

theorem recedes_beginPoll (pending : state.Pending id) (aborted : Bool) :
    Recedes state (state.beginPoll id aborted) := by
  rw [beginPoll]
  have changes : Recedes state (state.change id (scheduleNext (state.pendings id) state.nowMs)) :=
    state.recedes_change fun isAborted => isAborted
  have begins := changes.trans
    (recedes_setPoll (state.change id _) (.inl pending) ⟨state.nowMs, aborted, .exchanging⟩)
  split
  · exact begins
  · exact begins.trans (recedes_setStage _ id .fetching)
  · refine begins.trans (recedes_commitUser _ ?_ _)
    apply Pending.known
    exact pending

theorem recedes_poll (id : FlowId) (aborted : Bool) : Recedes state (state.poll id aborted) := by
  rw [poll]
  split
  · exact .refl state
  · cases found : state.flows.get id with
    | none => exact (Recedes.refl state).answer nofun
    | some flow =>
      cases flow with
      | terminal status expiresAtMs =>
        dsimp only
        split
        · exact (state.recedes_drop id).answer nofun
        · exact (Recedes.refl state).answer nofun
      | pending =>
        show Recedes state (state.pollPending id (state.pendings id) aborted)
        rw [pollPending]
        split
        · split
          · exact (Recedes.refl state).answer nofun
          · exact (state.recedes_rememberTerminal (known_of_get found) .expired).answer nofun
        · split
          · exact (Recedes.refl state).answer nofun
          · split
            · exact (Recedes.refl state).answer nofun
            · exact state.recedes_beginPoll found aborted

theorem recedes_unauthorized (known : state.Known id) (poll : Poll) (result : ExchangeResult) :
    Recedes state (state.unauthorized id poll result) := by
  have postpones (state : DeviceFlowService) : Recedes state (state.postpone id) :=
    state.recedes_endPoll id .canceled (by simp [DeviceFlowService.pending])
  unfold unauthorized
  split
  · exact state.recedes_catchError known poll .other List.not_mem_nil
  split
  · exact state.recedes_catchError known poll .other (by simp)
  split
  · exact state.recedes_report known .expired
  split
  · exact postpones state
  case h_2 seconds =>
    have slows : Recedes state
        (state.change id (slowDown (state.pendings id) poll.startedAtMs seconds)) :=
      state.recedes_change fun isAborted => isAborted
    exact slows.trans (postpones _)
  · exact state.recedes_report known .expired
  · exact state.recedes_report known .denied
  · exact state.recedes_report known .failed

variable {state} {next : DeviceFlowService}

theorem recedes_exchanged {outcome : Except OAuthFailure ExchangeResult}
    (went : state.exchanged id outcome = some next) : Recedes state next := by
  unfold exchanged at went
  split at went
  case h_1 startedAtMs aborted found =>
    have known := known_of_poll found
    have authorizes (authorized : Authorized) :
        Recedes state (state.change id (authorize (state.pendings id) authorized)) :=
      state.recedes_change fun isAborted => isAborted
    split at went
    · cases went
      exact state.recedes_catchError known _ _ List.not_mem_nil
    · cases went
      exact (authorizes _).trans (recedes_setStage _ id .fetching)
    · cases went
      exact (authorizes _).trans (recedes_commitUser (state.change id _) known _)
    · cases went
      exact state.recedes_unauthorized known _ _
  case h_2 => cases went

theorem recedes_fetched {outcome : Except OAuthFailure GitHubUser}
    (went : state.fetched id outcome = some next) : Recedes state next := by
  unfold fetched at went
  split at went
  case h_1 startedAtMs aborted found =>
    have known := known_of_poll found
    split at went
    · cases went
      have stores (user : GitHubUser) :
          Recedes state (state.change id (nameUser (state.pendings id) user)) :=
        state.recedes_change fun isAborted => isAborted
      exact (stores _).trans (recedes_commitUser (state.change id _) known _)
    · cases went
      exact state.recedes_catchError known _ _ List.not_mem_nil
    · cases went
      exact state.recedes_waitForAuthorizedRetry known _ .fetchUser
  case h_2 => cases went

theorem recedes_retry (went : state.retry id = some next) : Recedes state next := by
  unfold retry at went
  split at went
  case h_1 =>
    split at went
    · cases went
    · split at went <;> cases went <;> exact state.recedes_setStage id _
  case h_2 => cases went

theorem recedes_giveUp (went : state.giveUp id = some next) : Recedes state next := by
  unfold giveUp at went
  split at went
  case h_1 startedAtMs aborted call found =>
    split at went
    · cases went
      exact state.recedes_catchError (known_of_poll found) _ _ List.not_mem_nil
    · cases went
  case h_2 => cases went

theorem recedes_upserted {outcome : UpsertOutcome} (went : state.upserted id outcome = some next) :
    Recedes state next := by
  unfold upserted at went
  split at went
  case h_1 startedAtMs aborted found =>
    cases went
    exact state.recedes_catchError (known_of_poll found) _ _ List.not_mem_nil
  case h_2 startedAtMs aborted found =>
    cases went
    exact state.recedes_waitForAuthorizedRetry (known_of_poll found) _ .upsert
  case h_3 startedAtMs aborted account found =>
    cases went
    exact state.recedes_report (known_of_poll found) (.complete account)
  case h_4 startedAtMs aborted account found =>
    cases went
    exact state.recedes_setStage id _
  case h_5 => cases went

theorem recedes_cleaned {succeeded : Bool} (went : state.cleaned id succeeded = some next) :
    Recedes state next := by
  unfold cleaned at went
  split at went
  case h_1 startedAtMs aborted account attempt found =>
    split at went
    · cases went
      exact state.recedes_report (known_of_poll found) (.complete account)
    · cases went
      exact state.recedes_setStage id _
  case h_2 => cases went

theorem recedes_abortPoll (went : state.abortPoll id = some next) : Recedes state next := by
  unfold abortPoll at went
  split at went
  · cases went
  case h_2 poll found =>
    cases went
    exact state.recedes_setPoll (.inr (has_of_get found)) _

variable (state)

/-- A flow that is not in the map any more may be answered canceled. -/
theorem recedes_removeCanceled (known : state.Known id) :
    Recedes state ((state.removeFlow id).answer id .canceled) :=
  (state.recedes_removeFlow id).answer fun _ => ⟨known, state.not_pending_removeFlow id⟩

theorem recedes_abortCancellation (id : FlowId) : Recedes state (state.abortCancellation id) :=
  state.recedes_change fun isAborted => isAborted

/-- A cancel starts to wait. -/
theorem recedes_awaitSettlement (pending : state.Pending id) :
    Recedes state (state.awaitSettlement id) where
  endures := {
    cancels := fun cancel isSet => by
      rw [awaitSettlement, get_set] at isSet
      split at isSet
      case isTrue same => exact .inr (same ▸ Nat.lt_succ_self _)
      case isFalse => exact .inl isSet
    nextCancel := Nat.le_succ _
    closed := fun closed => closed
    closing := .inl }
  pending _ pending := pending
  left _ := .inl
  aborted _ aborted := aborted
  polled _ := .inl
  known other known := by
    rcases known with found | polled | ⟨entry, member, same⟩ | answered
    · exact .inl found
    · exact .inr (.inl polled)
    · obtain ⟨key, isEntry⟩ := mem_values.mp member
      rw [awaitSettlement, get_set] at isEntry
      split at isEntry
      · cases isEntry
        exact same ▸ pending.known
      · exact .inr (.inr (.inl ⟨entry, mem_values.mpr ⟨key, isEntry⟩, same⟩))
    · exact .inr (.inr (.inr answered))
  starting := rfl
  starts := rfl
  nextFlow := rfl
  log := (Recedes.refl state).log

theorem recedes_cancel (id : FlowId) : Recedes state (state.cancel id) := by
  rw [cancel]
  split
  · exact (Recedes.refl state).answer nofun
  · exact (Recedes.refl state).answer nofun
  case h_3 found => exact state.recedes_removeCanceled (known_of_get found)
  case h_4 found =>
    split
    · exact (state.recedes_abortCancellation id).trans (recedes_awaitSettlement _ found)
    · exact state.recedes_removeCanceled (known_of_get found)

/-- A cancel that has its result is over. -/
theorem recedes_eraseCancel (cancel : CancelId) :
    Recedes state { state with cancels := state.cancels.erase cancel } where
  endures := { Endures.refl state with
    cancels := fun other isSet => by
      rw [get_erase] at isSet
      split at isSet
      · exact absurd rfl isSet
      · exact .inl isSet }
  pending _ pending := pending
  left _ := .inl
  aborted _ aborted := aborted
  polled _ := .inl
  known other known := by
    rcases known with found | polled | ⟨entry, member, same⟩ | answered
    · exact .inl found
    · exact .inr (.inl polled)
    · obtain ⟨key, isEntry⟩ := mem_values.mp member
      rw [get_erase] at isEntry
      split at isEntry
      · cases isEntry
      · exact .inr (.inr (.inl ⟨entry, mem_values.mpr ⟨key, isEntry⟩, same⟩))
    · exact .inr (.inr (.inr answered))
  starting := rfl
  starts := rfl
  nextFlow := rfl
  log := (Recedes.refl state).log

variable {state}

theorem recedes_cancelEnds {cancel : CancelId} (went : state.cancelEnds cancel = some next) :
    Recedes state next := by
  unfold cancelEnds at went
  split at went
  case h_1 id result found =>
    cases went
    have known : state.Known id :=
      .inr (.inr (.inl ⟨_, mem_values.mpr ⟨cancel, found⟩, rfl⟩))
    split
    · refine ((state.recedes_eraseCancel cancel).trans (recedes_removeFlow _ id)).answer fun _ => ?_
      exact ⟨known, not_pending_removeFlow _ id⟩
    case isFalse kept =>
      refine (state.recedes_eraseCancel cancel).answer fun canceled => ⟨known, fun pending => ?_⟩
      cases result with
      | canceled => exact kept ⟨rfl, pending⟩
      | complete account => cases canceled
  case h_2 => cases went

theorem recedes_expire (went : state.expire id = some next) : Recedes state next := by
  unfold expire at went
  split at went
  · cases went
  · have clears := state.recedes_clearTimer id
    dsimp only at went
    split at went
    case isTrue isPending =>
      have pending : state.Pending id := isPending
      have aborts := clears.trans (recedes_abortFlow _ id)
      split at went
      · cases went
        exact aborts
      · cases went
        exact aborts.trans
          (recedes_rememberTerminal ((state.clearTimer id).abortFlow id) pending.known .expired)
    case isFalse =>
      cases went
      exact clears
  · cases went
    exact (state.recedes_clearTimer id).trans (recedes_abortFlow _ id)

theorem recedes_forget (went : state.forget id = some next) : Recedes state next := by
  unfold forget at went
  split at went
  · cases went
    exact state.recedes_drop id
  · cases went

variable (state)

theorem recedes_removeAll : Recedes state state.removeAll :=
  Recedes.foldl (fun state id _ => state.recedes_removeFlow id) state

theorem recedes_shut : Recedes state state.shut where
  endures := { Endures.refl state with
    closed := fun _ => rfl
    closing := fun _ => .inr rfl }
  pending _ pending := pending
  left _ := .inl
  aborted _ aborted := aborted
  polled _ := .inl
  known _ known := known
  starting := rfl
  starts := List.length_map _
  nextFlow := rfl
  log := (Recedes.refl state).log

/-- `close`, up to its suspension. -/
theorem recedes_close : Recedes state state.close := by
  have turn (state : DeviceFlowService) (id : FlowId) : Recedes state (state.closeFlow id) := by
    unfold closeFlow
    split
    · exact (state.recedes_abortCancellation id).trans (recedes_clearTimer _ id)
    · exact state.recedes_removeFlow id
  unfold close
  split
  · exact .refl state
  · have closing : Recedes state.shut { state.shut with closing := true } :=
      { Recedes.refl state.shut with
        endures := { Endures.refl state.shut with closing := fun _ => .inr rfl } }
    exact (state.recedes_shut.trans closing).trans
      (Recedes.foldl (fun state id _ => turn state id) _)

theorem recedes_forceClose : Recedes state state.forceClose := by
  unfold forceClose
  split
  · exact .refl state
  · have forced : Recedes state.shut { state.shut with forceClosed := true } :=
      { Recedes.refl state.shut with endures := { Endures.refl state.shut with } }
    exact (state.recedes_shut.trans forced).trans (recedes_removeAll _)

theorem recedes_finishClose (went : state.finishClose = some next) : Recedes state next := by
  unfold finishClose at went
  split at went
  · cases went
    exact state.recedes_removeAll.trans { Recedes.refl state.removeAll with
      endures := { Endures.refl state.removeAll with closing := fun closing => nomatch closing } }
  · cases went

/-! ## What holds in every run -/

/-- What every move keeps. -/
structure Kept : Prop where
  cancels : ∀ cancel, state.cancels.get cancel ≠ none → cancel < state.nextCancel
  closing : state.closing = true → state.closed = true
  known : ∀ id, state.Known id → id < state.nextFlow
  polled : ∀ id, state.polls.has id = true → state.Pending id ∨ state.Aborted id
  canceled : ∀ id, (id, .answered .canceled) ∈ state.log → ¬ state.Pending id
  last : ∀ id, FlowLife.CanceledLast (state.history id)
  starts : state.starts.entries.length ≤ state.startingFlows
  bound : state.activeFlowCount + state.startingFlows ≤ maxDeviceFlows

theorem history_note_self (id : FlowId) (event : FlowEvent) :
    (state.note id event).history id = state.history id ++ [event] := by
  simp [history, note]

theorem history_note_of_ne {other : FlowId} (apart : id ≠ other) (event : FlowEvent) :
    (state.note id event).history other = state.history other := by
  simp [history, note, apart]

theorem mem_history {state : DeviceFlowService} :
    event ∈ state.history id ↔ (id, event) ∈ state.log := by
  rw [history, List.mem_filterMap]
  constructor
  · rintro ⟨⟨other, found⟩, member, same⟩
    split at same
    case isTrue isId =>
      cases same
      exact isId ▸ member
    case isFalse => cases same
  · exact fun member => ⟨(id, event), member, if_pos rfl⟩

theorem mem_pendingIds {state : DeviceFlowService} :
    id ∈ state.flows.keysWhere Flow.isPending ↔ state.Pending id := by
  rw [mem_keysWhere]
  constructor
  · rintro ⟨flow, found, pending⟩
    cases flow with
    | pending => exact found
    | terminal status expiresAtMs => cases pending
  · exact fun pending => ⟨.pending, pending, rfl⟩

theorem activeFlowCount_le {state next : DeviceFlowService} {more : List FlowId}
    (counted : ∀ id, next.Pending id → id ∈ more ∨ state.Pending id) :
    next.activeFlowCount ≤ more.length + state.activeFlowCount :=
  length_filter_values_le fun id member =>
    (counted id (mem_pendingIds.mp member)).imp_right mem_pendingIds.mpr

namespace Kept

variable {state} {next : DeviceFlowService}

theorem initial : Kept .initial where
  cancels cancel isSet := absurd rfl isSet
  closing closing := nomatch closing
  known id known := by
    rcases known with found | polled | ⟨_, member, _⟩ | answered
    · exact absurd rfl found
    · cases polled
    · cases member
    · cases answered
  polled _ polled := by cases polled
  canceled _ member := by cases member
  last _ before rest account split := by simp [history, DeviceFlowService.initial] at split
  starts := le_rfl
  bound := by decide

theorem recedes (kept : Kept state) (recedes : Recedes state next) : Kept next where
  cancels cancel isSet := by
    rcases recedes.endures.cancels cancel isSet with before | new
    · exact (kept.cancels cancel before).trans_le recedes.endures.nextCancel
    · exact new
  closing closing := by
    rcases recedes.endures.closing closing with before | closed
    · exact recedes.endures.closed (kept.closing before)
    · exact closed
  known id known := by
    rw [recedes.nextFlow]
    exact kept.known id (recedes.known id known)
  polled id polled := by
    rcases recedes.polled id polled with before | still
    · rcases kept.polled id before with pending | aborted
      · exact recedes.left id pending
      · exact .inr (recedes.aborted id aborted)
    · exact still
  canceled id member pending := by
    obtain ⟨more, grown, fits⟩ := recedes.log
    rw [grown] at member
    rcases List.mem_append.mp member with before | new
    · exact kept.canceled id before (recedes.pending id pending)
    · exact (fits _ new).2 rfl pending
  last id := by
    obtain ⟨more, grown, fits⟩ := recedes.log
    rw [history, grown, List.filterMap_append]
    refine (kept.last id).append_uncommitted fun account member => ?_
    obtain ⟨entry, isEntry, same⟩ := List.mem_filterMap.mp member
    split at same
    · exact (fits entry isEntry).1 account (Option.some.inj same)
    · cases same
  starts := by
    rw [recedes.starts, recedes.starting]
    exact kept.starts
  bound := by
    have count : next.activeFlowCount ≤ state.activeFlowCount := by
      have counted := @activeFlowCount_le state next [] fun id pending =>
        .inr (recedes.pending id pending)
      rwa [List.length_nil, Nat.zero_add] at counted
    rw [recedes.starting]
    exact (Nat.add_le_add_right count _).trans kept.bound

/-- What is not looked at here may change. -/
theorem endStart (kept : Kept state) (start : StartId)
    (outcome : Except StartFailure DeviceFlowSnapshot) : Kept (state.endStart start outcome) :=
  kept.recedes { Recedes.refl state with endures := { Endures.refl state with } }

theorem start (kept : Kept state) (resolveGitHubEnvironment : String → Option GitHubEnvironment)
    (host : String) (aborted : Bool) :
      Kept (state.start resolveGitHubEnvironment host aborted) := by
  have numbered : Kept { state with nextStart := state.nextStart + 1 } :=
    kept.recedes { Recedes.refl state with endures := { Endures.refl state with } }
  have collected := numbered.recedes (recedes_gc _)
  unfold DeviceFlowService.start
  dsimp only
  split
  · exact numbered.endStart _ _
  split
  · exact numbered.endStart _ _
  split
  · exact collected.endStart _ _
  case isFalse room =>
    split
    · exact collected.endStart _ _
    · exact { collected with
        starts := (length_set_le _ _ _).trans (Nat.succ_le_succ collected.starts)
        bound := by
          rw [← Nat.add_assoc]
          exact Nat.lt_of_not_le room }

/-- A flow is made. -/
theorem create (kept : Kept state) (flow : PendingFlow)
    (room : state.activeFlowCount + state.startingFlows < maxDeviceFlows) :
    Kept (state.addFlow flow) where
  cancels := kept.cancels
  closing := kept.closing
  known id known := by
    rcases known with found | rest
    · rw [addFlow, get_set] at found
      split at found
      case isTrue same => exact same ▸ Nat.lt_succ_self _
      case isFalse => exact Nat.lt_succ_of_lt (kept.known id (.inl found))
    · exact Nat.lt_succ_of_lt (kept.known id (.inr rest))
  polled id polled := by
    by_cases same : state.nextFlow = id
    · left
      rw [Pending, addFlow, get_set, if_pos same]
    · rcases kept.polled id polled with pending | aborted
      · left
        rw [Pending, addFlow, get_set, if_neg same]
        exact pending
      · right
        show (Function.update state.pendings state.nextFlow flow id).settlementAborted = true
        rw [Function.update_of_ne fun eq => same eq.symm]
        exact aborted
  canceled id member pending := by
    have old : id < state.nextFlow := kept.known id (.inr (.inr (.inr member)))
    rw [Pending, addFlow, get_set, if_neg (Nat.ne_of_gt old)] at pending
    exact kept.canceled id member pending
  last := kept.last
  starts := kept.starts
  bound := by
    have count := @activeFlowCount_le state (state.addFlow flow) [state.nextFlow] fun id
        pending => by
      rw [Pending, addFlow, get_set] at pending
      split at pending
      case isTrue same => exact .inl (List.mem_singleton.mpr same.symm)
      case isFalse => exact .inr pending
    rw [List.length_singleton] at count
    show _ + state.startingFlows ≤ _
    omega

theorem requested (kept : Kept state) {start : StartId} {code : Option DeviceCode}
    (went : state.requested start code = some next) : Kept next := by
  unfold DeviceFlowService.requested at went
  split at went
  · cases went
  case h_2 starting found =>
    have fewer := length_erase_of_get found
    have some := kept.starts
    have bound := kept.bound
    have ended : Kept { state with
        starts := state.starts.erase start
        startingFlows := state.startingFlows - 1 } := {
      cancels := kept.cancels
      closing := kept.closing
      known := kept.known
      polled := kept.polled
      canceled := kept.canceled
      last := kept.last
      starts := by
        dsimp only
        omega
      bound := by
        show state.activeFlowCount + (state.startingFlows - 1) ≤ maxDeviceFlows
        omega }
    split at went
    · cases went
      exact ended.endStart _ _
    · split at went
      · cases went
        exact ended.endStart _ _
      · cases went
        refine (ended.create _ ?_).endStart _ _
        show state.activeFlowCount + (state.startingFlows - 1) < maxDeviceFlows
        omega

theorem commit (kept : Kept state) {account : AccountId}
    (went : state.commit id account = some next) : Kept next := by
  unfold DeviceFlowService.commit at went
  split at went
  case h_1 startedAtMs aborted found =>
    split at went
    · cases went
    case isFalse live =>
      cases went
      have pending : state.Pending id :=
        (kept.polled id (has_of_get found)).resolve_right live
      have staged := kept.recedes (state.recedes_setStage id (.committed account))
      exact { staged with
        known := fun other known => staged.known other <| by
          rcases known with found | polled | waits | member
          · exact .inl found
          · exact .inr (.inl polled)
          · exact .inr (.inr (.inl waits))
          · rcases List.mem_append.mp member with before | new
            · exact .inr (.inr (.inr before))
            · cases List.mem_singleton.mp new
        canceled := fun other member => by
          rcases List.mem_append.mp member with before | new
          · exact staged.canceled other before
          · cases List.mem_singleton.mp new
        last := fun other => by
          by_cases same : id = other
          · subst same
            rw [history_note_self]
            refine (staged.last id).append fun _ _ canceled => ?_
            exact staged.canceled id (mem_history.mp canceled) pending
          · rw [history_note_of_ne _ same]
            exact staged.last other
        bound := staged.bound }
  case h_2 => cases went

theorem abortStart (kept : Kept state) {start : StartId}
    (went : state.abortStart start = some next) : Kept next := by
  unfold DeviceFlowService.abortStart at went
  split at went
  · cases went
  case h_2 starting found =>
    cases went
    refine kept.recedes { Recedes.refl state with
      endures := { Endures.refl state with }
      starts := ?_ }
    have keys := congrArg List.length
      (keys_set_of_get found { starting with aborted := true })
    rw [OrderedMap.keys, OrderedMap.keys, List.length_map, List.length_map] at keys
    exact keys

/-- Every move keeps it. -/
theorem step (kept : Kept state) {resolveGitHubEnvironment : String → Option GitHubEnvironment}
    {label : DeviceFlowStep}
    (stepped : (deviceFlows resolveGitHubEnvironment).step state label = some next) :
    Kept next := by
  cases label with
  | start host aborted =>
    cases stepped
    exact kept.start _ host aborted
  | abortStart start => exact kept.abortStart stepped
  | requested start code => exact kept.requested stepped
  | poll id aborted =>
    cases stepped
    exact kept.recedes (state.recedes_poll id aborted)
  | abortPoll id => exact kept.recedes (recedes_abortPoll stepped)
  | exchanged id outcome => exact kept.recedes (recedes_exchanged stepped)
  | fetched id outcome => exact kept.recedes (recedes_fetched stepped)
  | retry id => exact kept.recedes (recedes_retry stepped)
  | giveUp id => exact kept.recedes (recedes_giveUp stepped)
  | commit id account => exact kept.commit stepped
  | upserted id outcome => exact kept.recedes (recedes_upserted stepped)
  | cleaned id succeeded => exact kept.recedes (recedes_cleaned stepped)
  | cancel id =>
    cases stepped
    exact kept.recedes (state.recedes_cancel id)
  | cancelEnds cancel => exact kept.recedes (recedes_cancelEnds stepped)
  | expire id => exact kept.recedes (recedes_expire stepped)
  | forget id => exact kept.recedes (recedes_forget stepped)
  | close =>
    cases stepped
    exact kept.recedes state.recedes_close
  | finishClose => exact kept.recedes (state.recedes_finishClose stepped)
  | forceClose =>
    cases stepped
    exact kept.recedes state.recedes_forceClose
  | tick ms =>
    cases stepped
    exact kept.recedes { Recedes.refl state with endures := { Endures.refl state with } }

end Kept

end GhcGateway.Accounts.DeviceFlowService
