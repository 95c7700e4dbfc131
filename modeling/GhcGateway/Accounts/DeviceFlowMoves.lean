/-
# The lives of device flows

What a move of the service does to each of its flows is a few moves of `FlowLife`. Two
kinds of step are left out, in which the service gets ahead of itself: a `start` whose
`gc` finds an expired flow with a poll in flight, which it takes for abandoned, and a
poll that begins before a cancel that has its result has gone on.
-/

import GhcGateway.Accounts.DeviceFlowWithdrawal
import Mathlib.Logic.Relation

namespace GhcGateway.Accounts

open Library

open Relation (ReflTransGen)

namespace DeviceFlowService

open OrderedMap

variable {other : FlowId} {status : FlowStatus} {poll : Poll} {aborted : Bool}
  {account : Option AccountId} {answers : List FlowAnswer} {expiresAtMs : Nat} {cancel : CancelId}

def entryOf : Option Flow → FlowEntry
  | none => .absent
  | some .pending => .pending
  | some (.terminal status _) => .terminal status

def life (state : DeviceFlowService) (id : FlowId) : FlowLife where
  born := decide (id < state.nextFlow)
  entry := entryOf (state.flows.get id)
  polled := (state.polls.get id).map fun poll => poll.stage.account
  waiting cancel := (state.cancels.get cancel).bind fun entry =>
    if entry.flow = id then some entry.result else none
  closed := state.closed
  log := state.history id

/-- Every flow makes a few moves. -/
def Moves (state next : DeviceFlowService) : Prop :=
  ∀ id, ReflTransGen FlowLife.Move (state.life id) (next.life id)

variable {state middle next : DeviceFlowService} {id : FlowId}

theorem Moves.trans (first : Moves state middle) (second : Moves middle next) : Moves state next :=
  fun id => (first id).trans (second id)

theorem Moves.refl (state : DeviceFlowService) : Moves state state := fun _ => .refl

theorem Moves.of_same (same : ∀ id, next.life id = state.life id) : Moves state next := by
  intro id
  rw [same]

/-- One flow moves and the others stay as they are. -/
theorem Moves.of_move (id : FlowId) (moved : FlowLife.Move (state.life id) (next.life id))
    (others : ∀ other, other ≠ id → next.life other = state.life other) : Moves state next := by
  intro other
  by_cases same : other = id
  · subst same
    exact .single moved
  · rw [others other same]

variable (state) (id)

theorem entryOf_eq_pending {flow : Option Flow} :
    entryOf flow = .pending ↔ flow = some .pending := by
  rcases flow with - | (- | ⟨status, expiresAtMs⟩) <;> simp [entryOf]

theorem life_entry_pending : (state.life id).entry = .pending ↔ state.Pending id :=
  entryOf_eq_pending

/-- Something more has happened to a flow. -/
theorem life_note_self (event : FlowEvent) :
    (state.note id event).life id = (state.life id).note event := by
  have log := state.history_note_self id event
  rw [life, FlowLife.note, log]
  rfl

theorem life_note_of_ne (apart : other ≠ id) (event : FlowEvent) :
    (state.note id event).life other = state.life other := by
  have log := state.history_note_of_ne (fun same => apart same.symm) event
  rw [life, log]
  rfl

theorem moves_note {event : FlowEvent}
    (moved : FlowLife.Move (state.life id) ((state.life id).note event)) :
    Moves state (state.note id event) :=
  Moves.of_move id (by rwa [life_note_self]) fun _ apart => state.life_note_of_ne id apart event

theorem life_removeFlow_self :
    (state.removeFlow id).life id = { state.life id with entry := .absent } := by
  have entry : (state.removeFlow id).flows.get id = none := by
    rw [removeFlow_flows, if_pos rfl]
  rw [life, entry, removeFlow]
  split <;> rfl

theorem life_removeFlow_of_ne (apart : other ≠ id) :
    (state.removeFlow id).life other = state.life other := by
  have entry : (state.removeFlow id).flows.get other = state.flows.get other := by
    rw [removeFlow_flows, if_neg fun same => apart same.symm]
  rw [life, entry, removeFlow]
  split <;> rfl

/-- A terminal record leaves the map. -/
theorem moves_drop (found : state.flows.get id = some (.terminal status expiresAtMs)) :
    Moves state ((state.removeFlow id).note id .dropped) := by
  have kept : (state.life id).entry = .terminal status := by
    rw [life, found]
    rfl
  refine Moves.of_move id ?_ fun other apart => ?_
  · rw [life_note_self, life_removeFlow_self]
    exact .drop kept
  · rw [life_note_of_ne _ _ apart, life_removeFlow_of_ne _ _ apart]

theorem mem_terminals {entry : FlowId × Flow} (member : entry ∈ state.terminals) :
    ∃ status expiresAtMs, state.flows.get entry.1 = some (.terminal status expiresAtMs) := by
  obtain ⟨isEntry, ended⟩ := List.mem_filter.mp member
  have found := mem_entries.mp isEntry
  obtain ⟨other, flow⟩ := entry
  cases flow with
  | pending => cases ended
  | terminal status expiresAtMs => exact ⟨status, expiresAtMs, found⟩

theorem moves_evictTerminal : Moves state state.evictTerminal := by
  unfold evictTerminal
  cases records : state.terminals with
  | nil => exact .refl state
  | cons entry rest =>
    dsimp only
    split
    · obtain ⟨status, expiresAtMs, found⟩ :=
        state.mem_terminals (records ▸ List.mem_cons_self : entry ∈ state.terminals)
      exact state.moves_drop entry.1 found
    · exact .refl state

theorem life_evictTerminal_of_absent (absent : state.flows.get id = none) :
    state.evictTerminal.life id = state.life id := by
  unfold evictTerminal
  cases records : state.terminals with
  | nil => rfl
  | cons entry rest =>
    dsimp only
    split
    · obtain ⟨status, expiresAtMs, found⟩ :=
        state.mem_terminals (records ▸ List.mem_cons_self : entry ∈ state.terminals)
      have apart : id ≠ entry.1 := by
        rintro rfl
        cases absent.symm.trans found
      rw [life_note_of_ne _ _ apart, life_removeFlow_of_ne _ _ apart]
    · rfl

theorem life_setFlow_of_ne (apart : other ≠ id) (flow : Flow) :
    life { state with flows := state.flows.set id flow } other = state.life other := by
  have entry : (state.flows.set id flow).get other = state.flows.get other :=
    get_set_of_ne (fun same => apart same.symm) _ _
  rw [life, entry]
  rfl

/-- What `rememberTerminal` makes of the flow it is about. -/
theorem life_rememberTerminal_self (status : FlowStatus) :
    (state.rememberTerminal id status).life id =
      { state.life id with
        entry := if state.closed then (state.life id).entry else .terminal status } := by
  unfold rememberTerminal
  split
  case isTrue closed => rfl
  case isFalse =>
    have absent : (state.removeFlow id).flows.get id = none := by
      rw [removeFlow_flows, if_pos rfl]
    have before := (state.removeFlow id).life_evictTerminal_of_absent id absent
    rw [life_removeFlow_self] at before
    rw [life, get_set_self]
    exact congrArg (fun life : FlowLife => { life with entry := .terminal status }) before

/-- Other flows may be evicted. -/
theorem moves_rememberTerminal_of_ne (apart : other ≠ id) (status : FlowStatus) :
    ReflTransGen FlowLife.Move (state.life other)
      ((state.rememberTerminal id status).life other) := by
  unfold rememberTerminal
  split
  · exact .refl
  · have moves := (state.removeFlow id).moves_evictTerminal other
    rw [life_removeFlow_of_ne _ _ apart] at moves
    rw [life_setFlow_of_ne _ _ apart]
    exact moves

/-- A pending flow that nobody polls expires. -/
theorem moves_rememberExpired (pending : state.Pending id) (idle : state.polls.has id = false) :
    Moves state (state.rememberTerminal id .expired) := by
  intro other
  by_cases same : other = id
  · subst same
    rw [life_rememberTerminal_self]
    split
    · exact .refl
    case isFalse opened =>
      refine .single (.expire ((state.life_entry_pending other).mpr pending) ?_ ?_)
      · rw [life, Option.map_eq_none_iff, ← Option.not_isSome_iff_eq_none]
        exact Bool.not_eq_true _ ▸ idle
      · exact Bool.eq_false_iff.mpr opened
  · exact state.moves_rememberTerminal_of_ne id same .expired

/-! ## `gc` -/

/-- No expired flow has a poll in flight. -/
def Calm : Prop := ∀ id ∈ state.flows.keys, state.flows.get id = some .pending →
  (state.pendings id).expiresAtMs ≤ state.nowMs → state.polls.has id = false

theorem calm_iff : state.Calm ↔ ∀ id, state.Pending id →
    (state.pendings id).expiresAtMs ≤ state.nowMs → state.polls.has id = false :=
  ⟨fun calm id pending => calm id (mem_keys.mpr ⟨.pending, pending⟩) pending,
    fun calm id _ => calm id⟩

/-- What a turn of the loop leaves alone. -/
structure Collects (state next : DeviceFlowService) : Prop where
  expiresAtMs : ∀ id, (next.pendings id).expiresAtMs = (state.pendings id).expiresAtMs
  nowMs : next.nowMs = state.nowMs
  polls : next.polls = state.polls

theorem Collects.calm {state : DeviceFlowService} (collects : Collects state next)
    (recedes : Recedes state next) (calm : state.Calm) : next.Calm := by
  rw [calm_iff] at calm ⊢
  intro id pending expired
  rw [collects.expiresAtMs, collects.nowMs] at expired
  rw [collects.polls]
  exact calm id (recedes.pending id pending) expired

theorem Collects.trans {state : DeviceFlowService} (first : Collects state middle)
    (second : Collects middle next) : Collects state next where
  expiresAtMs id := (second.expiresAtMs id).trans (first.expiresAtMs id)
  nowMs := second.nowMs.trans first.nowMs
  polls := second.polls.trans first.polls

theorem Collects.refl : Collects state state := ⟨fun _ => rfl, rfl, rfl⟩

theorem collects_removeFlow : Collects state (state.removeFlow id) := by
  unfold removeFlow
  split
  · refine ⟨fun other => ?_, rfl, rfl⟩
    rw [abortFlow, pendings_change]
    split
    case isTrue same => rw [clearTimer, pendings_change, if_pos rfl, same]
    case isFalse apart => rw [clearTimer, pendings_change, if_neg apart]
  · exact ⟨fun _ => rfl, rfl, rfl⟩

theorem collects_evictTerminal : Collects state state.evictTerminal := by
  unfold evictTerminal
  split
  · exact Collects.refl state
  · split
    · exact { state.collects_removeFlow _ with }
    · exact Collects.refl state

theorem collects_rememberTerminal (status : FlowStatus) :
    Collects state (state.rememberTerminal id status) := by
  unfold rememberTerminal
  split
  · exact Collects.refl state
  · exact { (state.collects_removeFlow id).trans (collects_evictTerminal _) with }

theorem collects_gcFlow : Collects state (state.gcFlow id) := by
  unfold gcFlow
  split
  · exact Collects.refl state
  · split
    · exact state.collects_rememberTerminal id .expired
    · exact Collects.refl state
  · split
    · exact { state.collects_removeFlow id with }
    · exact Collects.refl state

theorem moves_gcFlow (calm : state.Calm) : Moves state (state.gcFlow id) := by
  unfold gcFlow
  split
  · exact .refl state
  case h_2 found =>
    split
    case isTrue expired =>
      exact state.moves_rememberExpired id found (state.calm_iff.mp calm id found expired)
    case isFalse => exact .refl state
  case h_3 found =>
    split
    · exact state.moves_drop id found
    · exact .refl state

theorem moves_gc (calm : state.Calm) : Moves state state.gc := by
  unfold gc
  generalize state.flows.keys = keys
  induction keys generalizing state with
  | nil => exact .refl state
  | cons id keys ih =>
    exact (state.moves_gcFlow id calm).trans
      (ih _ ((state.collects_gcFlow id).calm (state.recedes_gcFlow id) calm))

/-! ## `poll` -/

/-- The flow has a poll in flight, which has committed the account, or none. -/
def Polled (account : Option AccountId) : Prop := (state.life id).polled = some account

variable {state id}

/-- The object of a pending flow is not seen. -/
theorem moves_change (flow : PendingFlow) : Moves state (state.change id flow) :=
  Moves.of_same fun _ => rfl

theorem polled_of_get (found : state.polls.get id = some poll) :
    state.Polled id poll.stage.account := by
  rw [Polled, life, found]
  rfl

theorem life_setPoll_self (poll : Poll) :
    (state.setPoll id poll).life id = { state.life id with polled := some poll.stage.account } := by
  have polled : (state.setPoll id poll).polls.get id = some poll := get_set_self _ _ _
  rw [life, polled]
  rfl

theorem life_setPoll_of_ne (apart : other ≠ id) (poll : Poll) :
    (state.setPoll id poll).life other = state.life other := by
  have polled : (state.setPoll id poll).polls.get other = state.polls.get other :=
    get_set_of_ne (fun same => apart same.symm) _ _
  rw [life, polled]
  rfl

theorem life_setStage_self (polled : state.Polled id account) (stage : PollStage) :
    (state.setStage id stage).life id = { state.life id with polled := some stage.account } := by
  rw [Polled, life, Option.map_eq_some_iff] at polled
  obtain ⟨poll, found, -⟩ := polled
  have set : (state.setStage id stage).polls.get id = some { poll with stage } := by
    rw [setStage, get_modify, if_pos rfl, found]
    rfl
  rw [life, set]
  rfl

theorem life_setStage_of_ne (apart : other ≠ id) (stage : PollStage) :
    (state.setStage id stage).life other = state.life other := by
  have polled : (state.setStage id stage).polls.get other = state.polls.get other := by
    rw [setStage, get_modify, if_neg fun same => apart same.symm]
  rw [life, polled]
  rfl

/-- The poll goes on and has committed what it had. -/
theorem moves_setStage {stage : PollStage} (polled : state.Polled id stage.account) :
    Moves state (state.setStage id stage) := by
  refine Moves.of_same fun other => ?_
  by_cases same : other = id
  · subst same
    rw [life_setStage_self polled, ← polled]
  · exact life_setStage_of_ne same stage

/-- The cancels that wait for the poll get its result, the others none. -/
theorem waiting_settle (other : FlowId) (result : SettlementResult) (cancel : CancelId) :
    ((state.settle id result).life other).waiting cancel =
      if other = id then (state.life id).settle result cancel
      else (state.life other).waiting cancel := by
  have settled : (state.settle id result).cancels.get cancel =
      (state.cancels.get cancel).map fun cancel =>
        if cancel.flow = id ∧ cancel.result = none then { cancel with result := some result }
        else cancel := get_mapValues _ _ _
  simp only [life, FlowLife.settle]
  rw [settled]
  cases state.cancels.get cancel with
  | none =>
    split <;> rfl
  | some entry =>
    obtain ⟨flow, outcome⟩ := entry
    by_cases same : other = id
    · subst same
      by_cases own : flow = other
      · cases outcome <;> simp [own]
      · simp [own]
    · by_cases own : flow = id
      · subst own
        have apart : flow ≠ other := fun eq => same eq.symm
        cases outcome <;> simp [same, apart]
      · simp [own, same]

theorem life_endPoll_self (result : SettlementResult) (answers : List FlowAnswer) :
    (state.endPoll id result answers).life id =
      (state.life id).finish result (state.life id).entry (answers.map .answered) := by
  have polled : (state.endPoll id result answers).polls.get id = none := by
    rw [endPoll, get_erase, if_pos rfl]
  have waiting : ((state.endPoll id result answers).life id).waiting =
      (state.life id).settle result := by
    funext cancel
    exact (waiting_settle id result cancel).trans (if_pos rfl)
  have log : (state.endPoll id result answers).history id =
      state.history id ++ answers.map .answered := by
    rw [history, endPoll, List.filterMap_append, List.filterMap_map]
    congr 1
    rw [← List.filterMap_eq_map]
    congr 1
    funext answer
    exact if_pos rfl
  rw [FlowLife.finish, ← waiting, ite_self]
  show FlowLife.mk _ _ _ _ _ _ = FlowLife.mk _ _ _ _ _ _
  rw [polled, log]
  rfl

theorem life_endPoll_of_ne (apart : other ≠ id) (result : SettlementResult)
    (answers : List FlowAnswer) :
    (state.endPoll id result answers).life other = state.life other := by
  have polled : (state.endPoll id result answers).polls.get other = state.polls.get other := by
    rw [endPoll, get_erase, if_neg fun same => apart same.symm]
    rfl
  have waiting : ((state.endPoll id result answers).life other).waiting =
      (state.life other).waiting := by
    funext cancel
    exact (waiting_settle other result cancel).trans (if_neg apart)
  have log : (state.endPoll id result answers).history other = state.history other := by
    have others : (answers.map fun answer => (id, FlowEvent.answered answer)).filterMap
        (fun entry => if entry.1 = other then some entry.2 else none) = [] := by
      rw [List.filterMap_eq_nil_iff]
      intro entry member
      obtain ⟨answer, -, rfl⟩ := List.mem_map.mp member
      exact if_neg fun same => apart same.symm
    rw [history, endPoll, List.filterMap_append, others, List.append_nil]
    rfl
  show FlowLife.mk _ _ _ _ _ _ = FlowLife.mk _ _ _ _ _ _
  rw [polled, log]
  exact congrArg (fun waiting => FlowLife.mk _ _ _ waiting _ _) waiting

/-- A poll ends without a status. -/
theorem moves_endPoll {result : SettlementResult} (moved : FlowLife.Move (state.life id)
      ((state.life id).finish result (state.life id).entry (answers.map .answered))) :
    Moves state (state.endPoll id result answers) :=
  Moves.of_move id (by rwa [life_endPoll_self]) fun _ apart => life_endPoll_of_ne apart _ _

/-- A poll ends with a status and remembers it. -/
theorem moves_report (moved : FlowLife.Move (state.life id)
      ((state.life id).finish (settlementOf status) (.terminal status)
        [.answered (.status status)])) : Moves state (state.report id status) := by
  intro other
  by_cases same : other = id
  · subst same
    refine .single ?_
    rw [report, life_endPoll_self, life_rememberTerminal_self]
    convert moved using 1
    simp only [FlowLife.finish, List.map_cons, List.map_nil]
    have closed : (state.life other).closed = state.closed := rfl
    rw [closed]
    cases state.closed <;> rfl
  · rw [report, life_endPoll_of_ne same]
    exact state.moves_rememberTerminal_of_ne id same status

theorem moves_reportFailure (polled : state.Polled id none)
    (notComplete : ∀ account, status ≠ .complete account) :
      Moves state (state.report id status) := by
  apply moves_report
  have settlement : settlementOf status = .canceled := by
    cases status with
    | complete account => exact absurd rfl (notComplete account)
    | expired | denied | failed => rfl
  rw [settlement]
  exact .fail polled notComplete

theorem moves_reportComplete {account : AccountId} (polled : state.Polled id (some account)) :
    Moves state (state.report id (.complete account)) :=
  moves_report (.complete polled)

theorem moves_catchError {failure : OAuthFailure} (polled : state.Polled id none)
    (rethrown : answers = [] ∨ answers = [.notFound] ∧ state.closed = true) :
    Moves state (state.catchError id poll failure answers) := by
  unfold catchError
  split
  · exact moves_reportFailure polled nofun
  split
  · exact moves_reportFailure polled nofun
  rcases rethrown with rfl | ⟨rfl, closed⟩
  · exact moves_endPoll (.throw polled)
  · exact moves_endPoll (.lose polled closed)

theorem moves_commitUser (polled : state.Polled id none) :
    Moves state (state.commitUser id poll) := by
  unfold commitUser
  split
  · exact moves_catchError polled (.inl rfl)
  · exact moves_setStage polled

theorem moves_waitForAuthorizedRetry {call : AuthorizedCall} (polled : state.Polled id none) :
    Moves state (state.waitForAuthorizedRetry id poll call) := by
  unfold waitForAuthorizedRetry
  split
  · exact moves_catchError polled (.inl rfl)
  · exact moves_setStage polled

theorem moves_postpone (polled : state.Polled id none) (pending : state.Pending id) :
    Moves state (state.postpone id) :=
  moves_endPoll (.postpone _ _ polled ((state.life_entry_pending id).mpr pending))

/-- A poll that is not pending any more belongs to a closed service. -/
theorem closed_of_polled (sound : (state.life id).Sound) (polled : state.Polled id account)
    (ended : ¬ state.Pending id) : state.closed = true := by
  have inFlight : (state.life id).polled ≠ none := by
    rw [polled]
    exact Option.some_ne_none _
  rcases sound.pollPending inFlight with pending | ⟨closed, -⟩
  · exact absurd ((state.life_entry_pending id).mp pending) ended
  · exact closed

theorem moves_unauthorized (sound : (state.life id).Sound) {result : ExchangeResult}
    (polled : state.Polled id none) : Moves state (state.unauthorized id poll result) := by
  unfold unauthorized
  split
  · exact moves_catchError polled (.inl rfl)
  split
  case isTrue ended =>
    exact moves_catchError polled (.inr ⟨rfl, closed_of_polled sound polled ended⟩)
  case isFalse kept =>
    have pending : state.Pending id := not_not.mp kept
    split
    · exact moves_reportFailure polled (by rintro _ ⟨⟩)
    split
    · exact moves_postpone polled pending
    · refine (moves_change _).trans (moves_postpone ?_ ?_)
      · exact polled
      · exact pending
    · exact moves_reportFailure polled (by rintro _ ⟨⟩)
    · exact moves_reportFailure polled (by rintro _ ⟨⟩)
    · exact moves_reportFailure polled (by rintro _ ⟨⟩)

/-- No cancel of the flow is still on its way. -/
def Alone (state : DeviceFlowService) (id : FlowId) : Prop :=
  ∀ cancel ∈ state.cancels.values, cancel.flow ≠ id

theorem Alone.waiting (alone : state.Alone id) (cancel : CancelId) :
    (state.life id).waiting cancel = none := by
  show (state.cancels.get cancel).bind _ = none
  cases found : state.cancels.get cancel with
  | none => rfl
  | some entry =>
    have apart := alone entry (mem_values.mpr ⟨cancel, found⟩)
    exact if_neg apart

theorem idle_of_has (idle : state.polls.has id = false) : (state.life id).polled = none := by
  rw [has, Option.isSome_eq_false_iff, Option.isNone_iff_eq_none] at idle
  rw [life, idle]
  rfl

theorem moves_beginPoll (isOpen : state.closed = false) (pending : state.Pending id)
    (idle : state.polls.has id = false) (alone : state.Alone id) :
    Moves state (state.beginPoll id aborted) := by
  rw [beginPoll]
  have begins : Moves state
      ((state.change id (scheduleNext (state.pendings id) state.nowMs)).setPoll
      id ⟨state.nowMs, aborted, .exchanging⟩) := by
    refine (moves_change _).trans (Moves.of_move id ?_ fun other apart =>
      life_setPoll_of_ne apart _)
    rw [life_setPoll_self]
    exact .begin ((state.life_entry_pending id).mpr pending) (idle_of_has idle) isOpen alone.waiting
  have polled : ((state.change id (scheduleNext (state.pendings id) state.nowMs)).setPoll
      id ⟨state.nowMs, aborted, .exchanging⟩).Polled id none := by
    rw [Polled, life_setPoll_self]
    rfl
  split
  · exact begins
  · exact begins.trans (moves_setStage polled)
  · exact begins.trans (moves_commitUser polled)

theorem moves_answerPending {flow : PendingFlow} {nextPollAtMs : Nat}
    (isPending : state.Pending id) :
    Moves state (state.answer id (pending flow nextPollAtMs)) :=
  state.moves_note id (.unfinished _ _ ((state.life_entry_pending id).mpr isPending))

theorem moves_pollPending (isOpen : state.closed = false) (pending : state.Pending id)
    (alone : state.ready id = true → state.Alone id) :
    Moves state (state.pollPending id (state.pendings id) aborted) := by
  unfold pollPending
  split
  case isTrue =>
    split
    · exact moves_answerPending pending
    case isFalse idle =>
      refine (state.moves_rememberExpired id pending (Bool.not_eq_true _ ▸ idle)).trans ?_
      refine moves_note _ id (.read ?_)
      rw [life_rememberTerminal_self, isOpen]
      rfl
  case isFalse live =>
    split
    · exact moves_answerPending pending
    case isFalse idle =>
      split
      · exact moves_answerPending pending
      case isFalse due =>
        have idle : state.polls.has id = false := Bool.not_eq_true _ ▸ idle
        refine moves_beginPoll isOpen pending idle (alone ?_)
        have isPending : state.flows.get id = some .pending := pending
        simp [ready, isPending, idle, Nat.lt_of_not_le live, Nat.le_of_not_lt due]

theorem moves_poll (alone : state.ready id = true → state.Alone id) :
    Moves state (state.poll id aborted) := by
  unfold poll
  split
  · exact .refl state
  case isFalse goes =>
    have isOpen : state.closed = false := by
      cases opened : state.closed with
      | false => rfl
      | true => simp [opened] at goes
    split
    case h_1 absent =>
      refine state.moves_note id (.missing ?_)
      rw [life, absent]
      rfl
    case h_2 status expiresAtMs found =>
      split
      · refine (state.moves_drop id found).trans (moves_note _ id (.missing ?_))
        rw [life_note_self, life_removeFlow_self]
        rfl
      · refine state.moves_note id (.read ?_)
        rw [life, found]
        rfl
    case h_3 found => exact moves_pollPending isOpen found alone

theorem moves_abortPoll (went : state.abortPoll id = some next) : Moves state next := by
  unfold abortPoll at went
  split at went
  · cases went
  case h_2 poll found =>
    cases went
    refine Moves.of_same fun other => ?_
    by_cases same : other = id
    · subst same
      rw [life_setPoll_self, ← polled_of_get found]
    · exact life_setPoll_of_ne same _

theorem moves_exchanged (sound : (state.life id).Sound)
    {outcome : Except OAuthFailure ExchangeResult}
    (went : state.exchanged id outcome = some next) : Moves state next := by
  unfold exchanged at went
  split at went
  case h_1 startedAtMs aborted found =>
    have polled : state.Polled id none := polled_of_get found
    split at went
    · cases went
      exact moves_catchError polled (.inl rfl)
    · cases went
      refine (moves_change _).trans (moves_setStage ?_)
      exact polled
    · cases went
      refine (moves_change _).trans (moves_commitUser ?_)
      exact polled
    · cases went
      exact moves_unauthorized sound polled
  case h_2 => cases went

theorem moves_fetched {outcome : Except OAuthFailure GitHubUser}
    (went : state.fetched id outcome = some next) : Moves state next := by
  unfold fetched at went
  split at went
  case h_1 startedAtMs aborted found =>
    have polled : state.Polled id none := polled_of_get found
    split at went
    · cases went
      refine (moves_change _).trans (moves_commitUser ?_)
      exact polled
    · cases went
      exact moves_catchError polled (.inl rfl)
    · cases went
      exact moves_waitForAuthorizedRetry polled
  case h_2 => cases went

theorem moves_retry (went : state.retry id = some next) : Moves state next := by
  unfold retry at went
  split at went
  case h_1 call found =>
    have polled : state.Polled id none := polled_of_get found
    split at went
    · cases went
    · split at went <;> cases went <;> exact moves_setStage polled
  case h_2 => cases went

theorem moves_giveUp (went : state.giveUp id = some next) : Moves state next := by
  unfold giveUp at went
  split at went
  case h_1 startedAtMs aborted call found =>
    split at went
    · cases went
      exact moves_catchError (polled_of_get found) (.inl rfl)
    · cases went
  case h_2 => cases went

theorem moves_commit {account : AccountId} (went : state.commit id account = some next) :
    Moves state next := by
  unfold commit at went
  split at went
  case h_1 found =>
    have polled : state.Polled id none := polled_of_get found
    split at went
    · cases went
    · cases went
      refine Moves.of_move id ?_ fun other apart => ?_
      · rw [life_note_self, life_setStage_self polled]
        exact .commit account polled
      · rw [life_note_of_ne _ _ apart, life_setStage_of_ne apart]
  case h_2 => cases went

theorem moves_upserted {outcome : UpsertOutcome} (went : state.upserted id outcome = some next) :
    Moves state next := by
  unfold upserted at went
  split at went
  case h_1 found =>
    cases went
    exact moves_catchError (polled_of_get found) (.inl rfl)
  case h_2 found =>
    cases went
    exact moves_waitForAuthorizedRetry (polled_of_get found)
  case h_3 found =>
    cases went
    exact moves_reportComplete (polled_of_get found)
  case h_4 found =>
    cases went
    exact moves_setStage (polled_of_get found)
  case h_5 => cases went

theorem moves_cleaned {succeeded : Bool} (went : state.cleaned id succeeded = some next) :
    Moves state next := by
  unfold cleaned at went
  split at went
  case h_1 found =>
    split at went
    · cases went
      exact moves_reportComplete (polled_of_get found)
    · cases went
      exact moves_setStage (polled_of_get found)
  case h_2 => cases went

/-! ## `cancel` and timers -/

/-- A cancel takes a flow away that has no poll in flight. -/
theorem moves_removeCanceled {flow : Flow} (found : state.flows.get id = some flow)
    (notComplete : ∀ account expiresAtMs, flow ≠ .terminal (.complete account) expiresAtMs)
    (idle : (state.life id).polled = none) :
    Moves state ((state.removeFlow id).answer id .canceled) := by
  have entry : (state.life id).entry = entryOf (some flow) := congrArg entryOf found
  refine Moves.of_move id ?_ fun other apart => ?_
  · rw [answer, life_note_self, life_removeFlow_self]
    refine .discard ?_ (fun account isComplete => ?_) idle
    · rw [entry]
      cases flow <;> exact nofun
    · rw [entry] at isComplete
      cases flow with
      | pending => cases isComplete
      | terminal status expiresAtMs =>
        cases isComplete
        exact notComplete account expiresAtMs rfl
  · rw [answer, life_note_of_ne _ _ apart, life_removeFlow_of_ne _ _ apart]

/-- A flow that has ended has no poll in flight. -/
theorem idle_of_terminal (sound : (state.life id).Sound)
    (found : state.flows.get id = some (.terminal status expiresAtMs)) :
    (state.life id).polled = none := by
  by_contra inFlight
  have entry : (state.life id).entry = .terminal status := congrArg entryOf found
  rcases sound.pollPending inFlight with pending | ⟨-, absent⟩
  · cases entry.symm.trans pending
  · cases entry.symm.trans absent

theorem moves_awaitSettlement (kept : Kept state) (pending : state.Pending id)
    (polled : state.polls.has id = true) : Moves state (state.awaitSettlement id) := by
  have unused : state.cancels.get state.nextCancel = none := by
    by_contra isSet
    exact Nat.lt_irrefl _ (kept.cancels _ isSet)
  have waiting (other : FlowId) (cancel : CancelId) :
      ((state.awaitSettlement id).life other).waiting cancel =
        if cancel = state.nextCancel then if id = other then some none else none
        else (state.life other).waiting cancel := by
    show ((state.cancels.set state.nextCancel ⟨id, none⟩).get cancel).bind _ = _
    rw [get_set]
    by_cases same : state.nextCancel = cancel
    · rw [if_pos same, if_pos same.symm]
      rfl
    · rw [if_neg same, if_neg fun eq => same eq.symm]
      rfl
  refine Moves.of_move id ?_ fun other apart => ?_
  · have same : (state.awaitSettlement id).life id = { state.life id with
        waiting := Function.update (state.life id).waiting state.nextCancel (some none) } := by
      show FlowLife.mk _ _ _ ((state.awaitSettlement id).life id).waiting _ _ = _
      congr 1
      funext cancel
      rw [waiting, Function.update_apply, if_pos rfl]
    rw [same]
    refine .wait state.nextCancel ?_ ((state.life_entry_pending id).mpr pending)
    rw [has, Option.isSome_iff_exists] at polled
    obtain ⟨poll, found⟩ := polled
    rw [polled_of_get found]
    exact Option.some_ne_none _
  · show FlowLife.mk _ _ _ ((state.awaitSettlement id).life other).waiting _ _ = _
    have same : ((state.awaitSettlement id).life other).waiting = (state.life other).waiting := by
      funext cancel
      rw [waiting, if_neg fun eq : id = other => apart eq.symm]
      split
      case isTrue new =>
        subst new
        show none = (state.cancels.get state.nextCancel).bind _
        rw [unused]
        rfl
      case isFalse => rfl
    rw [same]
    rfl

theorem moves_cancel (kept : Kept state) (sound : (state.life id).Sound) :
    Moves state (state.cancel id) := by
  unfold cancel
  split
  case h_1 absent => exact state.moves_note id (.missing (congrArg entryOf absent))
  case h_2 found => exact state.moves_note id (.read (congrArg entryOf found))
  case h_3 status expiresAtMs notComplete found =>
    refine moves_removeCanceled found (fun account _ same => ?_) (idle_of_terminal sound found)
    exact notComplete account (Flow.terminal.inj same).1
  case h_4 found =>
    split
    case isTrue polled =>
      refine (moves_change _).trans (moves_awaitSettlement ?_ ?_ ?_)
      · exact kept.recedes (state.recedes_abortCancellation id)
      · exact found
      · exact polled
    case isFalse idle =>
      exact moves_removeCanceled found (by rintro _ _ ⟨⟩) (idle_of_has (Bool.not_eq_true _ ▸ idle))

theorem waiting_eraseCancel {result : Option SettlementResult}
    (found : state.cancels.get cancel = some ⟨id, result⟩) (other : FlowId) :
    (life { state with cancels := state.cancels.erase cancel } other).waiting =
      if other = id then Function.update (state.life id).waiting cancel none
      else (state.life other).waiting := by
  funext call
  show ((state.cancels.erase cancel).get call).bind _ = _
  rw [get_erase]
  by_cases same : cancel = call
  · subst same
    rw [if_pos rfl]
    split
    · rw [Function.update_self]
      rfl
    case isFalse apart =>
      show none = (state.cancels.get cancel).bind _
      rw [found]
      exact (if_neg fun eq => apart eq.symm).symm
  · rw [if_neg same]
    split
    case isTrue own =>
      rw [Function.update_of_ne fun eq => same eq.symm, own]
      rfl
    case isFalse => rfl

theorem moves_cancelEnds (went : state.cancelEnds cancel = some next) : Moves state next := by
  unfold cancelEnds at went
  split at went
  case h_1 id result found =>
    have due : (state.life id).waiting cancel = some (some result) := by
      show (state.cancels.get cancel).bind _ = _
      rw [found]
      exact if_pos rfl
    have erased : life { state with cancels := state.cancels.erase cancel } id =
        { state.life id with waiting := Function.update (state.life id).waiting cancel none } := by
      show FlowLife.mk _ _ _ (life { state with cancels := _ } id).waiting _ _ = _
      rw [waiting_eraseCancel found, if_pos rfl]
      rfl
    have others (other : FlowId) (apart : other ≠ id) :
        life { state with cancels := state.cancels.erase cancel } other = state.life other := by
      show FlowLife.mk _ _ _ (life { state with cancels := _ } other).waiting _ _ = _
      rw [waiting_eraseCancel found, if_neg apart]
      rfl
    have wakes := FlowLife.Move.wake due
    cases went
    refine Moves.of_move id ?_ fun other apart => ?_
    · rw [answer, life_note_self]
      convert wakes using 1
      split
      case isTrue taken =>
        have entry : result = .canceled ∧ (state.life id).entry = .pending :=
          ⟨taken.1, (state.life_entry_pending id).mpr taken.2⟩
        rw [life_removeFlow_self, erased, if_pos entry]
        rfl
      case isFalse kept =>
        have entry : ¬ (result = .canceled ∧ (state.life id).entry = .pending) :=
          fun both => kept ⟨both.1, (state.life_entry_pending id).mp both.2⟩
        rw [erased, if_neg entry]
        rfl
    · rw [answer, life_note_of_ne _ _ apart]
      split
      · rw [life_removeFlow_of_ne _ _ apart, others other apart]
      · exact others other apart
  case h_2 => cases went

theorem moves_expire (went : state.expire id = some next) : Moves state next := by
  unfold expire at went
  split at went
  · cases went
  · dsimp only at went
    split at went
    case isTrue pending =>
      split at went
      · cases went
        exact Moves.of_same fun _ => rfl
      case isFalse idle =>
        cases went
        have same : Moves state ((state.clearTimer id).abortFlow id) := Moves.of_same fun _ => rfl
        exact same.trans (moves_rememberExpired _ id pending (Bool.not_eq_true _ ▸ idle))
    case isFalse =>
      cases went
      exact Moves.of_same fun _ => rfl
  · cases went
    exact Moves.of_same fun _ => rfl

theorem moves_forget (went : state.forget id = some next) : Moves state next := by
  unfold forget at went
  split at went
  case h_1 found =>
    cases went
    exact state.moves_drop id found
  case h_2 => cases went

/-! ## The end of the service -/

theorem closed_removeFlow (id : FlowId) : (state.removeFlow id).closed = state.closed := by
  unfold removeFlow
  split <;> rfl

/-- A closed service forgets a flow. -/
theorem moves_removeFlow (closed : state.closed = true) (id : FlowId) :
    Moves state (state.removeFlow id) := by
  refine Moves.of_move id ?_ fun other apart => life_removeFlow_of_ne _ _ apart
  rw [life_removeFlow_self]
  have isClosed : (state.life id).closed = true := closed
  have forgets : FlowLife.Move (state.life id) _ := .close .absent (.inr rfl)
  rwa [← isClosed] at forgets

/-- A loop of a closed service. -/
theorem moves_foldl {turn : DeviceFlowService → FlowId → DeviceFlowService}
    (each : ∀ state id, state.closed = true →
      Moves state (turn state id) ∧ (turn state id).closed = true) (keys : List FlowId)
    (closed : state.closed = true) : Moves state (keys.foldl turn state) := by
  induction keys generalizing state with
  | nil => exact .refl state
  | cons id keys ih => exact (each state id closed).1.trans (ih (each state id closed).2)

theorem moves_removeAll (closed : state.closed = true) : Moves state state.removeAll :=
  moves_foldl (fun state id closed =>
    ⟨moves_removeFlow closed id, (state.closed_removeFlow id).trans closed⟩) _ closed

theorem moves_shut : Moves state state.shut := by
  intro id
  exact .single (.close (state.life id).entry (.inl rfl))

theorem moves_close : Moves state state.close := by
  unfold close
  split
  · exact .refl state
  · have closes : Moves state { state.shut with closing := true } :=
      moves_shut.trans (Moves.of_same fun _ => rfl)
    refine closes.trans (moves_foldl (fun state id closed => ?_) _ rfl)
    unfold closeFlow
    split
    · exact ⟨Moves.of_same fun _ => rfl, closed⟩
    · exact ⟨moves_removeFlow closed id, (state.closed_removeFlow id).trans closed⟩

theorem moves_finishClose (kept : Kept state) (went : state.finishClose = some next) :
    Moves state next := by
  unfold finishClose at went
  split at went
  case isTrue closing =>
    cases went
    exact (moves_removeAll (kept.closing closing.1)).trans (Moves.of_same fun _ => rfl)
  case isFalse => cases went

theorem moves_forceClose : Moves state state.forceClose := by
  unfold forceClose
  split
  · exact .refl state
  · have closes : Moves state { state.shut with forceClosed := true } :=
      moves_shut.trans (Moves.of_same fun _ => rfl)
    exact closes.trans (moves_removeAll rfl)

/-! ## `start` -/

theorem moves_endStart (start : StartId) (outcome : Except StartFailure DeviceFlowSnapshot) :
    Moves state (state.endStart start outcome) :=
  Moves.of_same fun _ => rfl

theorem moves_start {resolveGitHubEnvironment : String → Option GitHubEnvironment} {host : String}
    (calm : state.closed = false → state.Calm) :
    Moves state (state.start resolveGitHubEnvironment host aborted) := by
  have numbered : Moves state { state with nextStart := state.nextStart + 1 } :=
    Moves.of_same fun _ => rfl
  unfold start
  dsimp only
  split
  · exact numbered.trans (Moves.of_same fun _ => rfl)
  case isFalse opened =>
    split
    · exact numbered.trans (Moves.of_same fun _ => rfl)
    · have collects : Moves { state with nextStart := state.nextStart + 1 }
          { state with nextStart := state.nextStart + 1 }.gc :=
        moves_gc _ (calm (Bool.eq_false_iff.mpr opened))
      have collected := numbered.trans collects
      split
      · exact collected.trans (Moves.of_same fun _ => rfl)
      · split <;> exact collected.trans (Moves.of_same fun _ => rfl)

theorem moves_addFlow (flow : PendingFlow) : Moves state (state.addFlow flow) := by
  refine Moves.of_move state.nextFlow ?_ fun other apart => ?_
  · have unborn : (state.life state.nextFlow).born = false := decide_eq_false (Nat.lt_irrefl _)
    have made : (state.addFlow flow).life state.nextFlow =
        { state.life state.nextFlow with born := true, entry := .pending } := by
      have entry : (state.addFlow flow).flows.get state.nextFlow = some .pending :=
        get_set_self _ _ _
      have born : decide (state.nextFlow < state.nextFlow + 1) = true :=
        decide_eq_true (Nat.lt_succ_self _)
      rw [life, entry]
      exact congrArg (fun born => FlowLife.mk born _ _ _ _ _) born
    rw [made]
    exact .create unborn
  · have entry : (state.addFlow flow).flows.get other = state.flows.get other :=
      get_set_of_ne (fun same => apart same.symm) _ _
    have born : decide (other < state.nextFlow + 1) = decide (other < state.nextFlow) := by
      rw [decide_eq_decide, Nat.lt_succ_iff_lt_or_eq, or_iff_left apart]
    rw [life, entry]
    exact congrArg (fun born => FlowLife.mk born _ _ _ _ _) born

theorem moves_requested {start : StartId} {code : Option DeviceCode}
    (went : state.requested start code = some next) : Moves state next := by
  unfold requested at went
  split at went
  · cases went
  · split at went
    · cases went
      exact Moves.of_same fun _ => rfl
    · split at went
      · cases went
        exact Moves.of_same fun _ => rfl
      · cases went
        have ended : Moves state { state with
            starts := state.starts.erase start
            startingFlows := state.startingFlows - 1 } := Moves.of_same fun _ => rfl
        exact (ended.trans (moves_addFlow _)).trans (moves_endStart _ _)

end DeviceFlowService

/-! ## The steps of the service -/

/-- The steps that are told of: a `start` finds no expired flow with a poll in flight, and
no poll begins while a cancel of its flow is still on its way. -/
def Orderly (state : DeviceFlowService) : DeviceFlowStep → Prop
  | .start _ _ => state.closed = false → state.Calm
  | .poll id _ => state.ready id = true → state.Alone id
  | _ => True

namespace DeviceFlowService

variable {state next : DeviceFlowService}
  {resolveGitHubEnvironment : String → Option GitHubEnvironment} {label : DeviceFlowStep}

def Sound (state : DeviceFlowService) : Prop := ∀ id, (state.life id).Sound

theorem Sound.initial : Sound .initial := fun _ => FlowLife.Sound.unborn false

theorem Sound.moves (sound : state.Sound) (moves : Moves state next) : next.Sound := by
  intro id
  have moves := moves id
  generalize next.life id = later at moves
  induction moves with
  | refl => exact sound id
  | tail _ moved ih => exact ih.move moved

/-- An orderly step is a few moves of each flow. -/
theorem moves_step (kept : Kept state) (sound : state.Sound) (orderly : Orderly state label)
    (stepped : (deviceFlows resolveGitHubEnvironment).step state label = some next) :
    Moves state next := by
  cases label with
  | start host aborted =>
    cases stepped
    exact moves_start orderly
  | abortStart start =>
    unfold deviceFlows at stepped
    change state.abortStart start = some next at stepped
    unfold abortStart at stepped
    split at stepped
    · cases stepped
    · cases stepped
      exact Moves.of_same fun _ => rfl
  | requested start code => exact moves_requested stepped
  | poll id aborted =>
    cases stepped
    exact moves_poll orderly
  | abortPoll id => exact moves_abortPoll stepped
  | exchanged id outcome => exact moves_exchanged (sound id) stepped
  | fetched id outcome => exact moves_fetched stepped
  | retry id => exact moves_retry stepped
  | giveUp id => exact moves_giveUp stepped
  | commit id account => exact moves_commit stepped
  | upserted id outcome => exact moves_upserted stepped
  | cleaned id succeeded => exact moves_cleaned stepped
  | cancel id =>
    cases stepped
    exact moves_cancel kept (sound id)
  | cancelEnds cancel => exact moves_cancelEnds stepped
  | expire id => exact moves_expire stepped
  | forget id => exact moves_forget stepped
  | close =>
    cases stepped
    exact moves_close
  | finishClose => exact moves_finishClose kept stepped
  | forceClose =>
    cases stepped
    exact moves_forceClose
  | tick ms =>
    cases stepped
    exact Moves.of_same fun _ => rfl

end DeviceFlowService

end GhcGateway.Accounts
