/-
# Any schedule of the account coordinator

What the lanes keep from one step to the next, carried along every schedule: works of one
owner run one at a time and begin in the order of arrival, one that was withdrawn never
begins, no owner has two lanes with work, and a drain is over exactly when nothing is queued
or running.
-/

import GhcGateway.Accounts.AccountCoordinatorLanes

namespace GhcGateway.Accounts.Coordination

open Library

variable {state next : Coordination} {label : CoordinatorStep} {id : LaneId}

/-! ## One step -/

theorem Lanes.called (lanes : Lanes none state) :
    Lanes none { state with calls := state.calls + 1 } :=
  ⟨lanes.made, lanes.live, lanes.registered, lanes.busy, lanes.runs, lanes.alone,
    fun entry member => Nat.lt_succ_of_lt (lanes.known entry member), lanes.orderly⟩

theorem Lanes.not_arrived (lanes : Lanes none state) (owner : LaneOwner) :
    state.calls ∉ (state.turns owner).arrived :=
  fun member => Nat.lt_irrefl _ (lanes.known _ (mem_ofOwner.mp member))

/-- One owner's turns move or none do. -/
def OneMoves (state next : Coordination) : Prop :=
  ∃ owner, (next.turns owner = state.turns owner ∨
      Turns.Move (state.turns owner) (next.turns owner)) ∧
    ∀ other, other ≠ owner → next.turns other = state.turns other

theorem oneMoves_of_turns (same : ∀ owner, next.turns owner = state.turns owner) :
    OneMoves state next := ⟨.lifecycle, .inl (same _), fun other _ => same other⟩

/-- The turns of one owner move, the others stay. -/
theorem oneMoves_of_move (owner : LaneOwner) (move : Turns WorkId → Turns WorkId)
    (turns : Coordination.Shifts owner move state next)
    (moved : Turns.Move (state.turns owner) (move (state.turns owner))) : OneMoves state next := by
  refine ⟨owner, .inr ?_, fun other apart => ?_⟩
  · rw [turns, if_pos rfl]
    exact moved
  · rw [turns, if_neg apart]

theorem Lanes.withLifecycle (lanes : Lanes none state) (aborted : Bool) :
    Lanes none (state.withLifecycle aborted) ∧ OneMoves state (state.withLifecycle aborted) := by
  rw [Coordination.withLifecycle]
  split
  case isTrue => exact ⟨lanes.called, oneMoves_of_turns fun _ => rfl⟩
  case isFalse =>
    have placed : ({ state with calls := state.calls + 1 } : Coordination).laneOf
        lifecycle.owner = some lifecycle := rfl
    obtain ⟨kept, turns⟩ := lanes.called.run placed lanes.made (.inl rfl) lanes.known
      (Nat.lt_succ_self state.calls)
    have moves : Turns.Move (state.turns .lifecycle)
        ((state.turns .lifecycle).arrive state.calls) :=
      .arrive _ (lanes.not_arrived .lifecycle)
    exact ⟨kept, oneMoves_of_move .lifecycle (·.arrive state.calls) turns moves⟩

theorem Lanes.withCredentialGeneration (lanes : Lanes none state) (accountId : JsString)
    (aborted : Bool) :
    Lanes none (state.withCredentialGeneration accountId aborted) ∧
      OneMoves state (state.withCredentialGeneration accountId aborted) := by
  rw [Coordination.withCredentialGeneration]
  split
  case isTrue => exact ⟨lanes.called, oneMoves_of_turns fun _ => rfl⟩
  case isFalse =>
    obtain ⟨made, generations, shape, ready, isOwner, inside, found, same⟩ :=
      lanes.called.generationLane accountId
    dsimp only
    generalize { state with calls := state.calls + 1 }.generationLane accountId = lane at *
    obtain ⟨id, middle⟩ := lane
    dsimp only at *
    have placed : middle.laneOf id.owner = some id := by
      rw [isOwner, shape]
      exact found
    have fresh : ∀ entry ∈ middle.arrived, entry.2 < state.calls := by
      rw [shape]
      exact lanes.known
    have called : state.calls < middle.calls := by
      rw [shape]
      exact Nat.lt_succ_self state.calls
    obtain ⟨kept, turns⟩ := ready.run placed (by rw [shape]; exact inside) (.inr rfl) fresh called
    have sameTurns (owner : LaneOwner) : middle.turns owner = state.turns owner := same owner
    have moves : Turns.Move (state.turns id.owner) ((state.turns id.owner).arrive state.calls) :=
      .arrive _ (lanes.not_arrived id.owner)
    refine ⟨kept, oneMoves_of_move id.owner (·.arrive state.calls) (fun owner => ?_) moves⟩
    rw [turns, sameTurns]

/-- The invariant is kept by every step, and a step is one move of one owner's turns at most. -/
theorem Lanes.step (lanes : Lanes none state)
    (stepped : accountCoordinator.step state label = some next) :
    Lanes none next ∧ OneMoves state next := by
  cases label with
  | withLifecycle aborted =>
    cases stepped
    exact lanes.withLifecycle aborted
  | withCredentialGeneration accountId aborted =>
    cases stepped
    exact lanes.withCredentialGeneration accountId aborted
  | finish id work failed =>
    obtain ⟨member, kept, turns⟩ := lanes.finish stepped
    have moves : Turns.Move (state.turns id.owner) ((state.turns id.owner).finish work) :=
      .finish work (lanes.runningOf_of_mem member)
    exact ⟨kept, oneMoves_of_move id.owner (·.finish work) turns moves⟩
  | abort id work =>
    cases stepped
    obtain ⟨kept, ⟨-, turns⟩ | ⟨waits, turns⟩⟩ := lanes.abort id work
    · exact ⟨kept, oneMoves_of_turns turns⟩
    · exact ⟨kept, oneMoves_of_move id.owner (·.withdraw work) turns (.withdraw work waits)⟩
  | caught place =>
    obtain ⟨rejected, rfl⟩ := lanes.caught stepped
    exact ⟨⟨lanes.made, lanes.live, lanes.registered, lanes.busy, lanes.runs, lanes.alone,
      lanes.known, lanes.orderly⟩, oneMoves_of_turns fun _ => rfl⟩
  | stop =>
    cases stepped
    rw [stop]
    split
    · exact ⟨lanes, oneMoves_of_turns fun _ => rfl⟩
    · have stopped : Lanes none { state with stopped := true } :=
        ⟨lanes.made, lanes.live, lanes.registered, lanes.busy, lanes.runs, lanes.alone,
          lanes.known, lanes.orderly⟩
      exact ⟨stopped.changed, oneMoves_of_turns fun owner => changed_turns _ owner⟩
  | drain =>
    cases stepped
    rw [drain]
    split
    · exact ⟨⟨lanes.made, lanes.live, lanes.registered, lanes.busy, lanes.runs, lanes.alone,
        lanes.known, lanes.orderly⟩, oneMoves_of_turns fun _ => rfl⟩
    · exact ⟨⟨lanes.made, lanes.live, lanes.registered, lanes.busy, lanes.runs, lanes.alone,
        lanes.known, lanes.orderly⟩, oneMoves_of_turns fun _ => rfl⟩

/-! ## Drains -/

/-- Idle means that nothing is queued or running. -/
theorem Lanes.isIdle_iff (lanes : Lanes none state) : state.isIdle = true ↔ state.Quiet := by
  simp only [isIdle, Bool.and_eq_true, decide_eq_true_eq, List.length_eq_zero_iff]
  constructor
  · rintro ⟨noLifecycle, noGenerations⟩
    have inactive (id : LaneId) : ¬ (state.lane id).active = true := by
      intro active
      have placed := (lanes.live active).2
      cases isOwner : id.owner with
      | lifecycle =>
        rw [isOwner] at placed
        cases placed
        exact pending_ne_zero.mpr (.inl active) noLifecycle
      | generation accountId =>
        rw [isOwner] at placed
        have entry := OrderedMap.mem_entries.mpr placed
        rw [noGenerations] at entry
        cases entry
    refine ⟨List.eq_nil_iff_forall_not_mem.mpr fun entry runs => ?_, fun id => ?_⟩
    · exact inactive entry.1 (lanes.runs.mpr ⟨entry.2, runs⟩)
    · by_contra waits
      exact inactive id (lanes.busy waits)
  · rintro ⟨noneRuns, noneWaits⟩
    have inactive (id : LaneId) : ¬ (state.lane id).active = true := by
      intro active
      obtain ⟨work, runs⟩ := lanes.runs.mp active
      rw [noneRuns] at runs
      cases runs
    refine ⟨?_, List.eq_nil_iff_forall_not_mem.mpr fun entry member => ?_⟩
    · by_contra pending
      exact (pending_ne_zero.mp pending).elim (inactive _) fun waits => waits (noneWaits _)
    · have found : state.generations.get entry.1 = some entry.2 := OrderedMap.mem_entries.mp member
      exact inactive entry.2 ((lanes.registered found).2.resolve_right nofun)

/-- A step that ends by looking at the waiters, with the drains as they were. -/
def Looks (state next : Coordination) : Prop :=
  ∃ middle : Coordination, next = middle.changed ∧ middle.drained = state.drained ∧
    middle.drainWaiters = state.drainWaiters ∧ middle.drains = state.drains

theorem onChange_eq (state : Coordination) (id : LaneId) :
    ∃ generations, state.onChange id = { state with generations }.changed := by
  unfold onChange
  split
  · exact ⟨state.generations, rfl⟩
  · rw [generationChanged, forget]
    split
    · exact ⟨_, rfl⟩
    · exact ⟨state.generations, rfl⟩

theorem looks_run (state : Coordination) (id : LaneId) (work : WorkId) :
    Looks state (state.run id work) := by
  rw [run]
  split
  · obtain ⟨generations, shape⟩ := onChange_eq ({ state with
      arrived := state.arrived ++ [(id.owner, work)] }.setLane id
        { state.lane id with queue := (state.lane id).queue ++ [work] }) id
    exact ⟨_, shape, rfl, rfl, rfl⟩
  · obtain ⟨generations, shape⟩ := onChange_eq ({ state with
      arrived := state.arrived ++ [(id.owner, work)] }.setLane id
        { state.lane id with active := true }) id
    rw [shape]
    exact ⟨_, changed_admitWork _ id work, rfl, rfl, rfl⟩

theorem looks_rejected (state : Coordination) (id : LaneId) :
    Looks state ((state.reject id).onChange id) := by
  obtain ⟨rejected, shape⟩ := reject_eq state id
  obtain ⟨generations, changed⟩ := onChange_eq { state with rejected } id
  rw [shape, changed]
  exact ⟨_, rfl, rfl, rfl, rfl⟩

theorem looks_finish {work : WorkId} {failed : Bool}
    (finished : state.finish id work failed = some next) : Looks state next := by
  rw [finish] at finished
  split at finished
  case isFalse => cases finished
  case isTrue =>
    obtain ⟨rejected, shape⟩ := rejected_eq { state with
      running := state.running.erase (id, work)
      finished := state.finished ++ [(id.owner, work)] } id failed
    simp only [shape] at finished
    obtain ⟨generations, changed⟩ := onChange_eq ({ state with
      running := state.running.erase (id, work)
      finished := state.finished ++ [(id.owner, work)]
      rejected }.setLane id ⟨(state.lane id).queue ≠ [], (state.lane id).queue.tail⟩) id
    rw [changed] at finished
    split at finished
    · cases finished
      exact ⟨_, rfl, rfl, rfl, rfl⟩
    · cases finished
      exact ⟨_, changed_admitWork _ id _, rfl, rfl, rfl⟩

theorem Drains.changed (settled : state.drained ++ state.drainWaiters = List.range state.drains) :
    Drains state.changed ∧
      (state.changed.drained = state.drained ∨ state.changed.isIdle = true) := by
  by_cases idle : state.isIdle = true
  · have shape : state.changed =
        { state with drainWaiters := [], drained := state.drained ++ state.drainWaiters } :=
          if_pos idle
    rw [shape]
    exact ⟨⟨(List.append_nil _).trans settled, fun _ => rfl⟩, .inr idle⟩
  · have shape : state.changed = state := if_neg idle
    rw [shape]
    exact ⟨⟨settled, fun isIdle => absurd isIdle idle⟩, .inl rfl⟩

theorem Drains.looks (drains : Drains state) (looks : Looks state next) :
    Drains next ∧ (next.drained = state.drained ∨ next.isIdle = true) := by
  obtain ⟨middle, rfl, sameDrained, sameWaiters, sameDrains⟩ := looks
  rw [← sameDrained]
  apply Drains.changed
  rw [sameDrained, sameWaiters, sameDrains]
  exact drains.settled

/-- A drain is over after a step only if all is idle then. -/
theorem Drains.step (drains : Drains state) (lanes : Lanes none state)
    (stepped : accountCoordinator.step state label = some next) :
    Drains next ∧ (next.drained = state.drained ∨ next.isIdle = true) := by
  cases label with
  | withLifecycle aborted =>
    cases stepped
    rw [withLifecycle]
    split
    · exact ⟨⟨drains.settled, drains.released⟩, .inl rfl⟩
    · obtain ⟨middle, shape, same⟩ :=
        looks_run { state with calls := state.calls + 1 } lifecycle state.calls
      exact drains.looks ⟨middle, shape, same⟩
  | withCredentialGeneration accountId aborted =>
    cases stepped
    rw [withCredentialGeneration]
    split
    · exact ⟨⟨drains.settled, drains.released⟩, .inl rfl⟩
    · obtain ⟨made, generations, sameLane, -⟩ := lanes.called.generationLane accountId
      dsimp only
      rw [sameLane]
      obtain ⟨middle, shape, same⟩ := looks_run
        { state with calls := state.calls + 1, made, generations }
        ({ state with calls := state.calls + 1 }.generationLane accountId).1 state.calls
      exact drains.looks ⟨middle, shape, same⟩
  | finish id work failed => exact drains.looks (looks_finish stepped)
  | abort id work =>
    cases stepped
    rw [abort]
    split
    · obtain ⟨middle, shape, same⟩ := looks_rejected ({ state with
        withdrawn := state.withdrawn ++ [(id.owner, work)] }.setLane id
          { state.lane id with queue := (state.lane id).queue.erase work }) id
      exact drains.looks ⟨middle, shape, same⟩
    · exact ⟨drains, .inl rfl⟩
  | caught place =>
    obtain ⟨rejected, rfl⟩ := lanes.caught stepped
    exact ⟨⟨drains.settled, drains.released⟩, .inl rfl⟩
  | stop =>
    cases stepped
    rw [stop]
    split
    · exact ⟨drains, .inl rfl⟩
    · exact drains.looks ⟨{ state with stopped := true }, rfl, rfl, rfl, rfl⟩
  | drain =>
    cases stepped
    rw [drain]
    split
    case isTrue idle =>
      refine ⟨⟨?_, drains.released⟩, .inr idle⟩
      have settled := drains.settled
      rw [drains.released idle, List.append_nil] at settled
      show (state.drained ++ [state.drains]) ++ state.drainWaiters = List.range (state.drains + 1)
      rw [drains.released idle, List.append_nil, settled, List.range_succ]
    case isFalse busy =>
      refine ⟨⟨?_, fun idle => absurd idle busy⟩, .inl rfl⟩
      show state.drained ++ (state.drainWaiters ++ [state.drains]) = List.range (state.drains + 1)
      rw [← List.append_assoc, drains.settled, List.range_succ]

/-! ## Any schedule -/

/-- What is so in every state: one work of an owner at a time, in the order of arrival
without those that were withdrawn, no lane blocked, no second live lane, and the drains over
exactly if nothing is left to wait for. -/
structure Coordinated (state : Coordination) : Prop where
  exclusive : ∀ owner, (state.runningOf owner).length ≤ 1
  arrivals : ∀ owner, (ofOwner owner state.arrived).Nodup
  inOrder : ∀ owner,
    (ofOwner owner state.arrived).filter (· ∉ ofOwner owner state.withdrawn) =
      ofOwner owner state.started ++ state.waitingOf owner
  ended : ∀ owner,
    ofOwner owner state.started = ofOwner owner state.finished ++ state.runningOf owner
  neverBegins : ∀ owner work, work ∈ ofOwner owner state.withdrawn →
    work ∉ ofOwner owner state.started
  unblocked : ∀ owner, state.waitingOf owner ≠ [] → state.runningOf owner ≠ []
  single : ∀ first second, state.Live first → state.Live second → first.owner = second.owner →
    first = second
  registered : ∀ id, state.Live id → state.laneOf id.owner = some id
  settled : state.drained ++ state.drainWaiters = List.range state.drains
  released : state.Quiet → state.drainWaiters = []

/-- What a step does to its lane and to the drains: the end of a work begins the one that has
waited longest, an aborted work only leaves the queue, and a drain is over only if nothing is
queued or running after the step. -/
structure Coordinates (state : Coordination) (label : CoordinatorStep) (next : Coordination) :
    Prop where
  handed : ∀ id work failed, label = .finish id work failed →
    next.runningOf id.owner = (state.waitingOf id.owner).take 1 ∧
      next.waitingOf id.owner = (state.waitingOf id.owner).tail
  left : ∀ id work, label = .abort id work → work ∈ (state.lane id).queue →
    work ∈ ofOwner id.owner next.withdrawn ∧ next.runningOf id.owner = state.runningOf id.owner ∧
      next.waitingOf id.owner = (state.waitingOf id.owner).erase work
  drained : ∀ drain ∈ next.drained, drain ∉ state.drained → next.Quiet

theorem Lanes.registered_of_live (lanes : Lanes none state) (live : state.Live id) :
    state.laneOf id.owner = some id := by
  cases pending_ne_zero.mp live with
  | inl active => exact (lanes.live active).2
  | inr waits => exact (lanes.live (lanes.busy waits)).2

theorem Lanes.coordinated (lanes : Lanes none state) (drains : Drains state) :
    Coordinated state where
  exclusive owner := (lanes.orderly owner).single
  arrivals owner := (lanes.orderly owner).distinct
  inOrder owner := (lanes.orderly owner).inOrder
  ended owner := (lanes.orderly owner).ended
  neverBegins owner _ withdrawn := (lanes.orderly owner).not_started withdrawn
  unblocked owner := (lanes.orderly owner).busy
  single first second isFirst isSecond same := by
    have firstPlace := lanes.registered_of_live isFirst
    rw [same, lanes.registered_of_live isSecond] at firstPlace
    exact (Option.some.inj firstPlace).symm
  registered _ live := lanes.registered_of_live live
  settled := drains.settled
  released quiet := drains.released (lanes.isIdle_iff.mpr quiet)

theorem Lanes.coordinates (lanes : Lanes none state) (drains : Drains state)
    (stepped : accountCoordinator.step state label = some next) : Coordinates state label next where
  handed id work failed isFinish := by
    subst isFinish
    obtain ⟨-, -, turns⟩ := lanes.finish stepped
    have same := (turns id.owner).trans (if_pos rfl)
    exact ⟨congrArg Turns.running same, congrArg Turns.waiting same⟩
  left id work isAbort waits := by
    subst isAbort
    cases stepped
    obtain ⟨-, ⟨absent, -⟩ | ⟨-, turns⟩⟩ := lanes.abort id work
    · exact absurd waits absent
    · have same := (turns id.owner).trans (if_pos rfl)
      have withdrawn := congrArg Turns.withdrawn same
      refine ⟨?_, congrArg Turns.running same, congrArg Turns.waiting same⟩
      rw [show ofOwner id.owner (state.abort id work).withdrawn = _ from withdrawn]
      exact List.mem_append_right _ List.mem_cons_self
  drained drain isOver notBefore := by
    obtain ⟨-, same | idle⟩ := drains.step lanes stepped
    · rw [same] at isOver
      exact absurd isOver notBefore
    · exact (lanes.step stepped).1.isIdle_iff.mp idle

theorem lanes_initial : Lanes none initial where
  made := Nat.one_pos
  live active := nomatch active
  registered found := nomatch found
  busy waits := absurd rfl waits
  runs := ⟨fun active => (nomatch active), fun ⟨_, member⟩ => (nomatch member)⟩
  alone := List.nodup_nil
  known _ member := nomatch member
  orderly owner := by
    have empty : initial.turns owner = .empty := by
      cases owner <;> rfl
    rw [empty]
    exact Turns.orderly_empty

/-- Whatever calls, ends of works, aborts and drains happen in whatever order, every state
and every further step is as described. -/
theorem coordinated_of_run {state : Coordination} {schedule : List CoordinatorStep}
    (ran : accountCoordinator.run initial schedule = some state) :
    Coordinated state ∧ ∀ label next, accountCoordinator.step state label = some next →
      Coordinates state label next := by
  have kept : ∀ {state next : Coordination} {label : CoordinatorStep},
      Lanes none state ∧ Drains state → accountCoordinator.step state label = some next →
        Lanes none next ∧ Drains next :=
    fun both stepped => ⟨(both.1.step stepped).1, (both.2.step both.1 stepped).1⟩
  obtain ⟨lanes, drains⟩ :=
    Concurrent.invariant_of_run kept ran ⟨lanes_initial, ⟨rfl, fun _ => rfl⟩⟩
  exact ⟨lanes.coordinated drains, fun label next stepped => lanes.coordinates drains stepped⟩

/-- Three works for one account and a drain: the second is aborted while it waits, the third
begins when the first has failed, and the drain ends with it. The account then gets a new
lane. -/
def coordinationSchedule : List CoordinatorStep :=
  [.withCredentialGeneration (js "a") false, .withCredentialGeneration (js "a") false,
    .withCredentialGeneration (js "a") false, .drain, .abort ⟨.generation (js "a"), 1⟩ 1,
    .finish ⟨.generation (js "a"), 1⟩ 0 true, .caught 0, .finish ⟨.generation (js "a"), 1⟩ 2 false,
    .caught 0, .withCredentialGeneration (js "a") false]

theorem coordinated_of_run_schedule :
    ∃ state, accountCoordinator.run initial coordinationSchedule = some state ∧
      state.drained = [0] ∧ ofOwner (.generation (js "a")) state.started = [0, 2, 3] ∧
      Coordinated state := by
  refine ⟨_, rfl, ?_, ?_, ?_⟩
  · decide
  · decide
  · have ran : accountCoordinator.run initial coordinationSchedule = some _ := rfl
    exact (coordinated_of_run ran).1

end GhcGateway.Accounts.Coordination
