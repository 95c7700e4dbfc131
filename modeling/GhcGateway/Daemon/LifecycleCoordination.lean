/-
# Any schedule of the life cycle coordinator

What the coordinator keeps from one step to the next, carried along every schedule: the
lane of every directory keeps its turns, and every call is refused or queued once.
-/

import GhcGateway.Daemon.LifecycleLanes

namespace GhcGateway.Daemon.LifecycleCoordinator

open Library DirectoryLane LaneEvent

variable {κ ρ : Type} [DecidableEq κ]
  {lane : DirectoryLane} {next : LifecycleCoordinator κ ρ} {events : List (LaneEvent ρ)}
  {label : LifecycleStep κ ρ} {key : κ}

/-! ## The lanes and their logs -/

def logIn (key : κ) (log : List (κ × LaneEvent ρ)) : List (LaneEvent ρ) :=
  log.filterMap fun entry => if entry.1 = key then some entry.2 else none

def logOf (state : LifecycleCoordinator κ ρ) (key : κ) : List (LaneEvent ρ) :=
  logIn key state.log

theorem logIn_append (key : κ) (first second : List (κ × LaneEvent ρ)) :
    logIn key (first ++ second) = logIn key first ++ logIn key second :=
  List.filterMap_append

theorem logIn_map (key other : κ) (events : List (LaneEvent ρ)) :
    logIn other (events.map (key, ·)) = if key = other then events else [] := by
  rw [logIn, List.filterMap_map]
  by_cases same : key = other
  · rw [if_pos same]
    refine (List.filterMap_congr fun event _ => ?_).trans List.filterMap_some
    exact if_pos same
  · rw [if_neg same]
    apply List.filterMap_eq_nil_iff.mpr
    intro event _
    exact if_neg same

variable {state : LifecycleCoordinator κ ρ}

theorem eq_idle (empty : lane.queue = [] ∧ lane.inFlight = none) : lane = .idle := by
  obtain ⟨queue, inFlight⟩ := lane
  obtain ⟨rfl, rfl⟩ := empty
  rfl

theorem laneOf_put (key other : κ) (lane : DirectoryLane) (events : List (LaneEvent ρ)) :
    (state.put key lane events).laneOf other =
      if key = other then lane else state.laneOf other := by
  simp only [laneOf, put]
  by_cases empty : lane.queue = [] ∧ lane.inFlight = none
  · rw [if_pos empty, OrderedMap.get_erase]
    by_cases same : key = other
    · rw [if_pos same, if_pos same, eq_idle empty]
      rfl
    · rw [if_neg same, if_neg same]
  · rw [if_neg empty, OrderedMap.get_set]
    by_cases same : key = other
    · rw [if_pos same, if_pos same]
      rfl
    · rw [if_neg same, if_neg same]

theorem logOf_put (key other : κ) (lane : DirectoryLane) (events : List (LaneEvent ρ)) :
    (state.put key lane events).logOf other =
      state.logOf other ++ if key = other then events else [] := by
  rw [logOf, put, logIn_append, logIn_map, logOf]

theorem laneOf_abort (signal : Nat) (key : κ) :
    (state.abort signal).laneOf key = (state.laneOf key).abort signal := by
  rw [laneOf, abort, OrderedMap.get_mapValues, laneOf]
  cases state.lanes.get key <;> rfl

/-- The events of a map of lanes are those of each lane under its key. -/
theorem logIn_flatMap (events : DirectoryLane → List (LaneEvent ρ))
    {entries : List (κ × DirectoryLane)} (distinct : (entries.map Prod.fst).Nodup) (key : κ) :
    logIn key (entries.flatMap fun entry => (events entry.2).map (entry.1, ·)) =
      ((OrderedMap.getEntry entries key).map events).getD [] := by
  induction entries with
  | nil => rfl
  | cons entry entries ih =>
    obtain ⟨fresh, distinct⟩ := List.nodup_cons.mp distinct
    rw [List.flatMap_cons, logIn_append, logIn_map, ih distinct]
    by_cases same : entry.1 = key
    · have absent : OrderedMap.getEntry entries key = none := by
        cases found : OrderedMap.getEntry entries key with
        | none => rfl
        | some lane =>
          have member := (OrderedMap.getEntry_eq_some distinct).mp found
          exact absurd (List.mem_map_of_mem member) (same ▸ fresh)
      have found : OrderedMap.getEntry (entry :: entries) key = some entry.2 := if_pos same
      rw [if_pos same, absent, found]
      exact List.append_nil _
    · have later : OrderedMap.getEntry (entry :: entries) key = OrderedMap.getEntry entries key :=
        if_neg same
      rw [if_neg same, later]
      rfl

theorem logOf_abort (signal : Nat) (key : κ) :
    (state.abort signal).logOf key = state.logOf key ++ (state.laneOf key).abortEvents signal := by
  rw [logOf, abort, logIn_append, logIn_flatMap (·.abortEvents signal) state.lanes.nodup, logOf,
    laneOf, OrderedMap.get]
  cases OrderedMap.getEntry state.lanes.entries key <;> rfl

/-! ## What every state keeps -/

/-- Every lane keeps its turns, and every call is refused or queued once. -/
structure Kept (state : LifecycleCoordinator κ ρ) : Prop where
  lanes : ∀ key, LaneKept state.aborted state.calls (state.laneOf key) (state.logOf key)
  calls : (state.log.filterMap fun entry => entry.2.call?) = List.range state.calls

theorem kept_initial : Kept (initial : LifecycleCoordinator κ ρ) where
  lanes _ := LaneKept.idle
  calls := rfl

omit [DecidableEq κ] in
theorem filterMap_call?_map (key : κ) (events : List (LaneEvent ρ)) :
    ((events.map (key, ·)).filterMap fun entry => entry.2.call?) =
      events.filterMap call? := List.filterMap_map

/-- A lane moves without a call. -/
theorem Kept.put (kept : Kept state)
    (laneKept : LaneKept state.aborted state.calls lane (state.logOf key ++ events))
    (noCall : events.filterMap call? = []) : Kept (state.put key lane events) where
  lanes other := by
    rw [laneOf_put, logOf_put]
    by_cases same : key = other
    · rw [if_pos same, if_pos same, ← same]
      exact laneKept
    · rw [if_neg same, if_neg same, List.append_nil]
      exact kept.lanes other
  calls := by
    simp only [LifecycleCoordinator.put]
    rw [List.filterMap_append, filterMap_call?_map, noCall, List.append_nil]
    exact kept.calls

/-- A call moves its lane, or none. -/
theorem Kept.call (kept : Kept state)
    (laneKept : LaneKept state.aborted (state.calls + 1) lane (state.logOf key ++ events))
    (called : events.filterMap call? = [state.calls]) :
    Kept ({ state with calls := state.calls + 1 }.put key lane events) where
  lanes other := by
    rw [laneOf_put, logOf_put]
    by_cases same : key = other
    · rw [if_pos same, if_pos same, ← same]
      exact laneKept
    · rw [if_neg same, if_neg same, List.append_nil]
      exact (kept.lanes other).called
  calls := by
    simp only [LifecycleCoordinator.put]
    rw [List.filterMap_append, filterMap_call?_map, called, kept.calls, List.range_succ]

/-- A call of an aborted signal moves no lane. -/
theorem Kept.refuse (kept : Kept state) (key : κ) (error : LifecycleError) :
    Kept { state with
      calls := state.calls + 1
      log := state.log ++ [(key, .refused state.calls error)] } where
  lanes other := by
    have grows : logIn other (state.log ++ [(key, .refused state.calls error)]) =
        state.logOf other ++ if key = other then [.refused state.calls error] else [] := by
      rw [logIn_append]
      exact congrArg (state.logOf other ++ ·) (logIn_map key other [.refused state.calls error])
    show LaneKept state.aborted (state.calls + 1) (state.laneOf other)
      (logIn other (state.log ++ [(key, .refused state.calls error)]))
    rw [grows]
    split
    · exact (kept.lanes other).called.refused state.calls error
    · rw [List.append_nil]
      exact (kept.lanes other).called
  calls := by
    dsimp only
    rw [List.filterMap_append, kept.calls, List.range_succ]
    rfl

theorem Kept.run (kept : Kept state) (key : κ) (signal : Option Nat)
    (dataDirSource : Option DataDirSource) (createDataDir : Option Bool) :
    Kept (state.run key signal dataDirSource createDataDir) := by
  have lane := kept.lanes key
  rw [LifecycleCoordinator.run]
  dsimp only
  split
  case isTrue => exact kept.refuse key interrupted
  case isFalse live =>
    have isLive := Bool.eq_false_iff.mpr live
    split
    case isTrue => exact kept.call (lane.called.refused state.calls (.cli (js "unavailable"))) rfl
    case isFalse room =>
      split
      case isTrue busy =>
        have isBusy := Option.isSome_iff_ne_none.mp busy
        exact kept.call (lane.queued isBusy isLive (Nat.not_le.mp room)) rfl
      case isFalse isIdle =>
        have idle : (state.laneOf key).inFlight = none := Option.not_isSome_iff_eq_none.mp isIdle
        let node : QueueNode := ⟨state.calls, signal, dataDirSource, createDataDir⟩
        have drained : drain state.aborted ((state.laneOf key).queue ++ [node]) =
            (⟨[], some (node, .acquiring)⟩, [(.started node : LaneEvent ρ)]) := by
          rw [lane.queue_eq_nil idle, List.nil_append]
          apply drain_of_live
          intro other member
          exact List.mem_singleton.mp member ▸ isLive
        show Kept ({ state with calls := state.calls + 1 }.put key
          (drain state.aborted ((state.laneOf key).queue ++ [node])).1
          (.queued node ::
            (drain state.aborted ((state.laneOf key).queue ++ [node])).2))
        rw [drained]
        exact kept.call (@LaneKept.started _ _ _ _ node lane idle) rfl

theorem Kept.abort (kept : Kept state) (signal : Nat) : Kept (state.abort signal) where
  lanes key := by
    rw [laneOf_abort, logOf_abort]
    exact (kept.lanes key).abort signal
  calls := by
    simp only [LifecycleCoordinator.abort]
    have noCall : ((state.lanes.entries.flatMap fun entry =>
        (entry.2.abortEvents signal).map (entry.1, ·)).filterMap fun entry =>
          (entry.2 : LaneEvent ρ).call?) = [] := by
      apply List.filterMap_eq_nil_iff.mpr
      intro event member
      obtain ⟨entry, -, member⟩ := List.mem_flatMap.mp member
      obtain ⟨inner, isEvent, rfl⟩ := List.mem_map.mp member
      obtain ⟨node, -, rfl⟩ := List.mem_map.mp isEvent
      rfl
    rw [List.filterMap_append, kept.calls, noCall, List.append_nil]

theorem Kept.step (kept : Kept state) (stepped : state.step label = some next) : Kept next := by
  cases label with
  | run key signal dataDirSource createDataDir =>
    cases stepped
    exact kept.run key signal dataDirSource createDataDir
  | abort signal =>
    cases stepped
    exact kept.abort signal
  | leaseSettled key answer release =>
    obtain ⟨after, settled, same⟩ := Option.bind_eq_some_iff.mp stepped
    cases same
    obtain ⟨node, flies⟩ := flies_of_leaseSettled settled
    obtain ⟨same, taken, advances⟩ :=
      leaseSettled_advances flies answer release
    cases taken.symm.trans settled
    exact kept.put ((kept.lanes key).leaseSettled settled) advances.noCall
  | operationSettled key result first second =>
    obtain ⟨after, settled, same⟩ := Option.bind_eq_some_iff.mp stepped
    cases same
    obtain ⟨node, flies⟩ := flies_of_operationSettled settled
    obtain ⟨same, taken, advances⟩ :=
      operationSettled_advances flies result first second
    cases taken.symm.trans settled
    exact kept.put ((kept.lanes key).operationSettled settled) advances.noCall

/-! ## Any schedule -/

/-- A view that sees less. -/
theorem filterMap_sublist {α β : Type} {view wider : α → Option β}
    (sees : ∀ {event found}, view event = some found → wider event = some found)
    (events : List α) : (events.filterMap view).Sublist (events.filterMap wider) := by
  induction events with
  | nil => exact List.Sublist.slnil
  | cons event events ih =>
    rw [List.filterMap_cons, List.filterMap_cons]
    cases found : view event with
    | none =>
      cases wider event with
      | none => exact ih
      | some other => exact ih.cons other
    | some seen =>
      rw [sees found]
      exact ih.cons_cons seen

/-- The calls that are queued come in the order of the calls. -/
theorem Kept.arrivals (kept : Kept state) (key : κ) :
    (((state.logOf key).filterMap queued?).map QueueNode.run).Pairwise (· < ·) := by
  refine List.Pairwise.sublist ?_ (kept.calls ▸ List.pairwise_lt_range)
  rw [logOf, logIn, List.filterMap_filterMap, List.map_filterMap]
  apply filterMap_sublist
  intro entry found seen
  obtain ⟨other, event⟩ := entry
  dsimp only at seen ⊢
  split at seen
  · cases event with
    | queued node => exact seen
    | _ => cases seen
  · cases seen

/-- What is so in every state: at most 64 calls wait for a directory, no two operations of it
overlap, the calls that are not withdrawn start in the order of arrival and a withdrawn
one never does, their turns are complete but for the one in flight, so that nothing of a
call comes after it has settled, a lease is not followed by another before it was released
or its last release failed and its call was rejected, a call is resolved only once its lease
has been released, nothing waits while nothing is in flight, and every call is refused,
withdrawn, settled, in flight or queued, once. What is in flight takes any answer. -/
structure Coordinated (state : LifecycleCoordinator κ ρ) : Prop where
  bounded : ∀ key, (state.laneOf key).queue.length ≤ maxPendingLifecycleOperationsPerDirectory
  exclusive : ∀ key {before middle after} {node other : QueueNode},
    state.logOf key = before ++ .operating node :: (middle ++ .operating other :: after) →
      .operated node ∈ middle
  calls : (state.log.filterMap fun entry => entry.2.call?) = List.range state.calls
  arrivals : ∀ key,
    (((state.logOf key).filterMap queued?).map QueueNode.run).Pairwise (· < ·)
  inOrder : ∀ key, ((state.logOf key).filterMap queued?).filter
      (· ∉ (state.logOf key).filterMap withdrawn?) =
    (state.logOf key).filterMap started? ++ (state.laneOf key).queue
  neverStarts : ∀ key (node : QueueNode), .withdrawn node ∈ state.logOf key →
    .started node ∉ state.logOf key
  turns : ∀ key, ∃ done : List (List (LaneEvent ρ)),
    (∀ turn ∈ done, ∃ node, CompleteTurn node turn) ∧
      (state.logOf key).filter ofTurn = done.flatten ++ currentTurn (state.laneOf key).inFlight
  leased : ∀ key {before middle after} {node other : QueueNode},
    state.logOf key = before ++ .acquired node :: (middle ++ .acquired other :: after) →
      .released node ∈ middle ∨
        .releaseFailed node ∈ middle ∧ ∃ error, .settled node (.error error) ∈ middle
  resolved : ∀ key (node : QueueNode) (value : ρ), .settled node (.ok value) ∈ state.logOf key →
    ∃ before after, (state.logOf key).filter ofTurn = before ++ [.started node,
      .acquired node, .operating node, .operated node, .released node,
      .settled node (.ok value)] ++ after
  busy : ∀ key, (state.laneOf key).queue ≠ [] → (state.laneOf key).inFlight ≠ none
  settles : ∀ key, ((state.logOf key).filterMap withdrawn? ++
      ((state.logOf key).filterMap settled? ++
        ((state.laneOf key).inFlight.map Prod.fst).toList ++ (state.laneOf key).queue)).Perm
    ((state.logOf key).filterMap queued?)
  acquires : ∀ key node, (state.laneOf key).inFlight = some (node, .acquiring) →
    ∀ answer release, (state.step (.leaseSettled key answer release)).isSome
  operates : ∀ key node, (state.laneOf key).inFlight = some (node, .operating) →
    ∀ result first second, (state.step (.operationSettled key result first second)).isSome

/-- What a step does: the log only grows, an abort withdraws what it finds queued, and every
answer brings its lane closer to its end. -/
structure Coordinates (state : LifecycleCoordinator κ ρ) (label : LifecycleStep κ ρ)
    (next : LifecycleCoordinator κ ρ) : Prop where
  grows : ∃ events, next.log = state.log ++ events
  withdraws : ∀ signal, label = .abort signal → ∀ key, ∀ node ∈ (state.laneOf key).queue,
    node.signal = some signal → .withdrawn node ∈ next.logOf key
  leaseSettled : ∀ key answer release, label = .leaseSettled key answer release →
    (next.laneOf key).pending < (state.laneOf key).pending ∧
      ∀ other, other ≠ key → next.laneOf other = state.laneOf other
  operationSettled : ∀ key result first second, label = .operationSettled key result first second →
    (next.laneOf key).pending < (state.laneOf key).pending ∧
      ∀ other, other ≠ key → next.laneOf other = state.laneOf other

theorem Kept.coordinated (kept : Kept state) : Coordinated state where
  bounded key := (kept.lanes key).bounded
  exclusive key := (kept.lanes key).exclusive
  calls := kept.calls
  arrivals := kept.arrivals
  inOrder key := (kept.lanes key).orderly.inOrder
  neverStarts key node withdrawn started :=
    (kept.lanes key).orderly.not_started (List.mem_filterMap.mpr ⟨_, withdrawn, rfl⟩)
      (List.mem_filterMap.mpr ⟨_, started, rfl⟩)
  turns key := (kept.lanes key).turns
  leased key := (kept.lanes key).leased
  resolved key _ _ := (kept.lanes key).resolved
  busy key waits idle := waits ((kept.lanes key).queue_eq_nil idle)
  settles key := (kept.lanes key).orderly.accounted (kept.lanes key).once
  acquires key node flies answer release := by
    obtain ⟨after, taken, -⟩ := leaseSettled_advances flies answer release
    rw [LifecycleCoordinator.step, taken]
    rfl
  operates key node flies result first second := by
    obtain ⟨after, taken, -⟩ := operationSettled_advances flies result first second
    rw [LifecycleCoordinator.step, taken]
    rfl

theorem coordinates (stepped : state.step label = some next) : Coordinates state label next where
  grows := by
    cases label with
    | run key signal dataDirSource createDataDir =>
      cases stepped
      rw [LifecycleCoordinator.run]
      dsimp only
      split
      · exact ⟨_, rfl⟩
      · split
        · exact ⟨_, rfl⟩
        · split
          · exact ⟨_, rfl⟩
          · exact ⟨_, rfl⟩
    | abort signal =>
      cases stepped
      exact ⟨_, rfl⟩
    | leaseSettled key answer release =>
      obtain ⟨after, -, same⟩ := Option.bind_eq_some_iff.mp stepped
      cases same
      exact ⟨_, rfl⟩
    | operationSettled key result first second =>
      obtain ⟨after, -, same⟩ := Option.bind_eq_some_iff.mp stepped
      cases same
      exact ⟨_, rfl⟩
  withdraws := by
    rintro signal rfl key node waits isSignal
    cases stepped
    rw [logOf_abort]
    apply List.mem_append_right
    exact List.mem_map_of_mem (List.mem_filter.mpr ⟨waits, decide_eq_true isSignal⟩)
  leaseSettled := by
    rintro key answer release rfl
    obtain ⟨after, settled, same⟩ := Option.bind_eq_some_iff.mp stepped
    cases same
    obtain ⟨node, flies⟩ := flies_of_leaseSettled settled
    obtain ⟨same, taken, advances⟩ := leaseSettled_advances flies answer release
    cases taken.symm.trans settled
    refine ⟨?_, fun other apart => ?_⟩
    · rw [laneOf_put, if_pos rfl]
      exact advances.fewer
    · rw [laneOf_put, if_neg apart.symm]
  operationSettled := by
    rintro key result first second rfl
    obtain ⟨after, settled, same⟩ := Option.bind_eq_some_iff.mp stepped
    cases same
    obtain ⟨node, flies⟩ := flies_of_operationSettled settled
    obtain ⟨same, taken, advances⟩ :=
      operationSettled_advances flies result first second
    cases taken.symm.trans settled
    refine ⟨?_, fun other apart => ?_⟩
    · rw [laneOf_put, if_pos rfl]
      exact advances.fewer
    · rw [laneOf_put, if_neg apart.symm]

/-- Whatever calls, answers and aborts happen in whatever order, every state and every
further step is as described. -/
theorem lifecycle_coordinated {state : LifecycleCoordinator κ ρ}
    {schedule : List (LifecycleStep κ ρ)}
    (ran : (lifecycleCoordinator κ ρ).run .initial schedule = some state) :
    Coordinated state ∧ ∀ label next, state.step label = some next →
      Coordinates state label next := by
  have preserved : ∀ {state next : LifecycleCoordinator κ ρ} {label : LifecycleStep κ ρ},
      Kept state → (lifecycleCoordinator κ ρ).step state label = some next → Kept next :=
    fun kept stepped => kept.step stepped
  have kept : Kept state := Concurrent.invariant_of_run preserved ran kept_initial
  exact ⟨kept.coordinated, fun label next stepped => coordinates stepped⟩

/-- Three calls for one directory: the third is aborted while it waits, and the release of the
first lease fails twice. -/
def lifecycleSchedule : List (LifecycleStep Nat Nat) :=
  [.run 0 none none none, .run 0 none none none, .run 0 (some 7) none none, .abort 7,
    .leaseSettled 0 .acquired none,
    .operationSettled 0 (.ok 5) (some (.other (js "busy"))) (some (.other (js "busy"))),
    .leaseSettled 0 .acquired none]

theorem lifecycle_coordinated_schedule :
    ∃ state : LifecycleCoordinator Nat Nat,
      (lifecycleCoordinator Nat Nat).run .initial lifecycleSchedule = some state ∧
        (state.laneOf 0).inFlight = some (⟨1, none, none, none⟩, .operating) ∧
          Coordinated state := by
  refine ⟨_, rfl, rfl, ?_⟩
  have ran : (lifecycleCoordinator Nat Nat).run .initial lifecycleSchedule = some _ := rfl
  exact (lifecycle_coordinated ran).1

/-- A lease whose release failed is not released before the next is acquired. -/
theorem not_released_before_acquired :
    ¬ ∀ (schedule : List (LifecycleStep Nat Nat)) (state : LifecycleCoordinator Nat Nat) (key : Nat)
      (node other : QueueNode) (before middle after : List (LaneEvent Nat)),
      (lifecycleCoordinator Nat Nat).run .initial schedule = some state →
        state.logOf key = before ++ .acquired node :: (middle ++ .acquired other :: after) →
          .released node ∈ middle := by
  intro claimed
  let first : QueueNode := ⟨0, none, none, none⟩
  let second : QueueNode := ⟨1, none, none, none⟩
  let third : QueueNode := ⟨2, some 7, none, none⟩
  have released := claimed lifecycleSchedule _ 0 first second
    [.queued first, .started first, .queued second, .queued third, .withdrawn third]
    [.operating first, .operated first, .releaseFailed first, .releaseFailed first,
      .settled first (.error (.other (js "busy"))), .started second] [.operating second] rfl rfl
  simp at released

end GhcGateway.Daemon.LifecycleCoordinator
