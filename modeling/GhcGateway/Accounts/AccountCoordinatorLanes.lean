/-
# The lanes of the account coordinator

The map names exactly the accounts whose lane has work, so a lane is made for an account
only when no live lane exists for it. Every step of the coordinator is one move of the turns
of one owner or none, and the turns of all owners stay orderly through any schedule. The
waiters of a drain are released in the step in which the last work ends.
-/

import GhcGateway.Accounts.AccountCoordinator

namespace GhcGateway.Accounts.Coordination

open Library

variable {owner : LaneOwner} {next : Coordination}

/-- What connects the map, the lanes and the works that run. The lane `spare` may stand in
the map without work. -/
structure Lanes (spare : Option LaneId) (state : Coordination) : Prop where
  made : 0 < state.made
  live : ∀ {id}, (state.lane id).active = true →
    id.serial < state.made ∧ state.laneOf id.owner = some id
  registered : ∀ {accountId id}, state.generations.get accountId = some id →
    id.owner = .generation accountId ∧ ((state.lane id).active = true ∨ spare = some id)
  busy : ∀ {id}, (state.lane id).queue ≠ [] → (state.lane id).active = true
  runs : ∀ {id}, (state.lane id).active = true ↔ ∃ work, (id, work) ∈ state.running
  alone : (state.running.map Prod.fst).Nodup
  known : ∀ entry ∈ state.arrived, entry.2 < state.calls
  orderly : ∀ owner, (state.turns owner).Orderly

/-- The drains so far: each is over or waits, in order, and none waits while all is idle. -/
structure Drains (state : Coordination) : Prop where
  settled : state.drained ++ state.drainWaiters = List.range state.drains
  released : state.isIdle = true → state.drainWaiters = []

variable {state : Coordination} {spare : Option LaneId} {id : LaneId} {work : WorkId}

/-! ## Small facts -/

theorem pending_ne_zero {lane : CoordinationLane} :
    lane.pending ≠ 0 ↔ lane.active = true ∨ lane.queue ≠ [] := by
  cases lane with
  | mk active queue => cases active <;> cases queue <;> simp [CoordinationLane.pending]

theorem ofOwner_append (owner : LaneOwner) (history more : List (LaneOwner × WorkId)) :
    ofOwner owner (history ++ more) = ofOwner owner history ++ ofOwner owner more := by
  simp [ofOwner]

@[simp]
theorem ofOwner_self (owner : LaneOwner) (work : WorkId) :
    ofOwner owner [(owner, work)] = [work] := by
  simp [ofOwner]

theorem ofOwner_of_ne {other : LaneOwner} (apart : other ≠ owner) (work : WorkId) :
    ofOwner owner [(other, work)] = [] := by
  simp [ofOwner, apart]

theorem mem_ofOwner {history : List (LaneOwner × WorkId)} :
    work ∈ ofOwner owner history ↔ (owner, work) ∈ history := by
  simp [ofOwner]

/-! ## `changed` and the map -/

@[simp]
theorem changed_turns (state : Coordination) (owner : LaneOwner) :
    state.changed.turns owner = state.turns owner := by
  unfold changed
  split <;> rfl

theorem Lanes.changed (lanes : Lanes spare state) : Lanes spare state.changed := by
  unfold Coordination.changed
  split
  · exact ⟨lanes.made, lanes.live, lanes.registered, lanes.busy, lanes.runs, lanes.alone,
      lanes.known, lanes.orderly⟩
  · exact lanes

/-- The turns of one owner move, and those of the others stay. -/
def Shifts (owner : LaneOwner) (move : Turns WorkId → Turns WorkId) (state next : Coordination) :
    Prop :=
  ∀ other, next.turns other = if other = owner then move (state.turns other) else state.turns other

section Shifts

variable {move : Turns WorkId → Turns WorkId}

theorem shifts_of (self : next.turns owner = move (state.turns owner))
    (others : ∀ other, other ≠ owner → next.turns other = state.turns other) :
    Shifts owner move state next := by
  intro other
  split
  · next same => exact same ▸ self
  · next same => exact others other same

theorem Shifts.orderly (shifts : Shifts owner move state next)
    (orderly : ∀ other, (state.turns other).Orderly) (moved : (move (state.turns owner)).Orderly)
    (other : LaneOwner) : (next.turns other).Orderly := by
  rw [shifts]
  split
  · next same => exact same ▸ moved
  · exact orderly other

theorem Shifts.changed (shifts : Shifts owner move state next) :
    Shifts owner move state next.changed :=
  fun other => (changed_turns next other).trans (shifts other)

end Shifts

theorem forget_of_pending {accountId : JsString} (pending : (state.lane id).pending ≠ 0) :
    state.forget accountId id = state := by
  rw [forget, if_neg]
  exact fun none => pending none.1

/-- A lane with work stays in the map. -/
theorem onChange_of_pending (pending : (state.lane id).pending ≠ 0) :
    state.onChange id = state.changed := by
  unfold onChange
  split
  · rfl
  · rw [generationChanged, forget_of_pending pending]

theorem changed_admitWork (state : Coordination) (id : LaneId) (work : WorkId) :
    state.changed.admitWork id work = (state.admitWork id work).changed := by
  have same : (state.admitWork id work).isIdle = state.isIdle := rfl
  rw [changed, changed, same]
  split <;> rfl

/-! ## Who runs and who waits -/

theorem eq_singleton_of_nodup {α : Type} {entries : List α} {entry : α} (nodup : entries.Nodup)
    (member : entry ∈ entries) (only : ∀ other ∈ entries, other = entry) : entries = [entry] := by
  cases entries with
  | nil => cases member
  | cons first others =>
    rw [only first List.mem_cons_self] at nodup ⊢
    cases others with
    | nil => rfl
    | cons second others =>
      have same := only second (by simp)
      simp [same] at nodup

theorem Lanes.nodup (lanes : Lanes spare state) : state.running.Nodup := lanes.alone.of_map _

theorem Lanes.owner_of_laneOf (lanes : Lanes spare state) (placed : state.laneOf owner = some id) :
    id.owner = owner := by
  cases owner with
  | lifecycle =>
    cases placed
    rfl
  | generation accountId => exact (lanes.registered placed).1

/-- A work of an owner runs in the lane that the map names. -/
theorem Lanes.placed_of_running (lanes : Lanes spare state) (member : (id, work) ∈ state.running) :
    state.laneOf id.owner = some id :=
  (lanes.live (lanes.runs.mpr ⟨work, member⟩)).2

theorem Lanes.runningOf_of_mem (lanes : Lanes spare state) (member : (id, work) ∈ state.running) :
    state.runningOf id.owner = [work] := by
  have placed := lanes.placed_of_running member
  have among : (id, work) ∈ state.running.filter fun entry => entry.1.owner = id.owner := by
    simp [member]
  have only (entry : LaneId × WorkId)
      (other : entry ∈ state.running.filter fun entry => entry.1.owner = id.owner) :
      entry = (id, work) := by
    obtain ⟨runs, sameOwner⟩ := List.mem_filter.mp other
    have entryPlaced := lanes.placed_of_running runs
    rw [of_decide_eq_true sameOwner, placed] at entryPlaced
    exact List.inj_on_of_nodup_map lanes.alone runs member (Option.some.inj entryPlaced).symm
  rw [runningOf, eq_singleton_of_nodup (lanes.nodup.filter _) among only]
  rfl

theorem Lanes.runningOf_eq_nil (lanes : Lanes spare state) (placed : state.laneOf owner = some id)
    (inactive : (state.lane id).active = false) : state.runningOf owner = [] := by
  rw [runningOf, List.map_eq_nil_iff, List.filter_eq_nil_iff]
  intro entry runs sameOwner
  have entryPlaced := lanes.placed_of_running runs
  rw [of_decide_eq_true sameOwner, placed] at entryPlaced
  have active := lanes.runs.mpr ⟨entry.2, runs⟩
  rw [← Option.some.inj entryPlaced, inactive] at active
  cases active

/-- Another state of one lane changes what waits for the owner of that lane only. -/
theorem Lanes.waitingOf_setLane (lanes : Lanes spare state)
    (placed : state.laneOf id.owner = some id) (lane : CoordinationLane) (owner : LaneOwner) :
    (state.setLane id lane).waitingOf owner =
      if owner = id.owner then lane.queue else state.waitingOf owner := by
  have sameOwners : (state.setLane id lane).laneOf = state.laneOf := rfl
  have changed : (state.setLane id lane).lane = Function.update state.lane id lane := rfl
  rw [waitingOf, sameOwners, changed]
  by_cases same : owner = id.owner
  · simp [same, placed]
  · rw [if_neg same, waitingOf]
    cases found : state.laneOf owner with
    | none => rfl
    | some other =>
      have otherLane : other ≠ id := fun sameLane =>
        same ((lanes.owner_of_laneOf found).symm.trans (congrArg _ sameLane))
      simp [otherLane]

theorem waitingOf_self (placed : state.laneOf id.owner = some id) :
    state.waitingOf id.owner = (state.lane id).queue := by
  simp [waitingOf, placed]

theorem Lanes.inactive_or (lanes : Lanes spare state) (id : LaneId) :
    (state.lane id).active = true ∨
      (state.lane id).active = false ∧ (state.lane id).queue = [] := by
  cases isActive : (state.lane id).active with
  | true => exact .inl rfl
  | false =>
    refine .inr ⟨rfl, ?_⟩
    by_contra waits
    rw [lanes.busy waits] at isActive
    cases isActive

/-! ## Work arrives -/

theorem Lanes.queued (lanes : Lanes spare state) (active : (state.lane id).active = true)
    (sole : spare = none ∨ spare = some id) (fresh : ∀ entry ∈ state.arrived, entry.2 < work)
    (called : work < state.calls) :
    let next := { state with arrived := state.arrived ++ [(id.owner, work)] }.setLane id
      { state.lane id with queue := (state.lane id).queue ++ [work] }
    Lanes none next ∧ Shifts id.owner (·.arrive work) state next := by
  intro next
  have placed := (lanes.live active).2
  have waiting := lanes.waitingOf_setLane placed
    { state.lane id with queue := (state.lane id).queue ++ [work] }
  have shifts : Shifts id.owner (·.arrive work) state next := by
    obtain ⟨runs, member⟩ := lanes.runs.mp active
    have running : (state.turns id.owner).running ≠ [] := by
      simp [Coordination.turns, lanes.runningOf_of_mem member]
    refine shifts_of ?_ fun owner same => ?_
    · rw [Turns.arrive, if_neg running]
      ext1
      · rfl
      · exact (waiting id.owner).trans (by simp [Coordination.turns, waitingOf_self placed])
      · exact (ofOwner_append _ _ _).trans (by simp [Coordination.turns])
      · rfl
      · rfl
      · rfl
    · ext1
      · rfl
      · exact (waiting owner).trans (if_neg same)
      · exact (ofOwner_append _ _ _).trans (by
          simp [Coordination.turns, ofOwner_of_ne fun eq => same eq.symm])
      · rfl
      · rfl
      · rfl
  have activeOf (other : LaneId) : (next.lane other).active = (state.lane other).active := by
    by_cases same : other = id
    · simp [next, setLane, same]
    · simp [next, setLane, same]
  refine ⟨?_, shifts⟩
  exact { lanes with
    live := fun isActive => lanes.live (activeOf _ ▸ isActive)
    registered := by
      intro accountId other found
      have entry := lanes.registered found
      refine ⟨entry.1, .inl ?_⟩
      rw [activeOf]
      cases entry.2 with
      | inl isActive => exact isActive
      | inr isSpare =>
        cases sole with
        | inl none => rw [none] at isSpare; cases isSpare
        | inr isId => rw [isId] at isSpare; cases isSpare; exact active
    busy := by
      intro other waits
      rw [activeOf]
      by_cases same : other = id
      · exact same ▸ active
      · simp only [next, setLane, Function.update_of_ne same] at waits
        exact lanes.busy waits
    runs := by
      intro other
      rw [activeOf]
      exact lanes.runs
    known := by
      intro entry member
      cases List.mem_append.mp member with
      | inl before => exact (fresh entry before).trans called
      | inr now => exact List.mem_singleton.mp now ▸ called
    orderly := shifts.orderly lanes.orderly ((lanes.orderly id.owner).arrive
      fun member => absurd (fresh _ (mem_ofOwner.mp member)) (lt_irrefl work)) }

/-- The lane has no work: what arrives begins. -/
theorem Lanes.begun (lanes : Lanes spare state) (inactive : (state.lane id).active = false)
    (placed : state.laneOf id.owner = some id) (inside : id.serial < state.made)
    (sole : spare = none ∨ spare = some id) (fresh : ∀ entry ∈ state.arrived, entry.2 < work)
    (called : work < state.calls) :
    let next := ({ state with arrived := state.arrived ++ [(id.owner, work)] }.setLane id
      { state.lane id with active := true }).admitWork id work
    Lanes none next ∧ Shifts id.owner (·.arrive work) state next := by
  intro next
  have waiting := lanes.waitingOf_setLane placed { state.lane id with active := true }
  have shifts : Shifts id.owner (·.arrive work) state next := by
    have running (owner : LaneOwner) : next.runningOf owner =
        state.runningOf owner ++ ofOwner owner [(id.owner, work)] := by
      simp [next, runningOf, ofOwner, admitWork, setLane, List.filter_cons, apply_ite]
    have idle : state.runningOf id.owner = [] := lanes.runningOf_eq_nil placed inactive
    refine shifts_of ?_ fun owner same => ?_
    · rw [Turns.arrive, if_pos (show (state.turns id.owner).running = [] from idle)]
      ext1
      · exact (running _).trans (by rw [idle, ofOwner_self]; rfl)
      · exact (waiting id.owner).trans (by simp [Coordination.turns, waitingOf_self placed])
      · exact (ofOwner_append _ _ _).trans (by rw [ofOwner_self]; rfl)
      · rfl
      · exact (ofOwner_append _ _ _).trans (by rw [ofOwner_self]; rfl)
      · rfl
    · have elsewhere : ofOwner owner [(id.owner, work)] = [] :=
        ofOwner_of_ne (fun eq => same eq.symm) work
      ext1
      · exact (running owner).trans (by rw [elsewhere, List.append_nil]; rfl)
      · exact (waiting owner).trans (if_neg same)
      · exact (ofOwner_append _ _ _).trans (by rw [elsewhere, List.append_nil]; rfl)
      · rfl
      · exact (ofOwner_append _ _ _).trans (by rw [elsewhere, List.append_nil]; rfl)
      · rfl
  have activeSelf : (next.lane id).active = true := by simp [next, admitWork, setLane]
  have laneOther {other : LaneId} (apart : other ≠ id) : next.lane other = state.lane other := by
    simp [next, admitWork, setLane, apart]
  refine ⟨?_, shifts⟩
  exact {
    made := lanes.made
    live := by
      intro other isActive
      by_cases same : other = id
      · exact same ▸ ⟨inside, placed⟩
      · exact lanes.live (laneOther same ▸ isActive)
    registered := by
      intro accountId other found
      have entry := lanes.registered found
      refine ⟨entry.1, .inl ?_⟩
      by_cases same : other = id
      · exact same ▸ activeSelf
      · rw [laneOther same]
        refine entry.2.resolve_right fun isSpare => ?_
        cases sole with
        | inl none => rw [none] at isSpare; cases isSpare
        | inr isId => exact same (Option.some.inj (isSpare.symm.trans isId))
    busy := by
      intro other waits
      by_cases same : other = id
      · exact same ▸ activeSelf
      · rw [laneOther same] at waits ⊢
        exact lanes.busy waits
    runs := by
      intro other
      by_cases same : other = id
      · subst same
        exact iff_of_true activeSelf ⟨work, List.mem_append_right _ List.mem_cons_self⟩
      · rw [laneOther same, lanes.runs]
        simp [next, admitWork, setLane, same]
    alone := by
      have noneRuns : ∀ entry ∈ state.running, entry.1 ≠ id := by
        intro entry runs same
        have isActive := lanes.runs.mpr ⟨entry.2, runs⟩
        rw [same, inactive] at isActive
        cases isActive
      simpa [next, admitWork, setLane, List.nodup_append] using
        ⟨lanes.alone, fun other value member same => noneRuns (other, value) member same⟩
    known := by
      intro entry member
      cases List.mem_append.mp member with
      | inl before => exact (fresh entry before).trans called
      | inr now => exact List.mem_singleton.mp now ▸ called
    orderly := shifts.orderly lanes.orderly ((lanes.orderly id.owner).arrive
      fun member => absurd (fresh _ (mem_ofOwner.mp member)) (lt_irrefl work)) }

/-- `run`: the work joins the turns of the owner of its lane. -/
theorem Lanes.run (lanes : Lanes spare state) (placed : state.laneOf id.owner = some id)
    (inside : id.serial < state.made) (sole : spare = none ∨ spare = some id)
    (fresh : ∀ entry ∈ state.arrived, entry.2 < work) (called : work < state.calls) :
    Lanes none (state.run id work) ∧ Shifts id.owner (·.arrive work) state (state.run id work) := by
  cases lanes.inactive_or id with
  | inl active =>
    have spec := lanes.queued active sole fresh called
    rw [Coordination.run, if_pos active, onChange_of_pending]
    · exact ⟨spec.1.changed, spec.2.changed⟩
    · rw [pending_ne_zero]
      exact .inl (by simp [setLane, active])
  | inr idle =>
    have spec := lanes.begun idle.1 placed inside sole fresh called
    have inactive : ¬ (state.lane id).active = true := by simp [idle.1]
    rw [Coordination.run, if_neg inactive, onChange_of_pending, changed_admitWork]
    · exact ⟨spec.1.changed, spec.2.changed⟩
    · rw [pending_ne_zero]
      exact .inl (by simp [setLane])

/-! ## Work ends -/

theorem reject_eq (state : Coordination) (id : LaneId) :
    ∃ rejected, state.reject id = { state with rejected } := by
  unfold reject
  split
  · exact ⟨state.rejected, rfl⟩
  · exact ⟨_, rfl⟩

theorem rejected_eq (state : Coordination) (id : LaneId) (failed : Bool) :
    ∃ rejected, (if failed then state.reject id else state) = { state with rejected } := by
  split
  · exact reject_eq state id
  · exact ⟨state.rejected, rfl⟩

/-- What a work's end leaves of the running works. -/
theorem Lanes.mem_erase (lanes : Lanes spare state) (member : (id, work) ∈ state.running)
    {other : LaneId} {value : WorkId} :
    (other, value) ∈ state.running.erase (id, work) ↔
      other ≠ id ∧ (other, value) ∈ state.running := by
  rw [lanes.nodup.mem_erase_iff]
  constructor
  · rintro ⟨apart, runs⟩
    refine ⟨fun same => apart ?_, runs⟩
    exact List.inj_on_of_nodup_map lanes.alone runs member same
  · rintro ⟨apart, runs⟩
    exact ⟨fun same => apart (congrArg Prod.fst same), runs⟩

theorem Lanes.runningOf_erase (lanes : Lanes spare state) (member : (id, work) ∈ state.running)
    (owner : LaneOwner) :
    (((state.running.erase (id, work)).filter fun entry => entry.1.owner = owner).map Prod.snd) =
      if owner = id.owner then [] else state.runningOf owner := by
  split
  case isTrue same =>
    rw [List.map_eq_nil_iff, List.filter_eq_nil_iff]
    rintro ⟨other, value⟩ kept sameOwner
    obtain ⟨apart, runs⟩ := (lanes.mem_erase member).mp kept
    have placed := lanes.placed_of_running runs
    rw [of_decide_eq_true sameOwner, same, lanes.placed_of_running member] at placed
    exact apart (Option.some.inj placed).symm
  case isFalse apart =>
    rw [runningOf, lanes.nodup.erase_eq_filter, List.filter_filter]
    congr 1
    apply List.filter_congr
    intro entry _
    by_cases same : entry = (id, work)
    · subst same
      simpa using fun eq : id.owner = owner => apart eq.symm
    · simp [same]

theorem Lanes.alone_erase (lanes : Lanes spare state) (id : LaneId) (work : WorkId) :
    ((state.running.erase (id, work)).map Prod.fst).Nodup :=
  (List.erase_sublist.map Prod.fst).nodup lanes.alone

/-- The work that has waited longest begins. -/
theorem Lanes.handed (lanes : Lanes none state) (member : (id, work) ∈ state.running)
    {first : WorkId} {others : List WorkId} (waits : (state.lane id).queue = first :: others)
    (rejected : List (JsString × LaneId)) :
    let next := ({ state with
      running := state.running.erase (id, work)
      finished := state.finished ++ [(id.owner, work)]
      rejected }.setLane id ⟨true, others⟩).admitWork id first
    Lanes none next ∧ Shifts id.owner (·.finish work) state next := by
  intro next
  have active := lanes.runs.mpr ⟨work, member⟩
  have placed := lanes.placed_of_running member
  have waiting := lanes.waitingOf_setLane placed ⟨true, others⟩
  have shifts : Shifts id.owner (·.finish work) state next := by
    have running (owner : LaneOwner) : next.runningOf owner =
        (if owner = id.owner then [] else state.runningOf owner) ++
          ofOwner owner [(id.owner, first)] := by
      rw [← lanes.runningOf_erase member]
      simp [next, runningOf, ofOwner, admitWork, setLane, List.filter_cons, apply_ite]
    have queue : (state.turns id.owner).waiting = first :: others :=
      (waitingOf_self placed).trans waits
    refine shifts_of ?_ fun owner same => ?_
    · rw [Turns.finish, queue]
      ext1
      · exact (running _).trans (by rw [if_pos rfl, ofOwner_self]; rfl)
      · exact (waiting id.owner).trans (if_pos rfl)
      · rfl
      · rfl
      · exact (ofOwner_append _ _ _).trans (by rw [ofOwner_self]; rfl)
      · exact (ofOwner_append _ _ _).trans (by rw [ofOwner_self]; rfl)
    · have elsewhere (value : WorkId) : ofOwner owner [(id.owner, value)] = [] :=
        ofOwner_of_ne (fun eq => same eq.symm) value
      ext1
      · exact (running owner).trans (by rw [if_neg same, elsewhere, List.append_nil]; rfl)
      · exact (waiting owner).trans (if_neg same)
      · rfl
      · rfl
      · exact (ofOwner_append _ _ _).trans (by rw [elsewhere, List.append_nil]; rfl)
      · exact (ofOwner_append _ _ _).trans (by rw [elsewhere, List.append_nil]; rfl)
  have activeOf (other : LaneId) : (next.lane other).active = (state.lane other).active := by
    by_cases same : other = id
    · simp [next, admitWork, setLane, same, active]
    · simp [next, admitWork, setLane, same]
  refine ⟨?_, shifts⟩
  exact { lanes with
    live := fun isActive => lanes.live (activeOf _ ▸ isActive)
    registered := by
      intro accountId other found
      rw [activeOf]
      exact lanes.registered found
    busy := by
      intro other waits
      rw [activeOf]
      by_cases same : other = id
      · exact same ▸ active
      · simp only [next, admitWork, setLane, Function.update_of_ne same] at waits
        exact lanes.busy waits
    runs := by
      intro other
      rw [activeOf]
      by_cases same : other = id
      · subst same
        exact iff_of_true active ⟨first, List.mem_append_right _ List.mem_cons_self⟩
      · rw [lanes.runs]
        simp [next, admitWork, setLane, lanes.mem_erase member, same]
    alone := by
      have noneRuns (value : WorkId) : (id, value) ∉ state.running.erase (id, work) :=
        fun kept => ((lanes.mem_erase member).mp kept).1 rfl
      have alone := lanes.alone_erase id work
      simp only [next, admitWork, setLane, List.map_append, List.nodup_append]
      refine ⟨alone, by simp, ?_⟩
      intro other isOther last isLast same
      obtain ⟨⟨key, value⟩, kept, rfl⟩ := List.mem_map.mp isOther
      have isId : key = id := same.trans (List.mem_singleton.mp isLast)
      rw [isId] at kept
      exact noneRuns value kept
    orderly := shifts.orderly lanes.orderly
      ((lanes.orderly id.owner).finish (lanes.runningOf_of_mem member)) }

/-- The map once the lane has nothing left to do. -/
def generationsWithout (state : Coordination) : LaneOwner → OrderedMap JsString LaneId
  | .lifecycle => state.generations
  | .generation accountId => state.generations.erase accountId

/-- The lane of an account leaves the map with its last work. -/
theorem onChange_of_last (state : Coordination) (none : (state.lane id).pending = 0)
    (placed : state.laneOf id.owner = some id) :
    state.onChange id =
      { state with generations := state.generationsWithout id.owner }.changed := by
  unfold onChange
  split
  case h_1 isLifecycle =>
    rw [isLifecycle]
    rfl
  case h_2 accountId isGeneration =>
    rw [isGeneration] at placed ⊢
    rw [generationChanged, forget, if_pos ⟨none, placed⟩]
    rfl

theorem laneOf_without (state : Coordination) (owner other : LaneOwner)
    (lane : LaneId → CoordinationLane) (rejected : List (JsString × LaneId)) :
    { state with lane, rejected, generations := state.generationsWithout owner }.laneOf other =
      if other = owner ∧ owner ≠ .lifecycle then none else state.laneOf other := by
  cases owner with
  | lifecycle => cases other <;> simp [laneOf, generationsWithout]
  | generation accountId =>
    cases other with
    | lifecycle => simp [laneOf]
    | generation otherId =>
      simp [laneOf, generationsWithout, OrderedMap.get_erase, eq_comm (a := accountId)]

/-- Nothing waits: the lane falls idle. -/
theorem Lanes.last (lanes : Lanes none state) (member : (id, work) ∈ state.running)
    (waits : (state.lane id).queue = []) (rejected : List (JsString × LaneId)) :
    let next := { state with
      lane := Function.update state.lane id ⟨false, []⟩
      running := state.running.erase (id, work)
      finished := state.finished ++ [(id.owner, work)]
      generations := state.generationsWithout id.owner
      rejected }
    Lanes none next ∧ Shifts id.owner (·.finish work) state next := by
  intro next
  have active := lanes.runs.mpr ⟨work, member⟩
  have placed := lanes.placed_of_running member
  have laneSelf : next.lane id = ⟨false, []⟩ := by simp [next]
  have laneOther {other : LaneId} (apart : other ≠ id) : next.lane other = state.lane other := by
    simp [next, apart]
  have laneOf (owner : LaneOwner) : next.laneOf owner =
      if owner = id.owner ∧ id.owner ≠ .lifecycle then none else state.laneOf owner :=
    laneOf_without state id.owner owner next.lane rejected
  have waiting (owner : LaneOwner) : next.waitingOf owner =
      if owner = id.owner then [] else state.waitingOf owner := by
    rw [waitingOf, laneOf]
    by_cases same : owner = id.owner
    · rw [if_pos same, same]
      by_cases isLifecycle : id.owner = .lifecycle
      · simp [isLifecycle, isLifecycle ▸ placed, laneSelf]
      · simp [isLifecycle]
    · rw [if_neg same, if_neg fun both => same both.1, waitingOf]
      cases found : state.laneOf owner with
      | none => rfl
      | some other =>
        have apart : other ≠ id := fun sameLane =>
          same ((lanes.owner_of_laneOf found).symm.trans (congrArg _ sameLane))
        exact congrArg CoordinationLane.queue (laneOther apart)
  have shifts : Shifts id.owner (·.finish work) state next := by
    have running := lanes.runningOf_erase member
    have queue : (state.turns id.owner).waiting = [] := (waitingOf_self placed).trans waits
    refine shifts_of ?_ fun owner same => ?_
    · rw [Turns.finish, queue]
      ext1
      · exact (running _).trans (if_pos rfl)
      · exact (waiting id.owner).trans (if_pos rfl)
      · rfl
      · rfl
      · exact (List.append_nil _).symm
      · exact (ofOwner_append _ _ _).trans (by rw [ofOwner_self]; rfl)
    · ext1
      · exact (running owner).trans (if_neg same)
      · exact (waiting owner).trans (if_neg same)
      · rfl
      · rfl
      · rfl
      · exact (ofOwner_append _ _ _).trans (by
          rw [ofOwner_of_ne fun eq => same eq.symm, List.append_nil]; rfl)
  refine ⟨?_, shifts⟩
  exact { lanes with
    live := by
      intro other isActive
      by_cases same : other = id
      · rw [same, laneSelf] at isActive
        cases isActive
      · rw [laneOther same] at isActive
        obtain ⟨inside, otherPlaced⟩ := lanes.live isActive
        refine ⟨inside, ?_⟩
        rw [laneOf, if_neg, otherPlaced]
        intro both
        rw [both.1, placed] at otherPlaced
        exact same (Option.some.inj otherPlaced).symm
    registered := by
      intro accountId other found
      have place := laneOf (.generation accountId)
      rw [show next.laneOf (.generation accountId) = some other from found] at place
      split at place
      case isTrue => cases place
      case isFalse kept =>
        have entry := lanes.registered place.symm
        have apart : other ≠ id := by
          intro same
          rw [same] at entry
          exact kept ⟨entry.1.symm, by simp [entry.1]⟩
        rw [laneOther apart]
        exact entry
    busy := by
      intro other queued
      by_cases same : other = id
      · rw [same, laneSelf] at queued
        exact absurd rfl queued
      · rw [laneOther same] at queued ⊢
        exact lanes.busy queued
    runs := by
      intro other
      by_cases same : other = id
      · subst same
        rw [laneSelf]
        simp [next, lanes.mem_erase member]
      · rw [laneOther same, lanes.runs]
        simp [next, lanes.mem_erase member, same]
    alone := lanes.alone_erase id work
    orderly := shifts.orderly lanes.orderly
      ((lanes.orderly id.owner).finish (lanes.runningOf_of_mem member)) }

/-- `finish`: the turns of the owner of the lane pass on. -/
theorem Lanes.finish {failed : Bool} (lanes : Lanes none state)
    (finished : state.finish id work failed = some next) :
    (id, work) ∈ state.running ∧ Lanes none next ∧ Shifts id.owner (·.finish work) state next := by
  rw [Coordination.finish] at finished
  split at finished
  case isFalse => cases finished
  case isTrue member =>
    refine ⟨member, ?_⟩
    have placed := lanes.placed_of_running member
    obtain ⟨rejected, shape⟩ := rejected_eq { state with
      running := state.running.erase (id, work)
      finished := state.finished ++ [(id.owner, work)] } id failed
    simp only [shape] at finished
    cases waits : (state.lane id).queue with
    | nil =>
      simp only [waits] at finished
      have spec := lanes.last member waits rejected
      cases finished
      rw [onChange_of_last]
      · exact ⟨spec.1.changed, spec.2.changed⟩
      · simp [setLane, CoordinationLane.pending]
      · exact placed
    | cons first others =>
      simp only [waits] at finished
      have spec := lanes.handed member waits rejected
      cases finished
      rw [onChange_of_pending, changed_admitWork]
      · exact ⟨spec.1.changed, spec.2.changed⟩
      · simp [setLane, CoordinationLane.pending]

/-! ## Calls and listeners -/

/-- A lane that is made for an account is in the map and has no work yet. -/
theorem Lanes.generationLane (lanes : Lanes none state) (accountId : JsString) :
    ∃ made generations, (state.generationLane accountId).2 = { state with made, generations } ∧
      Lanes (some (state.generationLane accountId).1) (state.generationLane accountId).2 ∧
      (state.generationLane accountId).1.owner = .generation accountId ∧
      (state.generationLane accountId).1.serial < made ∧
      generations.get accountId = some (state.generationLane accountId).1 ∧
      ∀ owner, (state.generationLane accountId).2.turns owner = state.turns owner := by
  unfold Coordination.generationLane
  split
  case h_1 id found =>
    obtain ⟨isOwner, active⟩ := lanes.registered found
    have isActive := active.resolve_right nofun
    refine ⟨state.made, state.generations, rfl, ?_, isOwner, (lanes.live isActive).1, found,
      fun _ => rfl⟩
    exact ⟨lanes.made, lanes.live, fun {_ _} entry => ⟨(lanes.registered entry).1,
      .inl ((lanes.registered entry).2.resolve_right nofun)⟩, lanes.busy, lanes.runs, lanes.alone,
      lanes.known, lanes.orderly⟩
  case h_2 absent =>
    let id : LaneId := ⟨.generation accountId, state.made⟩
    -- no lane with this number was made, so the new lane is what the heap had there
    have unused : state.lane id = ⟨false, []⟩ := by
      cases lanes.inactive_or id with
      | inl active => exact absurd (lanes.live active).1 (Nat.lt_irrefl _)
      | inr idle =>
        obtain ⟨inactive, empty⟩ := idle
        rw [← inactive, ← empty]
    have heap : Function.update state.lane id ⟨false, []⟩ = state.lane := by
      rw [← unused, Function.update_eq_self]
    let generations := state.generations.set accountId id
    have shape : { state.setLane id ⟨false, []⟩ with made := state.made + 1, generations } =
        { state with made := state.made + 1, generations } := by
      simp only [setLane, heap]
    have waiting (owner : LaneOwner) :
        { state with made := state.made + 1, generations }.waitingOf owner =
          state.waitingOf owner := by
      cases owner with
      | lifecycle => rfl
      | generation other =>
        simp only [waitingOf, laneOf, generations, OrderedMap.get_set]
        by_cases same : accountId = other
        · subst same
          simp [absent, unused]
        · simp [same]
    have turns (owner : LaneOwner) :
        { state with made := state.made + 1, generations }.turns owner = state.turns owner := by
      ext1
      · rfl
      · exact waiting owner
      · rfl
      · rfl
      · rfl
      · rfl
    refine ⟨state.made + 1, generations, shape, ?_, rfl, Nat.lt_succ_self _,
      OrderedMap.get_set_self _ _ _, fun owner =>
        (congrArg (·.turns owner) shape).trans (turns owner)⟩
    show Lanes (some id) { state.setLane id ⟨false, []⟩ with made := state.made + 1, generations }
    rw [shape]
    exact { lanes with
      made := Nat.succ_pos _
      live := by
        intro other isActive
        obtain ⟨inside, placed⟩ := lanes.live isActive
        refine ⟨Nat.lt_succ_of_lt inside, ?_⟩
        cases isOwner : other.owner with
        | lifecycle =>
          rw [isOwner] at placed
          exact placed
        | generation otherId =>
          rw [isOwner] at placed
          have apart : accountId ≠ otherId := by
            intro same
            rw [← same] at placed
            cases absent.symm.trans placed
          exact (OrderedMap.get_set_of_ne apart _ _).trans placed
      registered := by
        intro otherId other found
        by_cases same : accountId = otherId
        · subst same
          have isId : id = other := Option.some.inj
            ((OrderedMap.get_set_self state.generations accountId id).symm.trans found)
          exact ⟨isId ▸ rfl, .inr (congrArg _ isId)⟩
        · have before := (OrderedMap.get_set_of_ne same state.generations id).symm.trans found
          obtain ⟨isOwner, active⟩ := lanes.registered before
          exact ⟨isOwner, .inl (active.resolve_right nofun)⟩
      orderly := by
        intro owner
        rw [turns]
        exact lanes.orderly owner }

theorem Lanes.withdrawn (lanes : Lanes none state) (waits : work ∈ (state.lane id).queue)
    (rejected : List (JsString × LaneId)) :
    let next := { state with
      lane := Function.update state.lane id
        { state.lane id with queue := (state.lane id).queue.erase work }
      withdrawn := state.withdrawn ++ [(id.owner, work)]
      rejected }
    Lanes none next ∧ work ∈ (state.turns id.owner).waiting ∧
      Shifts id.owner (·.withdraw work) state next := by
  intro next
  have active := lanes.busy (List.ne_nil_of_mem waits)
  have placed := (lanes.live active).2
  have queued : work ∈ (state.turns id.owner).waiting := by
    simpa [Coordination.turns, waitingOf_self placed] using waits
  have waiting := lanes.waitingOf_setLane placed
    { state.lane id with queue := (state.lane id).queue.erase work }
  have shifts : Shifts id.owner (·.withdraw work) state next := by
    refine shifts_of ?_ fun owner same => ?_
    · rw [Turns.withdraw]
      ext1
      · rfl
      · exact (waiting id.owner).trans (by simp [Coordination.turns, waitingOf_self placed])
      · rfl
      · exact (ofOwner_append _ _ _).trans (by rw [ofOwner_self]; rfl)
      · rfl
      · rfl
    · ext1
      · rfl
      · exact (waiting owner).trans (if_neg same)
      · rfl
      · exact (ofOwner_append _ _ _).trans (by
          rw [ofOwner_of_ne fun eq => same eq.symm, List.append_nil]; rfl)
      · rfl
      · rfl
  have activeOf (other : LaneId) : (next.lane other).active = (state.lane other).active := by
    by_cases same : other = id
    · simp [next, same]
    · simp [next, same]
  refine ⟨?_, queued, shifts⟩
  exact { lanes with
    live := fun isActive => lanes.live (activeOf _ ▸ isActive)
    registered := by
      intro accountId other found
      rw [activeOf]
      exact lanes.registered found
    busy := by
      intro other waits
      rw [activeOf]
      by_cases same : other = id
      · exact same ▸ active
      · simp only [next, Function.update_of_ne same] at waits
        exact lanes.busy waits
    runs := by
      intro other
      rw [activeOf]
      exact lanes.runs
    orderly := shifts.orderly lanes.orderly ((lanes.orderly id.owner).withdraw queued) }

/-- The listener of a signal: the work leaves the queue if it is still there. -/
theorem Lanes.abort (lanes : Lanes none state) (id : LaneId) (work : WorkId) :
    Lanes none (state.abort id work) ∧
      (work ∉ (state.lane id).queue ∧
        (∀ owner, (state.abort id work).turns owner = state.turns owner) ∨
        work ∈ (state.turns id.owner).waiting ∧
          Shifts id.owner (·.withdraw work) state (state.abort id work)) := by
  rw [Coordination.abort]
  split
  case isFalse absent => exact ⟨lanes, .inl ⟨absent, fun _ => rfl⟩⟩
  case isTrue waits =>
    obtain ⟨rejected, shape⟩ := reject_eq ({ state with
      withdrawn := state.withdrawn ++ [(id.owner, work)] }.setLane id
        { state.lane id with queue := (state.lane id).queue.erase work }) id
    have active := lanes.busy (List.ne_nil_of_mem waits)
    obtain ⟨kept, queued, turns⟩ := lanes.withdrawn waits rejected
    rw [onChange_of_pending, shape]
    · exact ⟨kept.changed, .inr ⟨queued, turns.changed⟩⟩
    · rw [shape, pending_ne_zero]
      exact .inl (by simp [setLane, active])

/-- The `catch` finds no lane to remove. -/
theorem Lanes.forget_eq (lanes : Lanes none state) (accountId : JsString) (id : LaneId) :
    state.forget accountId id = state := by
  rw [forget, if_neg]
  rintro ⟨none, found⟩
  have active := (lanes.registered found).2.resolve_right nofun
  exact pending_ne_zero.mpr (.inl active) none

theorem Lanes.caught {place : Nat} (lanes : Lanes none state)
    (caught : state.caught place = some next) : ∃ rejected, next = { state with rejected } := by
  obtain ⟨call, -, rfl⟩ := Option.map_eq_some_iff.mp caught
  have kept : Lanes none { state with rejected := state.rejected.eraseIdx place } :=
    ⟨lanes.made, lanes.live, lanes.registered, lanes.busy, lanes.runs, lanes.alone, lanes.known,
      lanes.orderly⟩
  exact ⟨_, kept.forget_eq call.1 call.2⟩

end GhcGateway.Accounts.Coordination
