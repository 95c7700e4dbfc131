/-
# What holds of the inference pool under every schedule

While the registry is open an entry is closed only by draining it, and it is drained
only while it is idle and after it has left `entries`. A call that holds a slot or
waits for one is known to the entry, and the initialisations that have not ended are
those the entries wait for.

A move is put together from a few parts: the stage of one call changes, or one
entry, or the place where an entry is kept. `PoolPart` lists them with what makes
each of them fit the state it is done in, and is all that later results use of a
move.
-/

import GhcGateway.Copilot.InferencePool
import GhcGateway.Copilot.InferencePoolEntryInvariant

namespace GhcGateway.Copilot

open Library InferencePool InferencePoolEntry

variable {limits : InferencePoolLimits} {id : EntryId}

/-- The error a call fails with, or is about to. -/
def CallStage.error : CallStage → Option PoolError
  | .failing _ error | .failed error => some error
  | _ => none

/-- The entry a call holds a slot of before `acquire` has returned. -/
def CallStage.holds : CallStage → Option EntryId
  | .granted id | .initializing id _ | .failing id _ => some id
  | _ => none

structure PoolConsistent (limits : InferencePoolLimits) (state : InferencePool) : Prop where
  sound : ∀ id, EntrySound limits state.nextInit (state.pool id)
  selected : ∀ call id, (state.calls call).stage = .selected id → id < state.nextEntry
  held : ∀ call id, (state.calls call).stage.holds = some id → call ∈ (state.pool id).leases
  waits : ∀ call id, (state.calls call).stage = .waiting id → call ∈ (state.pool id).waiters
  registered : ∀ key id, state.entries.get key = some id →
    (state.pool id).closed = false ∧ profileKey (state.profiles id) = key ∧ id < state.nextEntry
  unborn : ∀ id, state.nextEntry ≤ id → (state.pool id).Quiet ∧ (state.pool id).closed = false
  creating : ∀ init id, state.inits init = .creating id →
    (state.pool id).dispatcherPromise = some init ∧ (state.pool id).dispatcher = none
  noted : ∀ init id outcome, state.inits init = .noted id outcome →
    (state.pool id).dispatcherPromise = some init
  grace : ∀ id owner, state.drains id = .grace owner → (state.pool id).closed = true
  forced : ∀ id, state.drains id = .forced →
    (state.pool id).closed = true ∧ (state.pool id).forceClosed = true
  bounded : state.entries.entries.length + state.draining.length ≤ limits.maxEntries

namespace InferencePool

variable (state : InferencePool)

@[simp]
theorem pool_setEntry_self (id : EntryId) (entry : InferencePoolEntry) :
    (state.setEntry id entry).pool id = entry := Function.update_self ..

theorem pool_setEntry_of_ne {other : EntryId} (apart : other ≠ id) (entry : InferencePoolEntry) :
    (state.setEntry id entry).pool other = state.pool other :=
  Function.update_of_ne apart ..

@[simp]
theorem setEntry_self (id : EntryId) : state.setEntry id (state.pool id) = state := by
  unfold setEntry
  rw [Function.update_eq_self]

theorem calls_setStage_self (call : CallId) (stage : CallStage) :
    (state.setStage call stage).calls call = { state.calls call with stage } :=
  Function.update_self ..

@[simp]
theorem stage_setStage_self (call : CallId) (stage : CallStage) :
    ((state.setStage call stage).calls call).stage = stage := by
  rw [calls_setStage_self]

theorem calls_setStage_of_ne {call other : CallId} (apart : other ≠ call) (stage : CallStage) :
    (state.setStage call stage).calls other = state.calls other :=
  Function.update_of_ne apart ..

@[simp]
theorem aborted_setStage (call other : CallId) (stage : CallStage) :
    ((state.setStage call stage).calls other).aborted = (state.calls other).aborted := by
  by_cases same : other = call
  · rw [same, calls_setStage_self]
  · rw [calls_setStage_of_ne state same]

@[simp]
theorem setStage_setStage (call : CallId) (first second : CallStage) :
    (state.setStage call first).setStage call second = state.setStage call second := by
  unfold setStage
  simp only [Function.update_self, Function.update_idem]

/-- An entry without waiters begins to drain. -/
theorem beginDraining_of_no_waiters (none : (state.pool id).close.2 = [])
    (entries : OrderedMap JsString EntryId) (owner : Option CallId) :
    { state with entries }.beginDraining id owner =
      { state.setEntry id (state.pool id).close.1 with
        entries
        draining := state.draining ++ [id]
        drains := Function.update state.drains id (.grace owner) } := by
  unfold beginDraining closeEntry
  dsimp only
  rw [none]
  rfl

theorem setStage_setEntry (call : CallId) (stage : CallStage) (id : EntryId)
    (entry : InferencePoolEntry) :
    (state.setStage call stage).setEntry id entry = (state.setEntry id entry).setStage call stage :=
  rfl

end InferencePool

theorem poolConsistent_initial : PoolConsistent limits .initial where
  sound := fun _ => .new 0
  selected := fun _ _ selected => nomatch selected
  held := fun _ _ held => nomatch held
  waits := fun _ _ waits => nomatch waits
  registered := fun _ _ found => nomatch found
  unborn := fun _ _ => ⟨⟨rfl, rfl, rfl, rfl, rfl, rfl⟩, rfl⟩
  creating := fun _ _ creating => nomatch creating
  noted := fun _ _ _ noted => nomatch noted
  grace := fun _ _ grace => nomatch grace
  forced := fun _ forced => nomatch forced
  bounded := Nat.zero_le _

namespace PoolConsistent

variable {state : InferencePool}

theorem born_of_registered (consistent : PoolConsistent limits state) {key : JsString}
    (found : state.entries.get key = some id) : id < state.nextEntry :=
  (consistent.registered key id found).2.2

/-- An entry that is not as it would be before it is made. -/
theorem born_of_not_quiet (consistent : PoolConsistent limits state)
    (used : ¬ (state.pool id).Quiet) : id < state.nextEntry := by
  by_contra unborn
  exact used (consistent.unborn id (Nat.not_lt.mp unborn)).1

theorem born_of_closed (consistent : PoolConsistent limits state)
    (closed : (state.pool id).closed = true) : id < state.nextEntry := by
  by_contra unborn
  rw [(consistent.unborn id (Nat.not_lt.mp unborn)).2] at closed
  cases closed

end PoolConsistent

namespace InferencePoolEntry

variable {entry : InferencePoolEntry} {call : CallId}

theorem not_quiet_of_lease (held : call ∈ entry.leases) : ¬ entry.Quiet := by
  intro quiet
  rw [quiet.leases] at held
  cases held

theorem not_quiet_of_waiter (waits : call ∈ entry.waiters) : ¬ entry.Quiet := by
  intro quiet
  rw [quiet.waiters] at waits
  cases waits

theorem not_quiet_of_pending {init : InitId} (pending : entry.dispatcherPromise = some init) :
    ¬ entry.Quiet := by
  intro quiet
  rw [quiet.dispatcherPromise] at pending
  cases pending

/-- The closing of the entry has come to its end, or is not waited for. -/
def Ended (entry : InferencePoolEntry) : Prop :=
  entry.closePromise = .fulfilled ∨ entry.forceClosed = true

end InferencePoolEntry

namespace InferencePool

/-- What makes a call fail with an error: its signal, a selected entry that has been
closed, or an error it was about to fail with. -/
def Explains (state : InferencePool) (call : CallId) (error : PoolError) : Prop :=
  (state.calls call).stage.error = some error ∨
    match error with
    | .aborted => (state.calls call).aborted = true
    | .closed => ∃ id, (state.calls call).stage = .selected id ∧ (state.pool id).closed = true
    | _ => True

/-- A call that is not aborted has selected the entry and has not gone on. -/
def Selected (state : InferencePool) (id : EntryId) : Prop :=
  ∃ call, (state.calls call).stage = .selected id ∧ (state.calls call).aborted = false

end InferencePool

/-- What the new value of an entry has to keep. -/
structure Keeps (limits : InferencePoolLimits) (state : InferencePool) (id : EntryId)
    (entry : InferencePoolEntry) : Prop where
  sound : EntrySound limits state.nextInit entry
  unborn : state.nextEntry ≤ id → entry.Quiet ∧ entry.closed = false
  held : ∀ call, (state.calls call).stage.holds = some id → call ∈ entry.leases
  waits : ∀ call, (state.calls call).stage = .waiting id → call ∈ entry.waiters
  creating : ∀ init, state.inits init = .creating id →
    entry.dispatcherPromise = some init ∧ entry.dispatcher = none
  noted : ∀ init outcome, state.inits init = .noted id outcome →
    entry.dispatcherPromise = some init
  closed : entry.closed = (state.pool id).closed
  ended : (state.pool id).Ended → entry.Ended
  forced : (state.pool id).forceClosed = true → entry.forceClosed = true
  quiet : (∀ key, state.entries.get key ≠ some id) → (state.pool id).Quiet →
    (state.pool id).closed = false → ¬ state.Selected id → entry.Quiet

/-- One part of a move, and why it fits. Under `clean` an entry is dropped only where
it is not in use; under `spare` no entry is drained that a call has selected. -/
inductive PoolPart (limits : InferencePoolLimits) (clean spare : Prop) (state : InferencePool) :
    InferencePool → Prop
  | stage (call : CallId) (stage : CallStage)
      (selected : ∀ id, stage = .selected id → ∃ key, state.entries.get key = some id)
      (held : ∀ id, stage.holds = some id → call ∈ (state.pool id).leases)
      (waits : ∀ id, stage = .waiting id → call ∈ (state.pool id).waiters)
      (explained : ∀ error, stage.error = some error → state.Explains call error) :
      PoolPart limits clean spare state (state.setStage call stage)
  | entry (id : EntryId) (entry : InferencePoolEntry) (keeps : Keeps limits state id entry) :
      PoolPart limits clean spare state (state.setEntry id entry)
  | abort (call : CallId) :
      PoolPart limits clean spare state { state with
        calls := Function.update state.calls call { state.calls call with aborted := true } }
  | call (profile : InferenceConnectionProfile) (aborted : Bool) :
      PoolPart limits clean spare state { state with
        calls := Function.update state.calls state.nextCall ⟨profile, aborted, .unborn⟩
        nextCall := state.nextCall + 1 }
  | register (profile : InferenceConnectionProfile)
      (absent : state.entries.get (profileKey profile) = none)
      (room : state.entries.entries.length + state.draining.length < limits.maxEntries) :
      PoolPart limits clean spare state { state with
        entries := state.entries.set (profileKey profile) state.nextEntry
        pool := Function.update state.pool state.nextEntry (.new state.clock)
        profiles := Function.update state.profiles state.nextEntry profile
        nextEntry := state.nextEntry + 1 }
  | drain (id : EntryId) (owner : Option CallId)
      (registered : state.entries.get (profileKey (state.profiles id)) = some id)
      (idle : (state.pool id).idle = true) (spared : spare → ¬ state.Selected id) :
      PoolPart limits clean spare state
        ({ state with
          entries := state.entries.erase (profileKey (state.profiles id)) }.beginDraining id owner)
  | drop (key : JsString) (id : EntryId) (registered : state.entries.get key = some id)
      (failed : (state.pool id).failedInitialization = true)
      (unused : clean → (state.pool id).idle = true ∧ ¬ state.Selected id) :
      PoolPart limits clean spare state { state with entries := state.entries.erase key }
  | start (id : EntryId) (used : (state.pool id).leases ≠ [])
      (none : (state.pool id).dispatcherPromise = none)
      (noDispatcher : (state.pool id).dispatcher = Option.none) :
      PoolPart limits clean spare state
        ({ state with
          inits := Function.update state.inits state.nextInit (.creating id)
          nextInit := state.nextInit + 1 }.setEntry id
            { state.pool id with dispatcherPromise := some state.nextInit })
  | init (init : InitId) (stage : InitStage)
      (next : (∃ id outcome, state.inits init = .creating id ∧ stage = .noted id outcome) ∨
        ∃ id outcome, state.inits init = .noted id outcome ∧ stage = .settled id outcome) :
      PoolPart limits clean spare state { state with
        inits := Function.update state.inits init stage }
  | undrain (id : EntryId) (closed : (state.pool id).closed = true)
      (ended : (state.pool id).Ended) :
      PoolPart limits clean spare state { state with
        draining := state.draining.erase id
        drains := Function.update state.drains id .done }
  | force (id : EntryId) (closed : (state.pool id).closed = true)
      (forced : (state.pool id).forceClosed = true) :
      PoolPart limits clean spare state { state with
        drains := Function.update state.drains id .forced }
  | tick (ms : Nat) : PoolPart limits clean spare state { state with clock := state.clock + ms }

namespace PoolConsistent

variable {state : InferencePool}

section

variable (consistent : PoolConsistent limits state)

include consistent

/-- A call goes to a stage that its entry knows of. -/
theorem setStage (call : CallId) {stage : CallStage}
    (selected : ∀ id, stage = .selected id → id < state.nextEntry)
    (held : ∀ id, stage.holds = some id → call ∈ (state.pool id).leases)
    (waits : ∀ id, stage = .waiting id → call ∈ (state.pool id).waiters) :
    PoolConsistent limits (state.setStage call stage) :=
  { consistent with
    selected := by
      intro other id
      by_cases same : other = call
      · subst same
        rw [stage_setStage_self]
        exact selected id
      · rw [calls_setStage_of_ne state same]
        exact consistent.selected other id
    held := by
      intro other id
      by_cases same : other = call
      · subst same
        rw [stage_setStage_self]
        exact held id
      · rw [calls_setStage_of_ne state same]
        exact consistent.held other id
    waits := by
      intro other id
      by_cases same : other = call
      · subst same
        rw [stage_setStage_self]
        exact waits id
      · rw [calls_setStage_of_ne state same]
        exact consistent.waits other id }

/-- One entry changes. -/
theorem setEntry {entry : InferencePoolEntry} (keeps : Keeps limits state id entry) :
    PoolConsistent limits (state.setEntry id entry) := by
  constructor
  case sound =>
    intro other
    by_cases same : other = id
    · subst same
      rw [pool_setEntry_self]
      exact keeps.sound
    · rw [pool_setEntry_of_ne state same]
      exact consistent.sound other
  case selected => exact consistent.selected
  case held =>
    intro call other held
    by_cases same : other = id
    · subst same
      rw [pool_setEntry_self]
      exact keeps.held call held
    · rw [pool_setEntry_of_ne state same]
      exact consistent.held call other held
  case waits =>
    intro call other waits
    by_cases same : other = id
    · subst same
      rw [pool_setEntry_self]
      exact keeps.waits call waits
    · rw [pool_setEntry_of_ne state same]
      exact consistent.waits call other waits
  case registered =>
    intro key other found
    have was := consistent.registered key other found
    by_cases same : other = id
    · subst same
      rw [pool_setEntry_self, keeps.closed]
      exact was
    · rw [pool_setEntry_of_ne state same]
      exact was
  case unborn =>
    intro other new
    by_cases same : other = id
    · subst same
      rw [pool_setEntry_self]
      exact keeps.unborn new
    · rw [pool_setEntry_of_ne state same]
      exact consistent.unborn other new
  case creating =>
    intro init other creating
    by_cases same : other = id
    · subst same
      rw [pool_setEntry_self]
      exact keeps.creating init creating
    · rw [pool_setEntry_of_ne state same]
      exact consistent.creating init other creating
  case noted =>
    intro init other outcome noted
    by_cases same : other = id
    · subst same
      rw [pool_setEntry_self]
      exact keeps.noted init outcome noted
    · rw [pool_setEntry_of_ne state same]
      exact consistent.noted init other outcome noted
  case grace =>
    intro other owner grace
    have was := consistent.grace other owner grace
    by_cases same : other = id
    · subst same
      rw [pool_setEntry_self, keeps.closed]
      exact was
    · rw [pool_setEntry_of_ne state same]
      exact was
  case forced =>
    intro other forced
    have was := consistent.forced other forced
    by_cases same : other = id
    · subst same
      rw [pool_setEntry_self, keeps.closed]
      exact ⟨was.1, keeps.forced was.2⟩
    · rw [pool_setEntry_of_ne state same]
      exact was
  case bounded => exact consistent.bounded

/-- A key is not registered any more. -/
theorem unregister (key : JsString) :
    PoolConsistent limits { state with entries := state.entries.erase key } :=
  { consistent with
    registered := by
      intro other id found
      rw [OrderedMap.get_erase] at found
      split at found
      · cases found
      · exact consistent.registered other id found
    bounded := Nat.le_trans
      (Nat.add_le_add_right (state.entries.length_erase_le key) _) consistent.bounded }

/-- The signal of a call does not matter. -/
theorem abort (call : CallId) :
    PoolConsistent limits { state with
      calls := Function.update state.calls call { state.calls call with aborted := true } } := by
  have stages : ∀ other, (Function.update state.calls call
      { state.calls call with aborted := true } other).stage = (state.calls other).stage := by
    intro other
    by_cases same : other = call
    · subst same
      rw [Function.update_self]
    · rw [Function.update_of_ne same]
  exact { consistent with
    selected := fun other id => by
      rw [stages]
      exact consistent.selected other id
    held := fun other id => by
      rw [stages]
      exact consistent.held other id
    waits := fun other id => by
      rw [stages]
      exact consistent.waits other id }

/-- A call arrives. -/
theorem call (profile : InferenceConnectionProfile) (aborted : Bool) :
    PoolConsistent limits { state with
      calls := Function.update state.calls state.nextCall ⟨profile, aborted, .unborn⟩
      nextCall := state.nextCall + 1 } := by
  have stages : ∀ other, (Function.update state.calls state.nextCall
      (⟨profile, aborted, .unborn⟩ : PoolCall) other).stage = .unborn ∨
        (Function.update state.calls state.nextCall (⟨profile, aborted, .unborn⟩ : PoolCall)
          other) = state.calls other := by
    intro other
    by_cases same : other = state.nextCall
    · subst same
      exact .inl (by rw [Function.update_self])
    · exact .inr (Function.update_of_ne same ..)
  exact { consistent with
    selected := fun other id selected => by
      dsimp only at selected
      rcases stages other with new | old
      · rw [new] at selected
        cases selected
      · rw [old] at selected
        exact consistent.selected other id selected
    held := fun other id held => by
      dsimp only at held
      rcases stages other with new | old
      · rw [new] at held
        cases held
      · rw [old] at held
        exact consistent.held other id held
    waits := fun other id waits => by
      dsimp only at waits
      rcases stages other with new | old
      · rw [new] at waits
        cases waits
      · rw [old] at waits
        exact consistent.waits other id waits }

/-- A new entry is made for a key that has none. -/
theorem register {profile : InferenceConnectionProfile}
    (absent : state.entries.get (profileKey profile) = none)
    (room : state.entries.entries.length + state.draining.length < limits.maxEntries) :
    PoolConsistent limits { state with
      entries := state.entries.set (profileKey profile) state.nextEntry
      pool := Function.update state.pool state.nextEntry (.new state.clock)
      profiles := Function.update state.profiles state.nextEntry profile
      nextEntry := state.nextEntry + 1 } := by
  have fresh := consistent.unborn state.nextEntry (Nat.le_refl _)
  have pool : ∀ id, id ≠ state.nextEntry →
      Function.update state.pool state.nextEntry (.new state.clock) id = state.pool id :=
    fun id apart => Function.update_of_ne apart ..
  have apart : ∀ {id}, ¬ (state.pool id).Quiet → id ≠ state.nextEntry :=
    fun used same => used (same ▸ fresh.1)
  constructor
  case sound =>
    intro id
    by_cases same : id = state.nextEntry
    · subst same
      dsimp only
      rw [Function.update_self]
      exact .new _
    · dsimp only
      rw [pool id same]
      exact consistent.sound id
  case selected =>
    exact fun call id selected => Nat.lt_succ_of_lt (consistent.selected call id selected)
  case held =>
    intro call id held
    have known := consistent.held call id held
    dsimp only
    rw [pool id (apart (not_quiet_of_lease known))]
    exact known
  case waits =>
    intro call id waits
    have known := consistent.waits call id waits
    dsimp only
    rw [pool id (apart (not_quiet_of_waiter known))]
    exact known
  case registered =>
    intro key id found
    dsimp only at found ⊢
    rw [OrderedMap.get_set] at found
    split at found
    · next same =>
      cases found
      rw [Function.update_self, Function.update_self]
      exact ⟨rfl, same, Nat.lt_succ_self _⟩
    · have known := consistent.registered key id found
      have older : id ≠ state.nextEntry := Nat.ne_of_lt known.2.2
      rw [pool id older, Function.update_of_ne older]
      exact ⟨known.1, known.2.1, Nat.lt_succ_of_lt known.2.2⟩
  case unborn =>
    intro id new
    have newer : id ≠ state.nextEntry := Nat.ne_of_gt new
    dsimp only
    rw [pool id newer]
    exact consistent.unborn id (Nat.le_of_succ_le new)
  case creating =>
    intro init id creating
    have known := consistent.creating init id creating
    dsimp only
    rw [pool id (apart (not_quiet_of_pending known.1))]
    exact known
  case noted =>
    intro init id outcome noted
    have known := consistent.noted init id outcome noted
    dsimp only
    rw [pool id (apart (not_quiet_of_pending known))]
    exact known
  case grace =>
    intro id owner grace
    have known := consistent.grace id owner grace
    have older := Nat.ne_of_lt (consistent.born_of_closed known)
    dsimp only
    rw [pool id older]
    exact known
  case forced =>
    intro id forced
    have known := consistent.forced id forced
    have older := Nat.ne_of_lt (consistent.born_of_closed known.1)
    dsimp only
    rw [pool id older]
    exact known
  case bounded =>
    dsimp only
    rw [OrderedMap.entries_set_of_absent absent, List.length_append]
    have one : [(profileKey profile, state.nextEntry)].length = 1 := rfl
    omega

/-- An idle entry leaves `entries` and drains. -/
theorem drain (registered : state.entries.get (profileKey (state.profiles id)) = some id)
    (idle : (state.pool id).idle = true) (owner : Option CallId) :
    PoolConsistent limits
      ({ state with
        entries := state.entries.erase (profileKey (state.profiles id)) }.beginDraining id
          owner) := by
  have known := consistent.registered _ id registered
  obtain ⟨sound, closed, waiters⟩ := (consistent.sound id).close idle known.1
  obtain ⟨noLeases, noWaiters, noPromise⟩ := (consistent.sound id).of_idle idle
  have unregistered := consistent.unregister (profileKey (state.profiles id))
  have length := OrderedMap.length_erase_of_get registered
  rw [beginDraining_of_no_waiters state waiters]
  have pool : ∀ other, other ≠ id →
      (state.setEntry id (state.pool id).close.1).pool other = state.pool other :=
    fun other apart => pool_setEntry_of_ne state apart _
  constructor
  case sound =>
    intro other
    by_cases same : other = id
    · subst same
      exact pool_setEntry_self state other _ ▸ sound
    · exact pool other same ▸ consistent.sound other
  case selected => exact consistent.selected
  case held =>
    intro call other held
    have was := consistent.held call other held
    have apart : other ≠ id := by
      rintro rfl
      rw [noLeases] at was
      cases was
    exact pool other apart ▸ was
  case waits =>
    intro call other waits
    have was := consistent.waits call other waits
    have apart : other ≠ id := by
      rintro rfl
      rw [noWaiters] at was
      cases was
    exact pool other apart ▸ was
  case registered =>
    intro key other found
    have apart : other ≠ id := by
      rintro rfl
      dsimp only at found
      rw [OrderedMap.get_erase] at found
      split at found
      · cases found
      · next differ =>
        exact differ ((consistent.registered key other found).2.1)
    have was := unregistered.registered key other found
    exact pool other apart ▸ was
  case unborn =>
    intro other new
    have apart : other ≠ id :=
        fun same => Nat.lt_irrefl _ (Nat.lt_of_lt_of_le known.2.2 (same ▸ new))
    exact pool other apart ▸ consistent.unborn other new
  case creating =>
    intro init other creating
    have was := consistent.creating init other creating
    have apart : other ≠ id := by
      rintro rfl
      rw [noPromise] at was
      cases was.1
    exact pool other apart ▸ was
  case noted =>
    intro init other outcome noted
    have was := consistent.noted init other outcome noted
    have apart : other ≠ id := by
      rintro rfl
      rw [noPromise] at was
      cases was
    exact pool other apart ▸ was
  case grace =>
    intro other holder grace
    by_cases same : other = id
    · subst same
      exact pool_setEntry_self state other _ ▸ closed
    · dsimp only at grace
      rw [Function.update_of_ne same] at grace
      exact pool other same ▸ consistent.grace other holder grace
  case forced =>
    intro other forced
    by_cases same : other = id
    · subst same
      dsimp only at forced
      rw [Function.update_self] at forced
      cases forced
    · dsimp only at forced
      rw [Function.update_of_ne same] at forced
      exact pool other same ▸ consistent.forced other forced
  case bounded =>
    have bounded := consistent.bounded
    show (state.entries.erase _).entries.length + (state.draining ++ [id]).length ≤ _
    rw [List.length_append, List.length_singleton]
    omega

/-- An initialisation starts. -/
theorem start (used : (state.pool id).leases ≠ []) (none : (state.pool id).dispatcherPromise = none)
    (noDispatcher : (state.pool id).dispatcher = Option.none) :
    PoolConsistent limits
      ({ state with
        inits := Function.update state.inits state.nextInit (.creating id)
        nextInit := state.nextInit + 1 }.setEntry id
          { state.pool id with dispatcherPromise := some state.nextInit }) := by
  obtain ⟨call, held⟩ := List.exists_mem_of_ne_nil _ used
  have isOpen := (consistent.sound id).open_of_lease held
  have born := consistent.born_of_not_quiet (not_quiet_of_lease held)
  -- before its own start, no initialisation of the entry is under way
  have others : ∀ init other,
      (Function.update state.inits state.nextInit (.creating id) init = .creating other →
        (init = state.nextInit ∧ other = id) ∨
          (other ≠ id ∧ state.inits init = .creating other)) ∧
      ∀ outcome, Function.update state.inits state.nextInit (.creating id) init =
          .noted other outcome →
        other ≠ id ∧ state.inits init = .noted other outcome := by
    intro init other
    by_cases same : init = state.nextInit
    · subst same
      rw [Function.update_self]
      refine ⟨fun creating => ?_, fun outcome noted => nomatch noted⟩
      cases creating
      exact .inl ⟨rfl, rfl⟩
    · rw [Function.update_of_ne same]
      refine ⟨fun creating => .inr ⟨?_, creating⟩, fun outcome noted => ⟨?_, noted⟩⟩
      · rintro rfl
        have was := (consistent.creating init other creating).1
        rw [none] at was
        cases was
      · rintro rfl
        have was := consistent.noted init other outcome noted
        rw [none] at was
        cases was
  constructor
  case sound =>
    intro other
    by_cases same : other = id
    · subst same
      rw [pool_setEntry_self]
      exact (consistent.sound other).start isOpen
    · rw [pool_setEntry_of_ne _ same]
      exact (consistent.sound other).later (Nat.le_succ _)
  case selected => exact consistent.selected
  case held =>
    intro caller other holds
    have was := consistent.held caller other holds
    by_cases same : other = id
    · subst same
      rw [pool_setEntry_self]
      exact was
    · rw [pool_setEntry_of_ne _ same]
      exact was
  case waits =>
    intro caller other waits
    have was := consistent.waits caller other waits
    by_cases same : other = id
    · subst same
      rw [pool_setEntry_self]
      exact was
    · rw [pool_setEntry_of_ne _ same]
      exact was
  case registered =>
    intro key other found
    have was := consistent.registered key other found
    by_cases same : other = id
    · subst same
      rw [pool_setEntry_self]
      exact was
    · rw [pool_setEntry_of_ne _ same]
      exact was
  case unborn =>
    intro other new
    have apart : other ≠ id := fun same => absurd born (Nat.not_lt.mpr (same ▸ new))
    rw [pool_setEntry_of_ne _ apart]
    exact consistent.unborn other new
  case creating =>
    intro init other creating
    rcases (others init other).1 creating with ⟨rfl, rfl⟩ | ⟨apart, was⟩
    · rw [pool_setEntry_self]
      exact ⟨rfl, noDispatcher⟩
    · rw [pool_setEntry_of_ne _ apart]
      exact consistent.creating init other was
  case noted =>
    intro init other outcome noted
    obtain ⟨apart, was⟩ := (others init other).2 outcome noted
    rw [pool_setEntry_of_ne _ apart]
    exact consistent.noted init other outcome was
  case grace =>
    intro other owner grace
    have was := consistent.grace other owner grace
    by_cases same : other = id
    · subst same
      rw [pool_setEntry_self]
      exact was
    · rw [pool_setEntry_of_ne _ same]
      exact was
  case forced =>
    intro other forced
    have was := consistent.forced other forced
    by_cases same : other = id
    · subst same
      rw [pool_setEntry_self]
      exact was
    · rw [pool_setEntry_of_ne _ same]
      exact was
  case bounded => exact consistent.bounded

/-- An initialisation goes on. -/
theorem init {init : InitId} {stage : InitStage}
    (next : (∃ id outcome, state.inits init = .creating id ∧ stage = .noted id outcome) ∨
      ∃ id outcome, state.inits init = .noted id outcome ∧ stage = .settled id outcome) :
    PoolConsistent limits { state with inits := Function.update state.inits init stage } :=
  { consistent with
    creating := by
      intro other id creating
      dsimp only at creating
      by_cases same : other = init
      · subst same
        rw [Function.update_self] at creating
        rcases next with ⟨_, _, -, rfl⟩ | ⟨_, _, -, rfl⟩ <;> cases creating
      · rw [Function.update_of_ne same] at creating
        exact consistent.creating other id creating
    noted := by
      intro other id outcome noted
      dsimp only at noted
      by_cases same : other = init
      · subst same
        rw [Function.update_self] at noted
        rcases next with ⟨_, _, creating, rfl⟩ | ⟨_, _, -, rfl⟩
        · cases noted
          exact (consistent.creating other _ creating).1
        · cases noted
      · rw [Function.update_of_ne same] at noted
        exact consistent.noted other id outcome noted }

/-- An entry is not drained any more. -/
theorem undrain (id : EntryId) :
    PoolConsistent limits { state with
      draining := state.draining.erase id
      drains := Function.update state.drains id .done } :=
  { consistent with
    grace := by
      intro other owner grace
      dsimp only at grace
      by_cases same : other = id
      · subst same
        rw [Function.update_self] at grace
        cases grace
      · rw [Function.update_of_ne same] at grace
        exact consistent.grace other owner grace
    forced := by
      intro other forced
      dsimp only at forced
      by_cases same : other = id
      · subst same
        rw [Function.update_self] at forced
        cases forced
      · rw [Function.update_of_ne same] at forced
        exact consistent.forced other forced
    bounded := Nat.le_trans
      (Nat.add_le_add_left (List.length_erase_le) _) consistent.bounded }

theorem force (closed : (state.pool id).closed = true)
    (isForced : (state.pool id).forceClosed = true) :
    PoolConsistent limits { state with drains := Function.update state.drains id .forced } :=
  { consistent with
    grace := by
      intro other owner grace
      dsimp only at grace
      by_cases same : other = id
      · subst same
        rw [Function.update_self] at grace
        cases grace
      · rw [Function.update_of_ne same] at grace
        exact consistent.grace other owner grace
    forced := by
      intro other forced
      dsimp only at forced
      by_cases same : other = id
      · subst same
        exact ⟨closed, isForced⟩
      · rw [Function.update_of_ne same] at forced
        exact consistent.forced other forced }

/-- Every part of a move keeps the pool consistent. -/
theorem part {clean spare : Prop} {next : InferencePool}
    (part : PoolPart limits clean spare state next) : PoolConsistent limits next := by
  cases part with
  | stage call stage selected held waits explained =>
    refine consistent.setStage call (fun id same => ?_) held waits
    obtain ⟨key, found⟩ := selected id same
    exact consistent.born_of_registered found
  | entry id entry keeps => exact consistent.setEntry keeps
  | abort call => exact consistent.abort call
  | call profile aborted => exact consistent.call profile aborted
  | register profile absent room => exact consistent.register absent room
  | drain id owner registered idle spared => exact consistent.drain registered idle owner
  | drop key id registered failed unused => exact consistent.unregister key
  | start id used none noDispatcher => exact consistent.start used none noDispatcher
  | init init stage next => exact consistent.init next
  | undrain id closed ended => exact consistent.undrain id
  | force id closed forced => exact consistent.force closed forced
  | tick ms => exact { consistent with }

end

end PoolConsistent

end GhcGateway.Copilot
