/-
# The moves of the inference pool, part by part

A move of an open registry is a sequence of the parts of `PoolPart`. What a move
closes, drains or drops is where the conditions on a schedule come in: the entry
that is drained (`victim`, and the entry of an idle timer), and the entry that a
failed call drops.
-/

import GhcGateway.Copilot.InferencePoolInvariant
import Mathlib.Logic.Relation

namespace GhcGateway.Copilot

open Library InferencePool InferencePoolEntry

variable {limits : InferencePoolLimits}
  {next : InferencePool} {id : EntryId} {call : CallId} {error : PoolError} {init : InitId}
  {label : PoolStep}

namespace InferencePool

/-- The entry that `entryFor` drains to make room. -/
def victim (limits : InferencePoolLimits) (state : InferencePool)
    (profile : InferenceConnectionProfile) (aborted : Bool) : Option EntryId :=
  if aborted || state.closed || (state.entries.get (profileKey profile)).isSome ||
      state.entries.entries.length + state.draining.length < limits.maxEntries then none
  else state.idlest

def evicts (limits : InferencePoolLimits) (state : InferencePool) : PoolStep → Option EntryId
  | .acquire profile aborted => state.victim limits profile aborted
  | .resume call =>
    match (state.calls call).stage with
    | .evicted true =>
      state.victim limits (state.calls call).profile (state.calls call).aborted
    | _ => none
  | .idleTimeout id =>
    if (state.pool id).idleTimer && !state.closed &&
        state.entries.get (profileKey (state.profiles id)) = some id && (state.pool id).idle then
      some id
    else none
  | _ => none

/-- The move evicts no entry that a call has selected. -/
def SparesSelected (limits : InferencePoolLimits) (state : InferencePool) (label : PoolStep) :
    Prop :=
  ∀ id, state.evicts limits label = some id → ¬ state.Selected id

/-- A call that drops the entry of a failed initialisation is the last to use it. -/
def DropsUnused (state : InferencePool) (label : PoolStep) : Prop :=
  ∀ call id error, label = .resume call → (state.calls call).stage = .failing id error →
    (state.pool id).failedInitialization = true →
      state.entries.get (profileKey (state.calls call).profile) = some id →
        (state.pool id).leases = [call] ∧ (state.pool id).waiters = [] ∧
          (state.pool id).dispatcherPromise = none ∧ ¬ state.Selected id

section Closed

variable (state : InferencePool)

@[simp]
theorem pool_grantTo (id : EntryId) (waiter : Option CallId) :
    (state.grantTo id waiter).pool = state.pool := by
  cases waiter <;> rfl

@[simp]
theorem entries_grantTo (id : EntryId) (waiter : Option CallId) :
    (state.grantTo id waiter).entries = state.entries := by
  cases waiter <;> rfl

@[simp]
theorem closed_rejectAll (waiters : List CallId) (error : PoolError) :
    (state.rejectAll waiters error).closed = state.closed := by
  unfold rejectAll
  induction waiters generalizing state with
  | nil => rfl
  | cons waiter waiters ih => exact ih (state.setStage waiter (.failed error))

@[simp]
theorem closed_grantTo (id : EntryId) (waiter : Option CallId) :
    (state.grantTo id waiter).closed = state.closed := by
  cases waiter <;> rfl

@[simp]
theorem closed_closeEntry (id : EntryId) : (state.closeEntry id).closed = state.closed :=
  closed_rejectAll ..

@[simp]
theorem closed_forceCloseEntry (id : EntryId) :
    (state.forceCloseEntry id).closed = state.closed :=
  closed_rejectAll ..

@[simp]
theorem closed_beginDraining (id : EntryId) (owner : Option CallId) :
    (state.beginDraining id owner).closed = state.closed :=
  closed_closeEntry ..

@[simp]
theorem closed_answerDrain (owner : Option CallId) (completed : Bool) :
    (state.answerDrain owner completed).closed = state.closed := by
  cases owner <;> rfl

@[simp]
theorem closed_forceDraining (id : EntryId) (owner : Option CallId) :
    (state.forceDraining id owner).closed = state.closed := by
  unfold forceDraining
  rw [closed_answerDrain]
  exact closed_forceCloseEntry state id

theorem closed_foldl_closeEntry (ids : List EntryId) :
    (ids.foldl closeEntry state).closed = state.closed := by
  induction ids generalizing state with
  | nil => rfl
  | cons id ids ih =>
    rw [List.foldl_cons, ih]
    exact closed_closeEntry state id

theorem closed_foldl_forceCloseEntry (ids : List EntryId) :
    (ids.foldl forceCloseEntry state).closed = state.closed := by
  induction ids generalizing state with
  | nil => rfl
  | cons id ids ih =>
    rw [List.foldl_cons, ih]
    exact closed_forceCloseEntry state id

theorem closed_close : state.close.closed = true :=
  closed_foldl_closeEntry ..

theorem closed_forceClose : state.forceClose.closed = true :=
  closed_foldl_forceCloseEntry ..

end Closed

end InferencePool

namespace InferencePoolEntry

variable {entry : InferencePoolEntry}

/-- A released slot goes to the first waiter. -/
theorem release_to_waiter {waiter : CallId} {waiters : List CallId} (held : call ∈ entry.leases)
    (waiting : entry.waiters = waiter :: waiters) (now : Nat) :
    (entry.release call now).2 = some waiter ∧
      (entry.release call now).1.leases = entry.leases.erase call ++ [waiter] ∧
      (entry.release call now).1.waiters = waiters := by
  unfold release
  rw [if_pos held]
  simp only [waiting, and_self]

/-- A released slot that nobody waits for is free. -/
theorem release_to_nobody (held : call ∈ entry.leases) (waiting : entry.waiters = []) (now : Nat) :
    (entry.release call now).2 = none ∧
      (entry.release call now).1.leases = entry.leases.erase call ∧
      (entry.release call now).1.waiters = [] ∧
      (entry.release call now).1.active = entry.active - 1 := by
  unfold release
  rw [if_pos held]
  simp only [waiting]
  rw [noteIdle_eq]
  exact ⟨trivial, rfl, rfl, rfl⟩

/-- An entry in use without dispatcher and initialisation starts one. -/
theorem getDispatcher_start (used : entry.closed = false) (dispatcher : entry.dispatcher = none)
    (promise : entry.dispatcherPromise = none) (init : InitId) :
    entry.getDispatcher init = ({ entry with dispatcherPromise := some init }, .pending init) := by
  unfold getDispatcher
  rw [used, if_neg Bool.false_ne_true]
  simp only [dispatcher, promise]

end InferencePoolEntry

namespace Keeps

variable {state : InferencePool} {id : EntryId} {entry : InferencePoolEntry}

/-- An entry that is out of use goes on closing. -/
theorem of_closed (consistent : PoolConsistent limits state)
    (sound : EntrySound limits state.nextInit entry) (was : (state.pool id).closed = true)
    (still : entry.closed = true) (ended : (state.pool id).Ended → entry.Ended)
    (forced : (state.pool id).forceClosed = true → entry.forceClosed = true) :
    Keeps limits state id entry := by
  obtain ⟨promise, -, leases, waiters⟩ := (consistent.sound id).outOfUse was
  constructor
  case sound => exact sound
  case unborn => exact fun new => absurd (consistent.born_of_closed was) (Nat.not_lt.mpr new)
  case held =>
    intro call holds
    have known := consistent.held call id holds
    rw [leases] at known
    cases known
  case waits =>
    intro call waits
    have known := consistent.waits call id waits
    rw [waiters] at known
    cases known
  case creating =>
    intro init creating
    have known := (consistent.creating init id creating).1
    rw [promise] at known
    cases known
  case noted =>
    intro init outcome noted
    have known := consistent.noted init id outcome noted
    rw [promise] at known
    cases known
  case closed => rw [was, still]
  case ended => exact ended
  case forced => exact forced
  case quiet =>
    intro _ _ isOpen
    rw [was] at isOpen
    cases isOpen

/-- The slots of an entry change. -/
theorem of_slots (consistent : PoolConsistent limits state)
    (sound : EntrySound limits state.nextInit entry) (only : (state.pool id).OnlySlots entry)
    (born : id < state.nextEntry)
    (held : ∀ call, (state.calls call).stage.holds = some id → call ∈ entry.leases)
    (waits : ∀ call, (state.calls call).stage = .waiting id → call ∈ entry.waiters)
    (unused : (state.pool id).Quiet → ¬ state.Selected id →
      entry.leases = [] ∧ entry.waiters = []) :
    Keeps limits state id entry := by
  have closed : entry.closed = (state.pool id).closed := by rw [only]
  have promise : entry.dispatcherPromise = (state.pool id).dispatcherPromise := by rw [only]
  have dispatcher : entry.dispatcher = (state.pool id).dispatcher := by rw [only]
  have forced : entry.forceClosed = (state.pool id).forceClosed := by rw [only]
  constructor
  case sound => exact sound
  case unborn => exact fun new => absurd born (Nat.not_lt.mpr new)
  case held => exact held
  case waits => exact waits
  case creating =>
    intro init creating
    rw [promise, dispatcher]
    exact consistent.creating init id creating
  case noted =>
    intro init outcome noted
    rw [promise]
    exact consistent.noted init id outcome noted
  case closed => exact closed
  case ended =>
    intro ended
    unfold InferencePoolEntry.Ended
    rw [only]
    exact ended
  case forced =>
    intro was
    rw [forced, was]
  case quiet =>
    intro _ quiet _ notSelected
    obtain ⟨leases, waiters⟩ := unused quiet notSelected
    refine ⟨?_, ?_, ?_, ?_, leases, waiters⟩
    · rw [dispatcher, quiet.dispatcher]
    · rw [only, quiet.closingDispatcher]
    · rw [promise, quiet.dispatcherPromise]
    · rw [only, quiet.closingDispatcherPromise]

/-- Only the times of use of an entry change. -/
theorem times (consistent : PoolConsistent limits state) (id : EntryId) (lastUsedMs : Nat)
    (idleTimer : Bool) : Keeps limits state id { state.pool id with lastUsedMs, idleTimer } where
  sound := (consistent.sound id).times _ _
  unborn := fun new =>
    have ⟨quiet, isOpen⟩ := consistent.unborn id new
    ⟨⟨quiet.1, quiet.2, quiet.3, quiet.4, quiet.5, quiet.6⟩, isOpen⟩
  held := fun call => consistent.held call id
  waits := fun call => consistent.waits call id
  creating := fun init => consistent.creating init id
  noted := fun init => consistent.noted init id
  closed := rfl
  ended := fun ended => ended
  forced := fun forced => forced
  quiet := fun _ quiet _ _ => ⟨quiet.1, quiet.2, quiet.3, quiet.4, quiet.5, quiet.6⟩

/-- An initialisation that the entry waits for goes on. -/
theorem of_pending (consistent : PoolConsistent limits state)
    (sound : EntrySound limits state.nextInit entry)
    (pending : (state.pool id).dispatcherPromise = some init)
    (closed : entry.closed = (state.pool id).closed)
    (leases : entry.leases = (state.pool id).leases)
    (waiters : entry.waiters = (state.pool id).waiters)
    (creating : ∀ init, state.inits init ≠ .creating id)
    (noted : ∀ init outcome, state.inits init = .noted id outcome →
      entry.dispatcherPromise = some init) : Keeps limits state id entry := by
  have isOpen := (consistent.sound id).open_of_pending pending
  obtain ⟨-, -, closePromise, forced⟩ := (consistent.sound id).inUse isOpen
  have used := not_quiet_of_pending pending
  constructor
  case sound => exact sound
  case unborn =>
    exact fun new => absurd (consistent.born_of_not_quiet used) (Nat.not_lt.mpr new)
  case held =>
    rw [leases]
    exact fun call => consistent.held call id
  case waits =>
    rw [waiters]
    exact fun call => consistent.waits call id
  case creating => exact fun init under => absurd under (creating init)
  case noted => exact noted
  case closed => exact closed
  case ended =>
    intro ended
    unfold InferencePoolEntry.Ended at ended
    rw [closePromise, forced] at ended
    cases ended with
    | inl fulfilled => cases fulfilled
    | inr isForced => cases isForced
  case forced =>
    intro isForced
    rw [forced] at isForced
    cases isForced
  case quiet => exact fun _ quiet => absurd quiet used

end Keeps

abbrev PoolParts (limits : InferencePoolLimits) (clean spare : Prop) :
    InferencePool → InferencePool → Prop :=
  Relation.ReflTransGen (PoolPart limits clean spare)

namespace PoolParts

variable {clean spare : Prop} {state : InferencePool}

theorem consistent (parts : PoolParts limits clean spare state next)
    (consistent : PoolConsistent limits state) : PoolConsistent limits next := by
  induction parts with
  | refl => exact consistent
  | tail _ part ih => exact ih.part part

/-- A call goes to a stage that says nothing about an entry. -/
theorem stage (call : CallId) {stage : CallStage} (selected : ∀ id, stage ≠ .selected id)
    (held : stage.holds = none) (waits : ∀ id, stage ≠ .waiting id) (error : stage.error = none) :
    PoolParts limits clean spare state (state.setStage call stage) := by
  apply Relation.ReflTransGen.single
  apply PoolPart.stage
  · exact fun id same => absurd same (selected id)
  · intro id holds
    rw [held] at holds
    cases holds
  · exact fun id same => absurd same (waits id)
  · intro fails failing
    rw [error] at failing
    cases failing

/-- A call goes to a stage at which it holds a slot. -/
theorem holding (call : CallId) {stage : CallStage} (holds : stage.holds = some id)
    (held : call ∈ (state.pool id).leases)
    (explained : ∀ error, stage.error = some error → state.Explains call error) :
    PoolParts limits clean spare state (state.setStage call stage) := by
  apply Relation.ReflTransGen.single
  apply PoolPart.stage
  · rintro other rfl
    cases holds
  · intro other same
    rw [holds] at same
    cases same
    exact held
  · rintro other rfl
    cases holds
  · exact explained

theorem fail (explained : state.Explains call error) :
    PoolParts limits clean spare state (state.setStage call (.failed error)) := by
  apply Relation.ReflTransGen.single
  apply PoolPart.stage
  · exact fun _ same => nomatch same
  · exact fun _ holds => nomatch holds
  · exact fun _ same => nomatch same
  · intro other same
    cases same
    exact explained

/-- An entry changes and then the stage of a call. -/
theorem entry {entry : InferencePoolEntry} (keeps : Keeps limits state id entry)
    (rest : PoolParts limits clean spare (state.setEntry id entry) next) :
    PoolParts limits clean spare state next :=
  .head (.entry id entry keeps) rest

/-- `beginDraining` of an idle entry, and what its caller does then. -/
theorem drain (owner : Option CallId)
    (registered : state.entries.get (profileKey (state.profiles id)) = some id)
    (idle : (state.pool id).idle = true) (spared : spare → ¬ state.Selected id)
    (rest : PoolParts limits clean spare
      ({ state with
        entries := state.entries.erase (profileKey (state.profiles id)) }.beginDraining id owner)
      next) : PoolParts limits clean spare state next :=
  .head (.drain id owner registered idle spared) rest

end PoolParts

namespace PoolConsistent

variable {clean spare : Prop} {state : InferencePool}

section

variable (consistent : PoolConsistent limits state)

include consistent

/-- The idlest entry is registered and idle. -/
theorem idlest (found : state.idlest = some id) :
    state.entries.get (profileKey (state.profiles id)) = some id ∧
      (state.pool id).idle = true := by
  have member := List.argmin_mem found
  rw [List.mem_filter, OrderedMap.mem_values] at member
  obtain ⟨⟨key, registered⟩, idle⟩ := member
  rw [(consistent.registered key id registered).2.1]
  exact ⟨registered, idle⟩

/-- One turn of the loop of `entryFor`. -/
theorem entryFor (isOpen : state.closed = false) (call : CallId) (spared : spare → ∀ id,
      state.victim limits (state.calls call).profile (state.calls call).aborted = some id →
        ¬ state.Selected id) : PoolParts limits clean spare state (state.entryFor limits call) := by
  unfold InferencePool.entryFor
  dsimp only
  split
  · next aborted => exact .fail (.inr aborted)
  next notAborted =>
  rw [if_neg (by simp [isOpen])]
  split
  · next id found =>
    -- the entry of the key is there already
    refine .entry (.times consistent id state.clock false) (.single ?_)
    apply PoolPart.stage
    · intro other same
      cases same
      exact ⟨_, found⟩
    · rintro _ ⟨⟩
    · rintro _ ⟨⟩
    · rintro _ ⟨⟩
  next absent =>
  split
  · next room =>
    refine .head (.register (state.calls call).profile absent room) (.single ?_)
    apply PoolPart.stage
    · intro other same
      cases same
      exact ⟨_, OrderedMap.get_set_self ..⟩
    · rintro _ ⟨⟩
    · rintro _ ⟨⟩
    · rintro _ ⟨⟩
  next full =>
  split
  · exact .fail (.inr trivial)
  · next id found =>
    obtain ⟨registered, idle⟩ := consistent.idlest found
    refine .drain (some call) registered idle (fun isSpare => spared isSpare id ?_) ?_
    · unfold InferencePool.victim
      rw [if_neg (by simp [notAborted, isOpen, absent, full]), found]
    · exact .stage call (by rintro _ ⟨⟩) rfl (by rintro _ ⟨⟩) rfl

/-- `acquire` up to its first suspension. -/
theorem acquire (isOpen : state.closed = false) (profile : InferenceConnectionProfile)
    (aborted : Bool)
    (spared : spare → ∀ id, state.victim limits profile aborted = some id → ¬ state.Selected id) :
    PoolParts limits clean spare state (state.acquire limits profile aborted) := by
  refine .head (.call profile aborted) ?_
  unfold InferencePool.acquire
  rw [if_neg (by simp [isOpen])]
  have request : (Function.update state.calls state.nextCall
      (⟨profile, aborted, .unborn⟩ : PoolCall)) state.nextCall = ⟨profile, aborted, .unborn⟩ :=
    Function.update_self ..
  refine (consistent.call profile aborted).entryFor isOpen state.nextCall ?_
  intro isSpare id evicted
  dsimp only at evicted
  rw [request] at evicted
  rintro ⟨other, selected, notAborted⟩
  dsimp only at selected notAborted
  by_cases same : other = state.nextCall
  · rw [same, request] at selected
    cases selected
  · rw [Function.update_of_ne same] at selected notAborted
    exact spared isSpare id evicted ⟨other, selected, notAborted⟩

/-- The call goes on to `entry.acquire`. -/
theorem takeSlot (selected : (state.calls call).stage = .selected id) :
    PoolParts limits clean spare state (state.takeSlot limits call id) := by
  have only : (state.pool id).OnlySlots
      ((state.pool id).acquire limits call (state.calls call).aborted state.clock).1 :=
    EntrySound.onlySlots_acquire call (state.calls call).aborted state.clock
  have sound := (consistent.sound id).acquire call (state.calls call).aborted state.clock
  have born := consistent.selected call id selected
  cases aborted : (state.calls call).aborted with
  | true =>
    have fails : (state.pool id).acquire limits call true state.clock =
        (state.pool id, .failed .aborted) := rfl
    unfold InferencePool.takeSlot
    rw [aborted, fails]
    dsimp only
    rw [setEntry_self]
    exact .fail (.inr aborted)
  | false =>
    have chosen : state.Selected id := ⟨call, selected, aborted⟩
    rw [aborted] at only sound
    unfold InferencePool.takeSlot
    rw [aborted]
    unfold InferencePoolEntry.acquire at only sound ⊢
    rw [if_neg Bool.false_ne_true] at only sound ⊢
    cases closed : (state.pool id).closed with
    | true =>
      rw [if_pos rfl]
      dsimp only
      rw [setEntry_self]
      exact .fail (.inr ⟨id, selected, closed⟩)
    | false =>
      rw [closed, if_neg Bool.false_ne_true] at only sound
      rw [if_neg Bool.false_ne_true]
      dsimp only at only sound ⊢
      split
      · next free =>
        rw [if_pos free] at only sound
        refine .entry (.of_slots consistent sound only born ?_ ?_ ?_) ?_
        · exact fun other holds =>
            List.mem_append_left _ (consistent.held other id holds)
        · exact fun other waits => consistent.waits other id waits
        · exact fun _ notSelected => absurd chosen notSelected
        · refine .holding call rfl ?_ (fun _ fails => nomatch fails)
          rw [pool_setEntry_self]
          exact List.mem_append_right _ (List.mem_singleton_self call)
      next busy =>
      rw [if_neg busy] at only sound
      split
      · next full =>
        rw [if_pos full] at only sound
        refine .entry (.of_slots consistent sound only born ?_ ?_ ?_) (.fail (.inr trivial))
        · exact fun other holds => consistent.held other id holds
        · exact fun other waits => consistent.waits other id waits
        · exact fun _ notSelected => absurd chosen notSelected
      · next room =>
        rw [if_neg room] at only sound
        refine .entry (.of_slots consistent sound only born ?_ ?_ ?_) (.single ?_)
        · exact fun other holds => consistent.held other id holds
        · exact fun other waits => List.mem_append_left _ (consistent.waits other id waits)
        · exact fun _ notSelected => absurd chosen notSelected
        · apply PoolPart.stage
          · exact fun _ same => nomatch same
          · exact fun _ holds => nomatch holds
          · intro other same
            cases same
            rw [pool_setEntry_self]
            exact List.mem_append_right _ (List.mem_singleton_self call)
          · exact fun _ fails => nomatch fails

/-- The call goes on to `entry.getDispatcher`. -/
theorem useDispatcher {call : CallId} {id : EntryId}
    (granted : (state.calls call).stage = .granted id) :
    PoolParts limits clean spare state (state.useDispatcher call id) := by
  have held : call ∈ (state.pool id).leases := consistent.held call id (by rw [granted]; rfl)
  have isOpen := (consistent.sound id).open_of_lease held
  -- what the call does once it waits for an initialisation
  have goOn : ∀ init, (if (state.calls call).aborted then CallStage.failing id .aborted
      else .initializing id init).holds = some id ∧
      ∀ error, (if (state.calls call).aborted then CallStage.failing id .aborted
        else .initializing id init).error = some error →
          ∀ {later : InferencePool}, later.calls = state.calls → later.Explains call error := by
    intro init
    split
    · next aborted =>
      refine ⟨rfl, fun error fails later same => ?_⟩
      cases fails
      exact .inr (same ▸ aborted)
    · exact ⟨rfl, fun _ fails => nomatch fails⟩
  unfold InferencePool.useDispatcher
  cases dispatcher : (state.pool id).dispatcher with
  | some found =>
    have ready : (state.pool id).getDispatcher state.nextInit = (state.pool id, .ready found) := by
      unfold InferencePoolEntry.getDispatcher
      rw [isOpen, if_neg Bool.false_ne_true, dispatcher]
    rw [ready]
    dsimp only
    rw [setEntry_self]
    exact .stage call (fun _ same => nomatch same) rfl (fun _ same => nomatch same) rfl
  | none =>
    cases promise : (state.pool id).dispatcherPromise with
    | some init =>
      have earlier : init ≠ state.nextInit :=
        Nat.ne_of_lt ((consistent.sound id).numbered init promise)
      have pending : (state.pool id).getDispatcher state.nextInit =
          (state.pool id, .pending init) := by
        unfold InferencePoolEntry.getDispatcher
        rw [isOpen, if_neg Bool.false_ne_true, dispatcher, promise]
      rw [pending]
      dsimp only
      rw [if_neg earlier, setEntry_self]
      exact .holding call (goOn init).1 held fun error fails => (goOn init).2 error fails rfl
    | none =>
      rw [getDispatcher_start isOpen dispatcher promise]
      dsimp only
      rw [if_pos rfl]
      refine .head (.start id (List.ne_nil_of_mem held) promise dispatcher) ?_
      refine PoolParts.holding call (goOn state.nextInit).1 ?_ fun error fails =>
        (goOn state.nextInit).2 error fails rfl
      rw [pool_setEntry_self]
      exact held

/-- The call has its dispatcher, or learns why there is none. -/
theorem receiveDispatcher {call : CallId} {id : EntryId} {init : InitId} {next : InferencePool}
    (waits : (state.calls call).stage = .initializing id init)
    (received : state.receiveDispatcher call id init = some next) :
    PoolParts limits clean spare state next := by
  have held : call ∈ (state.pool id).leases := consistent.held call id (by rw [waits]; rfl)
  unfold InferencePool.receiveDispatcher at received
  split at received
  · cases received
    rw [if_neg (by simp [(consistent.sound id).open_of_lease held])]
    exact .stage call (fun _ same => nomatch same) rfl (fun _ same => nomatch same) rfl
  · cases received
    refine .holding call rfl held fun error fails => ?_
    cases fails
    exact .inr trivial
  · cases received

/-- A slot is given back, and handed to the first waiter. -/
theorem releaseSlot {call : CallId} (id : EntryId)
    (without : ∀ other, (state.calls call).stage.holds ≠ some other) :
    PoolParts limits clean spare state
      ((state.setEntry id ((state.pool id).release call state.clock).1).grantTo id
        ((state.pool id).release call state.clock).2) := by
  by_cases held : call ∈ (state.pool id).leases
  swap
  · rw [release_of_not_mem held, setEntry_self]
    exact .refl
  have sound := (consistent.sound id).release call state.clock
  have only : (state.pool id).OnlySlots ((state.pool id).release call state.clock).1 :=
    EntrySound.onlySlots_release call state.clock
  have born := consistent.born_of_not_quiet (not_quiet_of_lease held)
  have used := not_quiet_of_lease held
  have keptLease : ∀ other, (state.calls other).stage.holds = some id →
      other ∈ (state.pool id).leases.erase call := by
    intro other holds
    have apart : other ≠ call := by
      rintro rfl
      exact without id holds
    exact (List.mem_erase_of_ne apart).mpr (consistent.held other id holds)
  cases waiting : (state.pool id).waiters with
  | nil =>
    obtain ⟨nobody, leases, waiters, -⟩ :=
      release_to_nobody held waiting state.clock
    rw [nobody]
    refine .single (.entry id _ (.of_slots consistent sound only born ?_ ?_ ?_))
    · rw [leases]
      exact keptLease
    · rw [waiters, ← waiting]
      exact fun other => consistent.waits other id
    · exact fun quiet => absurd quiet used
  | cons waiter others =>
    obtain ⟨first, leases, waiters⟩ :=
      release_to_waiter held waiting state.clock
    -- the waiter stops waiting, the entry hands it the slot, and it learns of it
    have stops : PoolParts limits clean spare state (state.setStage waiter .unborn) :=
      .stage waiter (fun _ same => nomatch same) rfl (fun _ same => nomatch same) rfl
    have regrant : (state.setEntry id ((state.pool id).release call state.clock).1).grantTo id
          (some waiter) =
        ((state.setStage waiter .unborn).setEntry id
          ((state.pool id).release call state.clock).1).setStage waiter (.granted id) := by
      rw [setStage_setEntry, setStage_setStage]
      rfl
    rw [first, regrant]
    refine stops.trans (PoolParts.entry
      (.of_slots (stops.consistent consistent) sound only born ?_ ?_ ?_) ?_)
    · intro other holds
      rw [leases]
      by_cases same : other = waiter
      · rw [same]
        exact List.mem_append_right _ (List.mem_singleton_self waiter)
      · rw [calls_setStage_of_ne state same] at holds
        exact List.mem_append_left _ (keptLease other holds)
    · intro other waits
      rw [waiters]
      by_cases same : other = waiter
      · rw [same, stage_setStage_self] at waits
        cases waits
      · rw [calls_setStage_of_ne state same] at waits
        have known := consistent.waits other id waits
        rw [waiting] at known
        exact (List.mem_cons.mp known).resolve_left same
    · exact fun quiet => absurd quiet used
    · refine .holding waiter rfl ?_ (fun _ fails => nomatch fails)
      rw [pool_setEntry_self, leases]
      exact List.mem_append_right _ (List.mem_singleton_self waiter)

/-- The release function of a lease. -/
theorem release (released : state.release call = some next) :
    PoolParts limits clean spare state next := by
  unfold InferencePool.release at released
  split at released
  · next id dispatcher leased =>
    cases released
    refine consistent.releaseSlot id fun other holds => ?_
    rw [leased] at holds
    cases holds
  · cases released

/-- A waiter gives up. -/
theorem leaveQueue (waits : (state.calls call).stage = .waiting id)
    (explained : state.Explains call error) :
    PoolParts limits clean spare state (state.leaveQueue call id error) := by
  have known := consistent.waits call id waits
  have used := not_quiet_of_waiter known
  have fails : PoolParts limits clean spare state (state.setStage call (.failed error)) :=
    .fail explained
  unfold InferencePool.leaveQueue
  rw [← setStage_setEntry]
  refine fails.trans (.single (.entry id _ (.of_slots (fails.consistent consistent)
    ((consistent.sound id).removeWaiter call) rfl (consistent.born_of_not_quiet used) ?_ ?_ ?_)))
  · exact fun other => (fails.consistent consistent).held other id
  · intro other waits
    by_cases same : other = call
    · subst same
      rw [stage_setStage_self] at waits
      cases waits
    · rw [calls_setStage_of_ne state same] at waits
      exact (List.mem_erase_of_ne same).mpr (consistent.waits other id waits)
  · exact fun quiet => absurd quiet used

theorem stopWaiting (waits : (state.calls call).stage = .initializing id init)
    (explained : state.Explains call error) :
    PoolParts limits clean spare state (state.setStage call (.failing id error)) := by
  refine .holding call rfl (consistent.held call id (by rw [waits]; rfl)) fun other fails => ?_
  cases fails
  exact explained

theorem abortCall (call : CallId) : PoolParts limits clean spare state (state.abort call) := by
  refine .head (.abort call) ?_
  have aborts := consistent.abort call
  have aborted : (Function.update state.calls call
      { state.calls call with aborted := true } call).aborted = true := by
    rw [Function.update_self]
  unfold InferencePool.abort
  dsimp only
  split
  · next id waits => exact aborts.leaveQueue waits (.inr aborted)
  · next id init waits => exact aborts.stopWaiting waits (.inr aborted)
  · exact .refl

theorem timeout (timedOut : state.timeout call = some next) :
    PoolParts limits clean spare state next := by
  unfold InferencePool.timeout at timedOut
  split at timedOut
  · next id waits =>
    cases timedOut
    exact consistent.leaveQueue waits (.inr trivial)
  · next id init waits =>
    cases timedOut
    exact consistent.stopWaiting waits (.inr trivial)
  · cases timedOut

/-- The `catch` of `acquire`. -/
theorem cleanUp (failing : (state.calls call).stage = .failing id error)
    (unused : clean → state.DropsUnused (.resume call)) :
    PoolParts limits clean spare state (state.cleanUp call id error) := by
  have fails : PoolParts limits clean spare state (state.setStage call (.failed error)) :=
    .fail (.inl (by rw [failing]; rfl))
  have known : call ∈ (state.pool id).leases := consistent.held call id (by rw [failing]; rfl)
  have released : PoolParts limits clean spare (state.setStage call (.failed error)) _ :=
    (fails.consistent consistent).releaseSlot id fun other holds => by
      rw [stage_setStage_self state call] at holds
      cases holds
  have only : (state.pool id).OnlySlots ((state.pool id).release call state.clock).1 :=
    EntrySound.onlySlots_release call state.clock
  have stays : ((state.pool id).release call state.clock).1.failedInitialization =
      (state.pool id).failedInitialization := by rw [only]
  have promise : ((state.pool id).release call state.clock).1.dispatcherPromise =
      (state.pool id).dispatcherPromise := by rw [only]
  unfold InferencePool.cleanUp
  dsimp only
  split
  swap
  · exact fails.trans released
  next drops =>
  rw [Bool.and_eq_true, decide_eq_true_eq, entries_grantTo] at drops
  obtain ⟨failed, registered⟩ := drops
  refine (fails.trans released).tail (.drop _ id ?_ ?_ ?_)
  · rw [entries_grantTo]
    exact registered
  · rw [pool_grantTo, pool_setEntry_self]
    exact failed
  · intro isClean
    obtain ⟨leases, waiters, noPromise, notSelected⟩ :=
      unused isClean call id error rfl failing (stays ▸ failed) registered
    obtain ⟨nobody, -, noWaiters, active⟩ :=
      release_to_nobody known waiters state.clock
    have counted := (consistent.sound id).slots.counted
    rw [leases, List.length_singleton] at counted
    constructor
    · rw [pool_grantTo, pool_setEntry_self]
      show ((state.pool id).release call state.clock).1.idle = true
      unfold InferencePoolEntry.idle
      rw [active, counted, noWaiters, promise, noPromise]
      rfl
    · show ¬ InferencePool.Selected (((state.setStage call (.failed error)).setEntry id
        ((state.pool id).release call state.clock).1).grantTo id
          ((state.pool id).release call state.clock).2) id
      rw [nobody]
      rintro ⟨other, selected, notAborted⟩
      have selected : ((state.setStage call (.failed error)).calls other).stage =
        .selected id := selected
      have notAborted : ((state.setStage call (.failed error)).calls other).aborted = false :=
        notAborted
      by_cases same : other = call
      · rw [same, stage_setStage_self] at selected
        cases selected
      · rw [calls_setStage_of_ne state same] at selected notAborted
        exact notSelected ⟨other, selected, notAborted⟩

/-- The dispatcher factory ends. -/
theorem noteInit {outcome : Except Nat Unit} (noted : state.noteInit init outcome = some next) :
    PoolParts limits clean spare state next := by
  -- both outcomes: the initialisation is noted, then the entry changes
  have both : ∀ id result entry, state.inits init = .creating id →
      EntrySound limits state.nextInit entry → entry.closed = (state.pool id).closed →
      entry.leases = (state.pool id).leases → entry.waiters = (state.pool id).waiters →
      entry.dispatcherPromise = (state.pool id).dispatcherPromise →
      PoolParts limits clean spare state { state.setEntry id entry with
        inits := Function.update state.inits init (.noted id result) } := by
    intro id result entry creating sound closed leases waiters promise
    have pending := (consistent.creating init id creating).1
    have part : PoolPart limits clean spare state
        { state with inits := Function.update state.inits init (.noted id result) } :=
      .init init _ (.inl ⟨id, result, creating, rfl⟩)
    have later := consistent.part part
    refine .head part (.single (.entry id entry ?_))
    refine .of_pending later sound pending closed leases waiters ?_ ?_
    · intro other under
      have same := (later.creating other id under).1
      rw [show (_ : InferencePool).pool id = state.pool id from rfl, pending] at same
      cases same
      dsimp only at under
      rw [Function.update_self] at under
      cases under
    · intro other found isNoted
      rw [promise]
      exact later.noted other id found isNoted
  unfold InferencePool.noteInit at noted
  split at noted
  · next id creating =>
    cases noted
    obtain ⟨pending, -⟩ := consistent.creating init id creating
    have isOpen := (consistent.sound id).open_of_pending pending
    exact both id _ _ creating ((consistent.sound id).created init isOpen) rfl rfl rfl rfl
  · next id error creating =>
    cases noted
    obtain ⟨-, none⟩ := consistent.creating init id creating
    exact both id _ _ creating ((consistent.sound id).createFailed none) rfl rfl rfl rfl
  · cases noted

/-- The `finally` of an initialisation. -/
theorem settleInit (settled : state.settleInit init = some next) :
    PoolParts limits clean spare state next := by
  unfold InferencePool.settleInit at settled
  split at settled
  · next id outcome noted =>
    cases settled
    have pending := consistent.noted init id outcome noted
    have part : PoolPart limits clean spare state
        { state with inits := Function.update state.inits init (.settled id outcome) } :=
      .init init _ (.inr ⟨id, outcome, noted, rfl⟩)
    have later := consistent.part part
    -- no other initialisation of the entry is under way
    have alone : ∀ other, (state.pool id).dispatcherPromise = some other →
        Function.update state.inits init (.settled id outcome) other = .settled id outcome := by
      intro other promise
      rw [pending] at promise
      cases promise
      exact Function.update_self ..
    have finished : (state.pool id).finished init state.clock = { state.pool id with
        dispatcherPromise := none
        lastUsedMs := ((state.pool id).finished init state.clock).lastUsedMs
        idleTimer := ((state.pool id).finished init state.clock).idleTimer } := by
      unfold InferencePoolEntry.finished
      rw [if_pos pending, noteIdle_eq]
    refine .head part (.single (.entry id _ (.of_pending later
      ((consistent.sound id).finished init state.clock) pending ?_ ?_ ?_ ?_ ?_)))
    · rw [finished]
    · rw [finished]
    · rw [finished]
    · intro other under
      have same := alone other (later.creating other id under).1
      have clash := under.symm.trans same
      cases clash
    · intro other found isNoted
      have same := alone other (later.noted other id found isNoted)
      have clash := isNoted.symm.trans same
      cases clash
  · cases settled

/-- `closeDispatcher` goes on after its wait for an initialisation. -/
theorem continueClose (continued : state.continueClose id = some next) :
    PoolParts limits clean spare state next := by
  have goOn : ∀ init dispatcher, (state.pool id).closePromise = .pending init →
      PoolParts limits clean spare state
        (state.setEntry id ((state.pool id).closeWith dispatcher)) := by
    intro init dispatcher pending
    obtain ⟨sound, closed⟩ := (consistent.sound id).closeWith pending dispatcher
    have forced : (state.pool id).forceClosed = true →
        ((state.pool id).closeWith dispatcher).forceClosed = true := by
      intro isForced
      unfold InferencePoolEntry.closeWith
      cases dispatcher with
      | none => exact isForced
      | some dispatcher =>
        dsimp only
        rw [if_pos isForced]
        exact isForced
    refine .single (.entry id _ (.of_closed consistent sound ?_ closed ?_ forced))
    · cases isOpen : (state.pool id).closed with
      | true => rfl
      | false =>
        rw [((consistent.sound id).inUse isOpen).2.2.1] at pending
        cases pending
    · intro ended
      cases ended with
      | inl fulfilled =>
        rw [pending] at fulfilled
        cases fulfilled
      | inr isForced => exact .inr (forced isForced)
  unfold InferencePool.continueClose at continued
  split at continued
  · next pending =>
    cases continued
    exact goOn _ _ pending
  · next init pending =>
    split at continued
    · cases continued
      exact goOn _ _ pending
    · cases continued
      exact goOn _ _ pending
    · cases continued
  · cases continued

theorem dispatcherClosed {closed : Bool} (settled : state.dispatcherClosed id closed = some next) :
    PoolParts limits clean spare state next := by
  unfold InferencePool.dispatcherClosed at settled
  split at settled
  · next dispatcher closing =>
    cases settled
    obtain ⟨sound, isClosed⟩ := (consistent.sound id).dispatcherClosed closing closed
    have forced : (state.pool id).forceClosed = true →
        ((state.pool id).dispatcherClosed dispatcher closed).forceClosed = true := by
      intro isForced
      cases closed <;> exact isForced
    refine .single (.entry id _ (.of_closed consistent sound ?_ isClosed ?_ forced))
    · cases closed <;> exact isClosed
    · intro ended
      cases ended with
      | inl fulfilled =>
        rw [closing] at fulfilled
        cases fulfilled
      | inr isForced => exact .inr (forced isForced)
  · cases settled

end

/-- `beginDraining` gives its caller an answer. -/
theorem answerDrain (owner : Option CallId) (completed : Bool) :
    PoolParts limits clean spare state (state.answerDrain owner completed) := by
  cases owner with
  | none => exact .refl
  | some call => exact .stage call (fun _ same => nomatch same) rfl (fun _ same => nomatch same) rfl

section

variable (consistent : PoolConsistent limits state)

include consistent

/-- The rest of `beginDraining` where the entry did not close in time. -/
theorem forceDraining {owner : Option CallId} (grace : state.drains id = .grace owner) :
    PoolParts limits clean spare state (state.forceDraining id owner) := by
  have was := consistent.grace id owner grace
  obtain ⟨sound, closed, waiters⟩ := (consistent.sound id).forceClose was
  have forces : state.forceCloseEntry id = state.setEntry id (state.pool id).forceClose.1 := by
    unfold InferencePool.forceCloseEntry
    dsimp only
    rw [waiters]
    rfl
  unfold InferencePool.forceDraining
  rw [forces]
  refine .head (.entry id _ (.of_closed consistent sound was closed (fun _ => .inr rfl)
    fun _ => rfl)) ?_
  refine .head (.force id ?_ ?_) (PoolConsistent.answerDrain owner false)
  · rw [pool_setEntry_self, closed]
  · rw [pool_setEntry_self]
    rfl

/-- `beginDraining` goes on: the entry has closed. -/
theorem finishDrain (finished : state.finishDrain id = some next) :
    PoolParts limits clean spare state next := by
  unfold InferencePool.finishDrain at finished
  split at finished
  · next owner grace fulfilled =>
    cases finished
    exact .head (.undrain id (consistent.grace id owner grace) (.inl fulfilled))
      (PoolConsistent.answerDrain owner true)
  · next owner grace rejected =>
    cases finished
    exact consistent.forceDraining grace
  · cases finished

/-- `beginDraining` goes on: its grace is over. -/
theorem timeoutDrain (timedOut : state.timeoutDrain id = some next) :
    PoolParts limits clean spare state next := by
  unfold InferencePool.timeoutDrain at timedOut
  split at timedOut
  · next owner grace =>
    cases timedOut
    exact consistent.forceDraining grace
  · cases timedOut

/-- What was forced to close has settled. -/
theorem endDrain (ended : state.endDrain id = some next) :
    PoolParts limits clean spare state next := by
  unfold InferencePool.endDrain at ended
  split at ended
  · next forced =>
    cases ended
    obtain ⟨closed, isForced⟩ := consistent.forced id forced
    exact .single (.undrain id closed (.inr isForced))
  · cases ended

/-- The idle timer of an entry fires. -/
theorem idleTimeout (spared : spare → state.SparesSelected limits (.idleTimeout id))
    (fired : state.idleTimeout id = some next) : PoolParts limits clean spare state next := by
  unfold InferencePool.idleTimeout at fired
  split at fired
  swap
  · cases fired
  next timer =>
  have stops := Keeps.times consistent id (state.pool id).lastUsedMs false
  dsimp only at fired
  split at fired
  · cases fired
    exact .single (.entry id _ stops)
  · next evicts =>
    cases fired
    simp only [Bool.or_eq_true, not_or, Bool.not_eq_true, decide_eq_true_eq, not_not,
      Bool.not_eq_false', ne_eq] at evicts
    obtain ⟨⟨notClosed, registered⟩, idle⟩ := evicts
    refine .head (.entry id _ stops) (.single (.drain id none registered ?_ ?_))
    · exact idle
    · intro isSpare
      refine spared isSpare id ?_
      rw [pool_setEntry_self] at idle
      have idle : (state.pool id).idle = true := idle
      have registered : state.entries.get (profileKey (state.profiles id)) = some id := registered
      have notClosed : state.closed = false := notClosed
      unfold InferencePool.evicts
      dsimp only
      rw [if_pos (by simp [timer, idle, notClosed, registered])]

/-- Every move of an open registry that does not close it is a sequence of parts. -/
theorem parts (isOpen : state.closed = false) (stays : next.closed = false)
    (unused : clean → state.DropsUnused label) (spared : spare → state.SparesSelected limits label)
    (stepped : (inferencePool limits).step state label = some next) :
    PoolParts limits clean spare state next := by
  cases label with
  | acquire profile aborted =>
    cases stepped
    exact consistent.acquire isOpen profile aborted spared
  | resume call =>
    simp only [inferencePool, InferencePool.resume] at stepped
    split at stepped
    · next id selected =>
      cases stepped
      exact consistent.takeSlot selected
    · next evicted =>
      cases stepped
      refine consistent.entryFor isOpen call fun isSpare id found => ?_
      refine spared isSpare id ?_
      unfold InferencePool.evicts
      dsimp only
      rw [evicted]
      exact found
    · cases stepped
      exact .fail (.inr trivial)
    · next id granted =>
      cases stepped
      exact consistent.useDispatcher granted
    · next id init waits => exact consistent.receiveDispatcher waits stepped
    · next id error failing =>
      cases stepped
      exact consistent.cleanUp failing unused
    · cases stepped
  | release call => exact consistent.release stepped
  | abort call =>
    cases stepped
    exact consistent.abortCall call
  | timeout call => exact consistent.timeout stepped
  | noteInit init outcome => exact consistent.noteInit stepped
  | settleInit init => exact consistent.settleInit stepped
  | continueClose id => exact consistent.continueClose stepped
  | dispatcherClosed id closed => exact consistent.dispatcherClosed stepped
  | finishDrain id => exact consistent.finishDrain stepped
  | timeoutDrain id => exact consistent.timeoutDrain stepped
  | endDrain id => exact consistent.endDrain stepped
  | idleTimeout id => exact consistent.idleTimeout spared stepped
  | tick ms =>
    cases stepped
    exact .single (.tick ms)
  | close =>
    cases stepped
    rw [closed_close] at stays
    cases stays
  | forceClose =>
    cases stepped
    rw [closed_forceClose] at stays
    cases stays

end

end PoolConsistent

namespace InferencePool

variable {state next : InferencePool}

theorem closed_entryFor (call : CallId) (closed : state.closed = true) :
    (state.entryFor limits call).closed = true := by
  unfold entryFor
  dsimp only
  rw [closed]
  split
  · exact closed
  · exact closed

theorem closed_useDispatcher (call : CallId) (id : EntryId) :
    (state.useDispatcher call id).closed = state.closed := by
  unfold useDispatcher
  dsimp only
  split
  · rfl
  · rfl
  · split <;> rfl

theorem closed_receiveDispatcher (received : state.receiveDispatcher call id init = some next) :
    next.closed = state.closed := by
  unfold receiveDispatcher at received
  split at received <;> cases received <;> rfl

theorem closed_cleanUp (call : CallId) (id : EntryId) (error : PoolError) :
    (state.cleanUp call id error).closed = state.closed := by
  unfold cleanUp
  dsimp only
  split
  · exact closed_grantTo ..
  · exact closed_grantTo ..

theorem closed_resume (closed : state.closed = true)
    (resumed : state.resume limits call = some next) : next.closed = true := by
  unfold resume at resumed
  split at resumed
  · cases resumed
    exact closed
  · cases resumed
    exact closed_entryFor call closed
  · cases resumed
    exact closed
  · cases resumed
    rw [closed_useDispatcher, closed]
  · rw [closed_receiveDispatcher resumed, closed]
  · cases resumed
    rw [closed_cleanUp, closed]
  · cases resumed

theorem closed_abort (call : CallId) : (state.abort call).closed = state.closed := by
  unfold abort
  dsimp only
  split <;> rfl

theorem closed_finishDrain (finished : state.finishDrain id = some next) :
    next.closed = state.closed := by
  unfold finishDrain at finished
  split at finished
  · cases finished
    exact closed_answerDrain ..
  · cases finished
    exact closed_forceDraining ..
  · cases finished

theorem closed_idleTimeout (closed : state.closed = true)
    (fired : state.idleTimeout id = some next) : next.closed = true := by
  unfold idleTimeout at fired
  split at fired
  · dsimp only at fired
    split at fired
    · cases fired
      exact closed
    · cases fired
      rw [closed_beginDraining]
      exact closed
  · cases fired

end InferencePool

/-- A registry stays closed. -/
theorem closed_of_step {state : InferencePool}
    (stepped : (inferencePool limits).step state label = some next) (closed : state.closed = true) :
    next.closed = true := by
  cases label with
  | acquire profile aborted =>
    cases stepped
    unfold InferencePool.acquire
    rw [if_pos (by exact closed)]
    exact closed
  | resume call => exact closed_resume closed stepped
  | release call =>
    simp only [inferencePool, InferencePool.release] at stepped
    split at stepped
    · cases stepped
      rw [closed_grantTo]
      exact closed
    · cases stepped
  | abort call =>
    cases stepped
    rw [closed_abort, closed]
  | timeout call =>
    simp only [inferencePool, InferencePool.timeout] at stepped
    split at stepped <;> cases stepped <;> exact closed
  | noteInit init outcome =>
    simp only [inferencePool, InferencePool.noteInit] at stepped
    split at stepped <;> cases stepped <;> exact closed
  | settleInit init =>
    simp only [inferencePool, InferencePool.settleInit] at stepped
    split at stepped
    · cases stepped
      exact closed
    · cases stepped
  | continueClose id =>
    simp only [inferencePool, InferencePool.continueClose] at stepped
    split at stepped
    · cases stepped
      exact closed
    · split at stepped <;> cases stepped <;> exact closed
    · cases stepped
  | dispatcherClosed id result =>
    simp only [inferencePool, InferencePool.dispatcherClosed] at stepped
    split at stepped
    · cases stepped
      exact closed
    · cases stepped
  | finishDrain id => rw [closed_finishDrain stepped, closed]
  | timeoutDrain id =>
    simp only [inferencePool, InferencePool.timeoutDrain] at stepped
    split at stepped
    · cases stepped
      rw [closed_forceDraining, closed]
    · cases stepped
  | endDrain id =>
    simp only [inferencePool, InferencePool.endDrain] at stepped
    split at stepped
    · cases stepped
      exact closed
    · cases stepped
  | idleTimeout id => exact closed_idleTimeout closed stepped
  | tick ms =>
    cases stepped
    exact closed
  | close =>
    cases stepped
    exact closed_close state
  | forceClose =>
    cases stepped
    exact closed_forceClose state

/-- An invariant of an open registry that every part of a move keeps holds wherever a
schedule leads, as long as the registry is open there. -/
theorem invariant_of_parts {clean spare : Prop} {condition : InferencePool → PoolStep → Prop}
    {invariant : InferencePool → Prop}
    (unused : ∀ {state label}, condition state label → clean → state.DropsUnused label)
    (spared : ∀ {state label}, condition state label → spare → state.SparesSelected limits label)
    (kept : ∀ {state next}, PoolConsistent limits state → invariant state →
      PoolPart limits clean spare state next → invariant next)
    {state : InferencePool} {schedule : List PoolStep}
    (along : (inferencePool limits).Along condition .initial schedule)
    (ran : (inferencePool limits).run .initial schedule = some state)
    (isOpen : state.closed = false) (holds : invariant .initial) :
    PoolConsistent limits state ∧ invariant state := by
  have sequence : ∀ {first last : InferencePool}, PoolParts limits clean spare first last →
      PoolConsistent limits first ∧ invariant first →
        PoolConsistent limits last ∧ invariant last := by
    intro first last parts both
    induction parts with
    | refl => exact both
    | tail _ part ih => exact ⟨ih.1.part part, kept ih.1 ih.2 part⟩
  have step : ∀ {before after : InferencePool} {label : PoolStep}, condition before label →
      (before.closed = true ∨ PoolConsistent limits before ∧ invariant before) →
      (inferencePool limits).step before label = some after →
      (after.closed = true ∨ PoolConsistent limits after ∧ invariant after) := by
    intro before after label met inv stepped
    cases closed : after.closed with
    | true => exact .inl rfl
    | false =>
      have was : before.closed = false := by
        cases was : before.closed with
        | false => rfl
        | true =>
          rw [closed_of_step stepped was] at closed
          cases closed
      rw [was] at inv
      have both := inv.resolve_left Bool.false_ne_true
      exact .inr (sequence (both.1.parts was closed (unused met) (spared met) stepped) both)
  have rule := @Concurrent.invariant_of_along _ _ (inferencePool limits) condition fun state =>
    state.closed = true ∨ PoolConsistent limits state ∧ invariant state
  have whole := rule step along ran (.inr ⟨poolConsistent_initial, holds⟩)
  cases whole with
  | inl closed =>
    rw [isOpen] at closed
    cases closed
  | inr both => exact both

end GhcGateway.Copilot
