/-
# Slots of a pool entry

Every operation of an entry does one of five things to its slots: nothing but let
waiters leave, grant a free slot, queue a call on a full entry, hand a released slot
to the waiter that came first, or free it. The count of slots, their bound and the
rule that calls wait only at a full entry follow from that alone.

Over all schedules of an entry's calls the slots are compared with what happened:
the grants and the release calls of the schedule.
-/

import GhcGateway.Copilot.InferencePoolEntry
import GhcGateway.Library.Schedule
import Mathlib.Data.List.Perm.Basic
import Mathlib.Data.List.Perm.Subperm

namespace GhcGateway.Copilot

open Library InferencePoolEntry

variable {entry next : InferencePoolEntry} {lease : CallId}

/-- What an operation did to the slots of an entry. -/
inductive SlotEvent
  | left
  | granted (call : CallId)
  | queued (call : CallId)
  | handed (lease waiter : CallId)
  | freed (lease : CallId)

/-- The slots of an entry before and after an operation. -/
def SlotChange (limits : InferencePoolLimits) (entry next : InferencePoolEntry) :
    SlotEvent → Prop
  | .left =>
    next.active = entry.active ∧ next.leases = entry.leases ∧
      next.waiters.Sublist entry.waiters
  | .granted call =>
    entry.active < limits.connectionsPerEntry ∧ next.active = entry.active + 1 ∧
      next.leases = entry.leases ++ [call] ∧ next.waiters = entry.waiters
  | .queued call =>
    limits.connectionsPerEntry ≤ entry.active ∧ next.active = entry.active ∧
      next.leases = entry.leases ∧ next.waiters = entry.waiters ++ [call]
  | .handed lease waiter =>
    lease ∈ entry.leases ∧ entry.waiters = waiter :: next.waiters ∧
      next.active = entry.active ∧ next.leases = entry.leases.erase lease ++ [waiter]
  | .freed lease =>
    lease ∈ entry.leases ∧ entry.waiters = [] ∧ next.waiters = [] ∧
      next.active = entry.active - 1 ∧ next.leases = entry.leases.erase lease

/-- The slots are counted and bounded, and only a full entry has waiters. -/
structure Slots (limits : InferencePoolLimits) (entry : InferencePoolEntry) : Prop where
  counted : entry.active = entry.leases.length
  within : entry.active ≤ limits.connectionsPerEntry
  saturated : entry.waiters ≠ [] → entry.active = limits.connectionsPerEntry

variable {limits : InferencePoolLimits}

theorem slots_new (now : Nat) : Slots limits (new now) :=
  ⟨rfl, Nat.zero_le _, fun waiting => absurd rfl waiting⟩

theorem Slots.change {event : SlotEvent} (slots : Slots limits entry)
    (change : SlotChange limits entry next event) : Slots limits next := by
  obtain ⟨counted, within, saturated⟩ := slots
  cases event with
  | left =>
    obtain ⟨active, leases, waiters⟩ := change
    refine ⟨by rw [active, leases, counted], by rw [active]; exact within, fun waiting => ?_⟩
    rw [active]
    exact saturated fun none => waiting (List.sublist_nil.mp (none ▸ waiters))
  | granted call =>
    obtain ⟨free, active, leases, waiters⟩ := change
    refine ⟨by rw [active, leases, List.length_append, counted]; rfl,
      by rw [active]; exact free, fun waiting => ?_⟩
    rw [waiters] at waiting
    exact absurd (saturated waiting) (Nat.ne_of_lt free)
  | queued call =>
    obtain ⟨full, active, leases, -⟩ := change
    refine ⟨by rw [active, leases, counted], by rw [active]; exact within, fun _ => ?_⟩
    rw [active]
    exact Nat.le_antisymm within full
  | handed lease waiter =>
    obtain ⟨held, waiters, active, leases⟩ := change
    have full := saturated (by rw [waiters]; exact List.cons_ne_nil _ _)
    refine ⟨?_, by rw [active]; exact within, fun _ => by rw [active]; exact full⟩
    have one := List.length_pos_of_mem held
    rw [active, leases, List.length_append, List.length_erase_of_mem held, counted,
      List.length_singleton]
    omega
  | freed lease =>
    obtain ⟨held, -, waiters, active, leases⟩ := change
    refine ⟨?_, ?_, fun waiting => absurd waiters waiting⟩
    · rw [active, leases, List.length_erase_of_mem held, counted]
    · rw [active]
      exact Nat.le_trans (Nat.sub_le _ _) within

/-- The operation did not touch the slots. -/
theorem slotChange_of_eq (active : next.active = entry.active) (leases : next.leases = entry.leases)
    (waiters : next.waiters = entry.waiters) : SlotChange limits entry next .left :=
  ⟨active, leases, waiters ▸ List.Sublist.refl _⟩

namespace InferencePoolEntry

/-- What `acquire` did, by its result. -/
theorem slotChange_acquire (entry : InferencePoolEntry) (call : CallId) (aborted : Bool)
    (now : Nat) :
    SlotChange limits entry (entry.acquire limits call aborted now).1
      (match (entry.acquire limits call aborted now).2 with
      | .failed _ => .left
      | .granted => .granted call
      | .waiting => .queued call) := by
  unfold acquire
  split
  · exact slotChange_of_eq rfl rfl rfl
  · split
    · exact slotChange_of_eq rfl rfl rfl
    · dsimp only
      split
      · next free => exact ⟨free, rfl, rfl, rfl⟩
      · next full =>
        split
        · exact slotChange_of_eq rfl rfl rfl
        · exact ⟨Nat.not_lt.mp full, rfl, rfl, rfl⟩

/-- `onIdle` touches nothing but the time of last use and the idle timer. -/
theorem noteIdle_eq (entry : InferencePoolEntry) (now : Nat) :
    entry.noteIdle now = { entry with
      lastUsedMs := (entry.noteIdle now).lastUsedMs
      idleTimer := (entry.noteIdle now).idleTimer } := by
  unfold noteIdle scheduleIdle
  split
  · dsimp only
    split <;> rfl
  · rfl

/-- A release function that has been called before does nothing. -/
theorem release_of_not_mem (gone : lease ∉ entry.leases) (now : Nat) :
    entry.release lease now = (entry, none) :=
  if_neg gone

/-- What a release function did: it handed its slot to the first waiter, or freed
it. -/
theorem slotChange_release {entry : InferencePoolEntry} {lease : CallId}
    (held : lease ∈ entry.leases) (now : Nat) :
    SlotChange limits entry (entry.release lease now).1
      (match (entry.release lease now).2 with
      | some waiter => .handed lease waiter
      | none => .freed lease) := by
  unfold release
  rw [if_pos held]
  dsimp only
  cases waiters : entry.waiters with
  | nil =>
    dsimp only
    rw [noteIdle_eq]
    exact ⟨held, waiters, rfl, rfl, rfl⟩
  | cons waiter rest => exact ⟨held, waiters, rfl, rfl⟩

theorem slotChange_removeWaiter (entry : InferencePoolEntry) (call : CallId) :
    SlotChange limits entry (entry.removeWaiter call) .left :=
  ⟨rfl, rfl, List.erase_sublist⟩

theorem slotChange_getDispatcher (entry : InferencePoolEntry) (init : InitId) :
    SlotChange limits entry (entry.getDispatcher init).1 .left := by
  unfold getDispatcher
  split
  · exact slotChange_of_eq rfl rfl rfl
  · split
    · exact slotChange_of_eq rfl rfl rfl
    · split <;> exact slotChange_of_eq rfl rfl rfl

theorem slotChange_created (entry : InferencePoolEntry) (init : InitId) :
    SlotChange limits entry (entry.created init) .left := slotChange_of_eq rfl rfl rfl

theorem slotChange_createFailed (entry : InferencePoolEntry) :
    SlotChange limits entry entry.createFailed .left := slotChange_of_eq rfl rfl rfl

theorem slotChange_finished (entry : InferencePoolEntry) (init : InitId) (now : Nat) :
    SlotChange limits entry (entry.finished init now) .left := by
  unfold finished
  rw [noteIdle_eq]
  exact slotChange_of_eq rfl rfl rfl

theorem slotChange_closeWith (entry : InferencePoolEntry) (dispatcher : Option InitId) :
    SlotChange limits entry (entry.closeWith dispatcher) .left := by
  unfold closeWith
  dsimp only
  split
  · split <;> exact slotChange_of_eq rfl rfl rfl
  · exact slotChange_of_eq rfl rfl rfl

theorem slotChange_close (entry : InferencePoolEntry) :
    SlotChange limits entry entry.close.1 .left := by
  unfold close
  split
  · exact slotChange_of_eq rfl rfl rfl
  · split
    · exact slotChange_of_eq rfl rfl rfl
    · dsimp only
      split
      · obtain ⟨active, leases, waiters⟩ := @slotChange_closeWith limits
          { entry with
            closed := true, idleTimer := false, waiters := [], dispatcherPromise := none,
            closingDispatcherPromise := entry.dispatcherPromise } (some ‹InitId›)
        exact ⟨active, leases, waiters.trans (List.nil_sublist _)⟩
      · exact ⟨rfl, rfl, List.nil_sublist _⟩

theorem slotChange_dispatcherClosed (entry : InferencePoolEntry) (dispatcher : InitId)
    (closed : Bool) : SlotChange limits entry (entry.dispatcherClosed dispatcher closed) .left := by
  unfold dispatcherClosed
  split <;> exact slotChange_of_eq rfl rfl rfl

theorem slotChange_forceClose (entry : InferencePoolEntry) :
    SlotChange limits entry entry.forceClose.1 .left := ⟨rfl, rfl, List.nil_sublist _⟩

end InferencePoolEntry

/-! ## Schedules of one entry -/

/-- An entry with the record of what happened to it: the calls that were given a
slot, those of them that had waited for it, and the calls whose release function
has been called. Calls are numbered as they arrive. -/
structure PoolEntryHistory where
  entry : InferencePoolEntry
  arrivals : CallId
  granted : List CallId
  handed : List CallId
  released : List CallId
  deriving DecidableEq

/-- One move at an entry. Draining it is `close`, followed by `forceClose` when its
grace ends first; the other moves are those of its dispatcher. -/
inductive PoolEntryStep
  | acquire (aborted : Bool) (now : Nat)
  | release (lease : CallId) (now : Nat)
  | abort (call : CallId)
  | timeout (call : CallId)
  | close
  | forceClose
  | getDispatcher (init : InitId)
  | created (init : InitId)
  | createFailed
  | finished (init : InitId) (now : Nat)
  | closeWith (dispatcher : Option InitId)
  | dispatcherClosed (dispatcher : InitId) (closed : Bool)

namespace PoolEntryHistory

def initial (now : Nat) : PoolEntryHistory := ⟨.new now, 0, [], [], []⟩

/-- A call of `acquire`. -/
def acquire (limits : InferencePoolLimits) (history : PoolEntryHistory) (aborted : Bool)
    (now : Nat) : PoolEntryHistory :=
  let (entry, result) := history.entry.acquire limits history.arrivals aborted now
  { history with
    entry
    arrivals := history.arrivals + 1
    granted := if result = .granted then history.granted ++
      [history.arrivals] else history.granted }

def release (history : PoolEntryHistory) (lease : CallId) (now : Nat) : PoolEntryHistory :=
  let (entry, waiter) := history.entry.release lease now
  { history with
    entry
    granted := history.granted ++ waiter.toList
    handed := history.handed ++ waiter.toList
    released := history.released ++ [lease] }

end PoolEntryHistory

/-- The moves at one entry. There is a release function only for a call that was
given a slot. -/
def poolEntry (limits : InferencePoolLimits) : Concurrent PoolEntryHistory PoolEntryStep where
  step history
    | .acquire aborted now => some (history.acquire limits aborted now)
    | .release lease now =>
      if lease ∈ history.granted then some (history.release lease now) else none
    | .abort call => some { history with entry := history.entry.removeWaiter call }
    | .timeout call => some { history with entry := history.entry.removeWaiter call }
    | .close => some { history with entry := history.entry.close.1 }
    | .forceClose => some { history with entry := history.entry.forceClose.1 }
    | .getDispatcher init => some { history with entry := (history.entry.getDispatcher init).1 }
    | .created init => some { history with entry := history.entry.created init }
    | .createFailed => some { history with entry := history.entry.createFailed }
    | .finished init now => some { history with entry := history.entry.finished init now }
    | .closeWith dispatcher => some { history with entry := history.entry.closeWith dispatcher }
    | .dispatcherClosed dispatcher closed =>
      some { history with entry := history.entry.dispatcherClosed dispatcher closed }

/-- The slots agree with what happened, and the waiters came after all waiters that
were served. -/
structure Accounted (limits : InferencePoolLimits) (history : PoolEntryHistory) : Prop where
  slots : Slots limits history.entry
  leases : ∀ call, call ∈ history.entry.leases ↔ call ∈ history.granted ∧ call ∉ history.released
  leasesNodup : history.entry.leases.Nodup
  grantedNodup : history.granted.Nodup
  waitersGranted : ∀ call ∈ history.entry.waiters, call ∉ history.granted
  releasedGranted : ∀ call ∈ history.released, call ∈ history.granted
  arrivedGranted : ∀ call ∈ history.granted, call < history.arrivals
  arrivedWaiters : ∀ call ∈ history.entry.waiters, call < history.arrivals
  waitersSorted : history.entry.waiters.Pairwise (· < ·)
  handedGranted : ∀ call ∈ history.handed, call ∈ history.granted
  handedSorted : history.handed.Pairwise (· < ·)
  handedFirst : ∀ call ∈ history.handed, ∀ waiter ∈ history.entry.waiters, call < waiter

theorem accounted_initial (now : Nat) : Accounted limits (PoolEntryHistory.initial now) where
  slots := slots_new now
  leases := fun call => by simp [PoolEntryHistory.initial, new]
  leasesNodup := List.nodup_nil
  grantedNodup := List.nodup_nil
  waitersGranted := fun _ member => nomatch member
  releasedGranted := fun _ member => nomatch member
  arrivedGranted := fun _ member => nomatch member
  arrivedWaiters := fun _ member => nomatch member
  waitersSorted := List.Pairwise.nil
  handedGranted := fun _ member => nomatch member
  handedSorted := List.Pairwise.nil
  handedFirst := fun _ member => nomatch member

namespace Accounted

variable {history : PoolEntryHistory}

/-- Waiters may leave. -/
theorem leave (accounted : Accounted limits history)
    (change : SlotChange limits history.entry entry .left) :
    Accounted limits { history with entry } where
  slots := accounted.slots.change change
  leases := by
    intro call
    rw [change.2.1]
    exact accounted.leases call
  leasesNodup := by
    rw [change.2.1]
    exact accounted.leasesNodup
  grantedNodup := accounted.grantedNodup
  waitersGranted := fun call member => accounted.waitersGranted call (change.2.2.subset member)
  releasedGranted := accounted.releasedGranted
  arrivedGranted := accounted.arrivedGranted
  arrivedWaiters := fun call member => accounted.arrivedWaiters call (change.2.2.subset member)
  waitersSorted := accounted.waitersSorted.sublist change.2.2
  handedGranted := accounted.handedGranted
  handedSorted := accounted.handedSorted
  handedFirst := fun call member waiter waits =>
    accounted.handedFirst call member waiter (change.2.2.subset waits)

/-- The next call has not been seen before. -/
theorem fresh (accounted : Accounted limits history) : history.arrivals ∉ history.granted :=
  fun member => Nat.lt_irrefl _ (accounted.arrivedGranted _ member)

theorem later (accounted : Accounted limits history) :
    Accounted limits { history with arrivals := history.arrivals + 1 } :=
  { accounted with
    arrivedGranted := fun call member => Nat.lt_succ_of_lt (accounted.arrivedGranted call member)
    arrivedWaiters := fun call member => Nat.lt_succ_of_lt (accounted.arrivedWaiters call member) }

section

variable (accounted : Accounted limits history)

include accounted

/-- The next call is given a free slot. -/
theorem grant (change : SlotChange limits history.entry entry (.granted history.arrivals)) :
    Accounted limits { history with
      entry
      arrivals := history.arrivals + 1
      granted := history.granted ++ [history.arrivals] } := by
  have slots := accounted.slots.change change
  obtain ⟨-, -, leases, waiters⟩ := change
  have unreleased : history.arrivals ∉ history.released :=
    fun member => accounted.fresh (accounted.releasedGranted _ member)
  have notLeased : history.arrivals ∉ history.entry.leases :=
    fun member => accounted.fresh ((accounted.leases _).mp member).1
  have arrived : ∀ call ∈ history.granted ++ [history.arrivals], call < history.arrivals + 1 := by
    intro call member
    rcases List.mem_append.mp member with old | new
    · exact Nat.lt_succ_of_lt (accounted.arrivedGranted call old)
    · rw [List.mem_singleton.mp new]
      exact Nat.lt_succ_self _
  constructor
  case slots => exact slots
  case leases =>
    intro call
    show call ∈ entry.leases ↔ call ∈ history.granted ++ [history.arrivals] ∧
        call ∉ history.released
    rw [leases, List.mem_append, List.mem_append, accounted.leases, List.mem_singleton]
    constructor
    · rintro (⟨granted, kept⟩ | rfl)
      · exact ⟨.inl granted, kept⟩
      · exact ⟨.inr rfl, unreleased⟩
    · rintro ⟨granted | rfl, kept⟩
      · exact .inl ⟨granted, kept⟩
      · exact .inr rfl
  case leasesNodup =>
    show entry.leases.Nodup
    rw [leases]
    exact (List.perm_append_singleton _ _).nodup_iff.mpr
      (List.nodup_cons.mpr ⟨notLeased, accounted.leasesNodup⟩)
  case grantedNodup =>
    exact (List.perm_append_singleton _ _).nodup_iff.mpr
      (List.nodup_cons.mpr ⟨accounted.fresh, accounted.grantedNodup⟩)
  case waitersGranted =>
    intro call waits member
    rw [waiters] at waits
    rcases List.mem_append.mp member with old | new
    · exact accounted.waitersGranted call waits old
    · rw [List.mem_singleton.mp new] at waits
      exact Nat.lt_irrefl _ (accounted.arrivedWaiters _ waits)
  case releasedGranted =>
    exact fun call member => List.mem_append_left _ (accounted.releasedGranted call member)
  case arrivedGranted => exact arrived
  case arrivedWaiters =>
    intro call waits
    rw [waiters] at waits
    exact Nat.lt_succ_of_lt (accounted.arrivedWaiters call waits)
  case waitersSorted =>
    show entry.waiters.Pairwise _
    rw [waiters]
    exact accounted.waitersSorted
  case handedGranted =>
    exact fun call member => List.mem_append_left _ (accounted.handedGranted call member)
  case handedSorted => exact accounted.handedSorted
  case handedFirst =>
    intro call member waiter waits
    rw [waiters] at waits
    exact accounted.handedFirst call member waiter waits

/-- The next call joins the end of the queue. -/
theorem queue (change : SlotChange limits history.entry entry (.queued history.arrivals)) :
    Accounted limits { history with entry, arrivals := history.arrivals + 1 } := by
  have slots := accounted.slots.change change
  obtain ⟨-, -, leases, waiters⟩ := change
  have waiting : ∀ call, call ∈ entry.waiters ↔
      call ∈ history.entry.waiters ∨ call = history.arrivals := by
    intro call
    rw [waiters, List.mem_append, List.mem_singleton]
  constructor
  case slots => exact slots
  case leases =>
    intro call
    rw [leases]
    exact accounted.leases call
  case leasesNodup =>
    show entry.leases.Nodup
    rw [leases]
    exact accounted.leasesNodup
  case grantedNodup => exact accounted.grantedNodup
  case waitersGranted =>
    intro call waits
    rcases (waiting call).mp waits with old | rfl
    · exact accounted.waitersGranted call old
    · exact accounted.fresh
  case releasedGranted => exact accounted.releasedGranted
  case arrivedGranted =>
    exact fun call member => Nat.lt_succ_of_lt (accounted.arrivedGranted call member)
  case arrivedWaiters =>
    intro call waits
    rcases (waiting call).mp waits with old | rfl
    · exact Nat.lt_succ_of_lt (accounted.arrivedWaiters call old)
    · exact Nat.lt_succ_self _
  case waitersSorted =>
    show entry.waiters.Pairwise _
    rw [waiters, List.pairwise_append]
    refine ⟨accounted.waitersSorted, List.pairwise_singleton _ _, fun call waits last single => ?_⟩
    rw [List.mem_singleton.mp single]
    exact accounted.arrivedWaiters call waits
  case handedGranted => exact accounted.handedGranted
  case handedSorted => exact accounted.handedSorted
  case handedFirst =>
    intro call member waiter waits
    rcases (waiting waiter).mp waits with old | rfl
    · exact accounted.handedFirst call member waiter old
    · exact accounted.arrivedGranted call (accounted.handedGranted call member)

/-- Calling a release function again is only recorded. -/
theorem releaseAgain (granted : lease ∈ history.granted) (gone : lease ∉ history.entry.leases) :
    Accounted limits { history with released := history.released ++ [lease] } := by
  have released : lease ∈ history.released := by
    by_contra kept
    exact gone ((accounted.leases lease).mpr ⟨granted, kept⟩)
  have same : ∀ call, call ∈ history.released ++ [lease] ↔ call ∈ history.released := by
    intro call
    rw [List.mem_append, List.mem_singleton]
    exact ⟨fun known => known.elim id fun eq => eq ▸ released, .inl⟩
  exact { accounted with
    leases := fun call => by
      rw [same]
      exact accounted.leases call
    releasedGranted := fun call member => accounted.releasedGranted call ((same call).mp member) }

/-- What is left of the leases when one is released. -/
theorem mem_erase (call : CallId) :
    call ∈ history.entry.leases.erase lease ↔
      call ∈ history.granted ∧ call ∉ history.released ++ [lease] := by
  rw [accounted.leasesNodup.mem_erase_iff, accounted.leases, List.mem_append, List.mem_singleton]
  constructor
  · rintro ⟨other, granted, kept⟩
    exact ⟨granted, fun known => known.elim kept other⟩
  · rintro ⟨granted, kept⟩
    exact ⟨fun same => kept (.inr same), granted, fun known => kept (.inl known)⟩

/-- A released slot is free again. -/
theorem free (change : SlotChange limits history.entry entry (.freed lease)) :
    Accounted limits { history with entry, released := history.released ++ [lease] } := by
  have slots := accounted.slots.change change
  obtain ⟨held, -, waiters, -, leases⟩ := change
  constructor
  case slots => exact slots
  case leases =>
    intro call
    rw [leases]
    exact accounted.mem_erase call
  case leasesNodup =>
    show entry.leases.Nodup
    rw [leases]
    exact accounted.leasesNodup.erase lease
  case grantedNodup => exact accounted.grantedNodup
  case waitersGranted =>
    intro call waits
    rw [waiters] at waits
    cases waits
  case releasedGranted =>
    intro call member
    rcases List.mem_append.mp member with old | new
    · exact accounted.releasedGranted call old
    · rw [List.mem_singleton.mp new]
      exact ((accounted.leases lease).mp held).1
  case arrivedGranted => exact accounted.arrivedGranted
  case arrivedWaiters =>
    intro call waits
    rw [waiters] at waits
    cases waits
  case waitersSorted =>
    show entry.waiters.Pairwise _
    rw [waiters]
    exact List.Pairwise.nil
  case handedGranted => exact accounted.handedGranted
  case handedSorted => exact accounted.handedSorted
  case handedFirst =>
    intro call _ waiter waits
    rw [waiters] at waits
    cases waits

/-- A released slot goes to the waiter that came first. -/
theorem hand {waiter : CallId}
    (change : SlotChange limits history.entry entry (.handed lease waiter)) :
    Accounted limits { history with
      entry
      granted := history.granted ++ [waiter]
      handed := history.handed ++ [waiter]
      released := history.released ++ [lease] } := by
  have slots := accounted.slots.change change
  obtain ⟨held, waiters, -, leases⟩ := change
  have first : waiter ∈ history.entry.waiters := by
    rw [waiters]
    exact List.mem_cons_self
  have rest : ∀ call ∈ entry.waiters, call ∈ history.entry.waiters := by
    intro call waits
    rw [waiters]
    exact List.mem_cons_of_mem _ waits
  have sorted := accounted.waitersSorted
  rw [waiters, List.pairwise_cons] at sorted
  have new : waiter ∉ history.granted := accounted.waitersGranted waiter first
  have leaseGranted := ((accounted.leases lease).mp held).1
  have unreleased : waiter ∉ history.released ++ [lease] := by
    rw [List.mem_append, List.mem_singleton]
    rintro (member | rfl)
    · exact new (accounted.releasedGranted _ member)
    · exact new leaseGranted
  constructor
  case slots => exact slots
  case leases =>
    intro call
    show call ∈ entry.leases ↔ call ∈ history.granted ++ [waiter] ∧
        call ∉ history.released ++ [lease]
    rw [leases, List.mem_append, List.mem_append (s := history.granted), accounted.mem_erase,
      List.mem_singleton]
    constructor
    · rintro (⟨granted, kept⟩ | rfl)
      · exact ⟨.inl granted, kept⟩
      · exact ⟨.inr rfl, unreleased⟩
    · rintro ⟨granted | rfl, kept⟩
      · exact .inl ⟨granted, kept⟩
      · exact .inr rfl
  case leasesNodup =>
    show entry.leases.Nodup
    rw [leases]
    exact (List.perm_append_singleton _ _).nodup_iff.mpr (List.nodup_cons.mpr
      ⟨fun member => new ((accounted.mem_erase waiter).mp member).1,
        accounted.leasesNodup.erase lease⟩)
  case grantedNodup =>
    exact (List.perm_append_singleton _ _).nodup_iff.mpr
      (List.nodup_cons.mpr ⟨new, accounted.grantedNodup⟩)
  case waitersGranted =>
    intro call waits member
    rcases List.mem_append.mp member with old | single
    · exact accounted.waitersGranted call (rest call waits) old
    · rw [List.mem_singleton.mp single] at waits
      exact Nat.lt_irrefl _ (sorted.1 waiter waits)
  case releasedGranted =>
    intro call member
    rcases List.mem_append.mp member with old | single
    · exact List.mem_append_left _ (accounted.releasedGranted call old)
    · rw [List.mem_singleton.mp single]
      exact List.mem_append_left _ leaseGranted
  case arrivedGranted =>
    intro call member
    rcases List.mem_append.mp member with old | single
    · exact accounted.arrivedGranted call old
    · rw [List.mem_singleton.mp single]
      exact accounted.arrivedWaiters waiter first
  case arrivedWaiters => exact fun call waits => accounted.arrivedWaiters call (rest call waits)
  case waitersSorted => exact sorted.2
  case handedGranted =>
    intro call member
    rcases List.mem_append.mp member with old | single
    · exact List.mem_append_left _ (accounted.handedGranted call old)
    · exact List.mem_append_right _ single
  case handedSorted =>
    show (history.handed ++ [waiter]).Pairwise _
    rw [List.pairwise_append]
    refine ⟨accounted.handedSorted, List.pairwise_singleton _ _, fun call old last single => ?_⟩
    rw [List.mem_singleton.mp single]
    exact accounted.handedFirst call old waiter first
  case handedFirst =>
    intro call member next waits
    rcases List.mem_append.mp member with old | single
    · exact accounted.handedFirst call old next (rest next waits)
    · rw [List.mem_singleton.mp single]
      exact sorted.1 next waits

/-- Every move at an entry keeps the account. -/
theorem step {next : PoolEntryHistory} {label : PoolEntryStep}
    (stepped : (poolEntry limits).step history label = some next) : Accounted limits next := by
  cases label with
  | acquire aborted now =>
    cases stepped
    have change := @slotChange_acquire limits history.entry history.arrivals
      aborted now
    unfold PoolEntryHistory.acquire
    generalize history.entry.acquire limits history.arrivals aborted now = acquired at change ⊢
    obtain ⟨entry, result⟩ := acquired
    cases result with
    | failed error => exact (accounted.leave change).later
    | granted => exact accounted.grant change
    | waiting => exact accounted.queue change
  | release lease now =>
    simp only [poolEntry] at stepped
    split at stepped
    · next granted =>
      cases stepped
      unfold PoolEntryHistory.release
      by_cases held : lease ∈ history.entry.leases
      · have change := @slotChange_release limits _ _ held now
        generalize history.entry.release lease now = released at change ⊢
        obtain ⟨entry, waiter⟩ := released
        cases waiter with
        | none => simpa using accounted.free change
        | some waiter => exact accounted.hand change
      · rw [release_of_not_mem held]
        simpa using accounted.releaseAgain granted held
    · cases stepped
  | abort call =>
    cases stepped
    exact accounted.leave (history.entry.slotChange_removeWaiter call)
  | timeout call =>
    cases stepped
    exact accounted.leave (history.entry.slotChange_removeWaiter call)
  | close =>
    cases stepped
    exact accounted.leave history.entry.slotChange_close
  | forceClose =>
    cases stepped
    exact accounted.leave history.entry.slotChange_forceClose
  | getDispatcher init =>
    cases stepped
    exact accounted.leave (history.entry.slotChange_getDispatcher init)
  | created init =>
    cases stepped
    exact accounted.leave (history.entry.slotChange_created init)
  | createFailed =>
    cases stepped
    exact accounted.leave history.entry.slotChange_createFailed
  | finished init now =>
    cases stepped
    exact accounted.leave (history.entry.slotChange_finished init now)
  | closeWith dispatcher =>
    cases stepped
    exact accounted.leave (history.entry.slotChange_closeWith dispatcher)
  | dispatcherClosed dispatcher closed =>
    cases stepped
    exact accounted.leave (history.entry.slotChange_dispatcherClosed dispatcher closed)

/-- The slots in use are the grants whose release function has not been called. -/
theorem active_eq :
    history.entry.active =
      (history.granted.filter fun call => call ∉ history.released).length := by
  have same : history.entry.leases.Perm
      (history.granted.filter fun call => call ∉ history.released) := by
    rw [List.perm_ext_iff_of_nodup accounted.leasesNodup (accounted.grantedNodup.filter _)]
    intro call
    rw [accounted.leases, List.mem_filter, decide_eq_true_iff]
  rw [accounted.slots.counted, same.length_eq]

theorem release_again {call : CallId} (released : call ∈ history.released) (now : Nat) :
    history.entry.release call now = (history.entry, none) :=
  release_of_not_mem
    (fun held => ((accounted.leases call).mp held).2 released) now

end

end Accounted

end GhcGateway.Copilot
