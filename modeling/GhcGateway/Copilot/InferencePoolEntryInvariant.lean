/-
# What holds of a pool entry

An entry that is closed only while it is idle is out of use afterwards: nobody holds
or waits for a slot in it and nothing initialises it. An entry in use has not begun
to close. What has been closed, or was forced to, keeps no dispatcher.
-/

import GhcGateway.Copilot.InferencePoolSlots

namespace GhcGateway.Copilot

open Library

variable {limits : InferencePoolLimits} {nextInit : InitId}

/-- Nobody uses the entry and it has nothing to close. -/
structure InferencePoolEntry.Quiet (entry : InferencePoolEntry) : Prop where
  dispatcher : entry.dispatcher = none
  closingDispatcher : entry.closingDispatcher = none
  dispatcherPromise : entry.dispatcherPromise = none
  closingDispatcherPromise : entry.closingDispatcherPromise = none
  leases : entry.leases = []
  waiters : entry.waiters = []

/-- Only the slots and the times of use of an entry have changed. -/
def InferencePoolEntry.OnlySlots (entry next : InferencePoolEntry) : Prop :=
  next = { entry with
    active := next.active
    waiters := next.waiters
    leases := next.leases
    lastUsedMs := next.lastUsedMs
    idleTimer := next.idleTimer }

/-- What holds of one entry while the registry is open; initialisations are numbered
below `nextInit`. -/
structure EntrySound (limits : InferencePoolLimits) (nextInit : InitId)
    (entry : InferencePoolEntry) : Prop where
  slots : Slots limits entry
  outOfUse : entry.closed = true →
    entry.dispatcherPromise = none ∧ entry.closingDispatcherPromise = none ∧
      entry.leases = [] ∧ entry.waiters = []
  inUse : entry.closed = false →
    entry.closingDispatcher = none ∧ entry.closingDispatcherPromise = none ∧
      entry.closePromise = .unset ∧ entry.forceClosed = false
  pending : ∀ init, entry.closePromise = .pending init →
    entry.dispatcher = none ∧ entry.closingDispatcher = none
  closing : ∀ dispatcher, entry.closePromise = .dispatcher dispatcher →
    entry.dispatcher = none ∧
      (entry.closingDispatcher = none ∨ entry.closingDispatcher = some dispatcher)
  ended : entry.closePromise = .fulfilled ∨ entry.forceClosed = true →
    entry.dispatcher = none ∧ entry.closingDispatcher = none
  failed : entry.failedInitialization = true → entry.dispatcher = none
  numbered : ∀ init, entry.dispatcherPromise = some init → init < nextInit

namespace EntrySound

open InferencePoolEntry

variable {entry : InferencePoolEntry}

theorem later (sound : EntrySound limits nextInit entry) {later : InitId}
    (le : nextInit ≤ later) : EntrySound limits later entry :=
  { sound with numbered := fun init pending => Nat.lt_of_lt_of_le (sound.numbered init pending) le }

theorem new (now : Nat) : EntrySound limits nextInit (.new now) where
  slots := slots_new now
  outOfUse := fun closed => nomatch closed
  inUse := fun _ => ⟨rfl, rfl, rfl, rfl⟩
  pending := fun _ pending => nomatch pending
  closing := fun _ closing => nomatch closing
  ended := fun done => by simp [InferencePoolEntry.new] at done
  failed := fun failed => nomatch failed
  numbered := fun _ pending => nomatch pending

section

variable (sound : EntrySound limits nextInit entry)

include sound

theorem open_of_pending {init : InitId} (pending : entry.dispatcherPromise = some init) :
    entry.closed = false := by
  cases closed : entry.closed with
  | false => rfl
  | true =>
    rw [(sound.outOfUse closed).1] at pending
    cases pending

/-- An entry in use: a call holds a slot of it. -/
theorem open_of_lease {call : CallId} (held : call ∈ entry.leases) : entry.closed = false := by
  cases closed : entry.closed with
  | false => rfl
  | true =>
    rw [(sound.outOfUse closed).2.2.1] at held
    cases held

/-- An idle entry has no slot taken, no waiter and no initialisation. -/
theorem of_idle (idle : entry.idle = true) :
    entry.leases = [] ∧ entry.waiters = [] ∧ entry.dispatcherPromise = none := by
  simp only [InferencePoolEntry.idle, Bool.and_eq_true, decide_eq_true_eq, List.isEmpty_iff,
    Option.isNone_iff_eq_none] at idle
  obtain ⟨⟨active, waiters⟩, promise⟩ := idle
  have counted := sound.slots.counted
  rw [active] at counted
  exact ⟨List.eq_nil_of_length_eq_zero counted.symm, waiters, promise⟩

/-- A change of the slots of an entry in use. -/
theorem changeSlots {next : InferencePoolEntry} {event : SlotEvent}
    (change : SlotChange limits entry next event) (only : entry.OnlySlots next)
    (used : entry.closed = false) :
    EntrySound limits nextInit next where
  slots := sound.slots.change change
  outOfUse := by
    intro closed
    rw [only] at closed
    rw [used] at closed
    cases closed
  inUse := by
    rw [only]
    exact sound.inUse
  pending := by
    rw [only]
    exact sound.pending
  closing := by
    rw [only]
    exact sound.closing
  ended := by
    rw [only]
    exact sound.ended
  failed := by
    rw [only]
    exact sound.failed
  numbered := by
    rw [only]
    exact sound.numbered

/-- The times of use of an entry do not matter. -/
theorem times (lastUsedMs : Nat) (idleTimer : Bool) :
    EntrySound limits nextInit { entry with lastUsedMs, idleTimer } :=
  ⟨⟨sound.slots.counted, sound.slots.within, sound.slots.saturated⟩, sound.outOfUse, sound.inUse,
    sound.pending, sound.closing, sound.ended, sound.failed, sound.numbered⟩

theorem noteIdle (now : Nat) : EntrySound limits nextInit (entry.noteIdle now) := by
  rw [noteIdle_eq]
  exact sound.times _ _

end

theorem onlySlots_acquire (call : CallId) (aborted : Bool) (now : Nat) :
    entry.OnlySlots (entry.acquire limits call aborted now).1 := by
  unfold InferencePoolEntry.acquire
  split
  · rfl
  · split
    · rfl
    · dsimp only
      split
      · rfl
      · split <;> rfl

theorem acquire (sound : EntrySound limits nextInit entry) (call : CallId) (aborted : Bool)
    (now : Nat) : EntrySound limits nextInit (entry.acquire limits call aborted now).1 := by
  cases used : entry.closed with
  | true =>
    unfold InferencePoolEntry.acquire
    rw [used]
    split <;> exact sound
  | false =>
    exact sound.changeSlots (entry.slotChange_acquire call aborted now)
      (onlySlots_acquire call aborted now) used

theorem onlySlots_release (call : CallId) (now : Nat) :
    entry.OnlySlots (entry.release call now).1 := by
  unfold InferencePoolEntry.release
  split
  · dsimp only
    split
    · rfl
    · rw [noteIdle_eq]
      rfl
  · rfl

section

variable (sound : EntrySound limits nextInit entry)

include sound

theorem release (call : CallId) (now : Nat) :
    EntrySound limits nextInit (entry.release call now).1 := by
  by_cases held : call ∈ entry.leases
  · exact sound.changeSlots (slotChange_release held now)
      (onlySlots_release call now) (sound.open_of_lease held)
  · rw [release_of_not_mem held]
    exact sound

theorem removeWaiter (call : CallId) : EntrySound limits nextInit (entry.removeWaiter call) := by
  cases used : entry.closed with
  | true =>
    have same : entry.removeWaiter call = entry := by
      unfold InferencePoolEntry.removeWaiter
      rw [(sound.outOfUse used).2.2.2, List.erase_nil, ← (sound.outOfUse used).2.2.2]
    rw [same]
    exact sound
  | false => exact sound.changeSlots (entry.slotChange_removeWaiter call) rfl used

/-- An initialisation starts on an entry in use. -/
theorem start (used : entry.closed = false) :
    EntrySound limits (nextInit + 1) { entry with dispatcherPromise := some nextInit } where
  slots := sound.slots.change (slotChange_of_eq rfl rfl rfl)
  outOfUse := fun closed => by
    rw [used] at closed
    cases closed
  inUse := sound.inUse
  pending := sound.pending
  closing := sound.closing
  ended := sound.ended
  failed := sound.failed
  numbered := by
    intro init started
    cases started
    exact Nat.lt_succ_self _

theorem created (init : InitId) (used : entry.closed = false) :
    EntrySound limits nextInit (entry.created init) := by
  obtain ⟨-, -, closePromise, forced⟩ := sound.inUse used
  constructor
  case slots => exact sound.slots.change (entry.slotChange_created init)
  case outOfUse => exact sound.outOfUse
  case inUse => exact sound.inUse
  case pending =>
    intro pending closing
    have unset : (entry.created init).closePromise = .unset := closePromise
    rw [unset] at closing
    cases closing
  case closing =>
    intro dispatcher closing
    have unset : (entry.created init).closePromise = .unset := closePromise
    rw [unset] at closing
    cases closing
  case ended =>
    have unset : (entry.created init).closePromise = .unset := closePromise
    have notForced : (entry.created init).forceClosed = false := forced
    rw [unset, notForced]
    intro ended
    cases ended with
    | inl fulfilled => cases fulfilled
    | inr forced => cases forced
  case failed => exact fun failed => nomatch failed
  case numbered => exact sound.numbered

theorem createFailed (none : entry.dispatcher = none) :
    EntrySound limits nextInit entry.createFailed :=
  { sound with
    slots := sound.slots.change entry.slotChange_createFailed
    failed := fun _ => none }

theorem finished (init : InitId) (now : Nat) :
    EntrySound limits nextInit (entry.finished init now) := by
  unfold InferencePoolEntry.finished
  refine noteIdle ?_ now
  exact { sound with
    slots := sound.slots.change (slotChange_of_eq rfl rfl rfl)
    outOfUse := fun closed => by
      obtain ⟨promise, rest⟩ := sound.outOfUse closed
      refine ⟨?_, rest⟩
      show (if entry.dispatcherPromise = some init then none else entry.dispatcherPromise) = none
      rw [promise, ite_self]
    numbered := fun other pending => by
      dsimp only at pending
      split at pending
      · cases pending
      · exact sound.numbered other pending }

theorem close (idle : entry.idle = true) (used : entry.closed = false) :
    EntrySound limits nextInit entry.close.1 ∧ entry.close.1.closed = true ∧
      entry.close.2 = [] := by
  obtain ⟨leases, waiters, promise⟩ := sound.of_idle idle
  obtain ⟨closing, closingPromise, closePromise, forced⟩ := sound.inUse used
  have slots := sound.slots.change (@slotChange_close limits entry)
  have closes : entry.close = (entry.dispatcher.elim
      { entry with closed := true, idleTimer := false, closePromise := .pending none }
      (fun dispatcher => { entry with
        closed := true, idleTimer := false, closingDispatcher := some dispatcher,
        dispatcher := none, closePromise := .dispatcher dispatcher }), []) := by
    unfold InferencePoolEntry.close InferencePoolEntry.closeWith
    cases dispatcher : entry.dispatcher <;>
      simp [closePromise, used, promise, waiters, forced, closing, closingPromise]
  rw [closes] at slots ⊢
  cases dispatcher : entry.dispatcher with
  | some found =>
    rw [dispatcher] at slots
    refine ⟨⟨slots, fun _ => ⟨promise, closingPromise, leases, waiters⟩,
      by rintro ⟨⟩, by rintro _ ⟨⟩, fun other closing => ?_,
      fun ended => ?_, fun _ => rfl, sound.numbered⟩, rfl, rfl⟩
    · cases closing
      exact ⟨rfl, .inr rfl⟩
    · cases ended with
      | inl fulfilled => cases fulfilled
      | inr isForced =>
        have isForced : entry.forceClosed = true := isForced
        rw [forced] at isForced
        cases isForced
  | none =>
    rw [dispatcher] at slots
    refine ⟨⟨slots, fun _ => ⟨promise, closingPromise, leases, waiters⟩,
      by rintro ⟨⟩, fun _ _ => ⟨rfl, closing⟩,
      by rintro _ ⟨⟩, fun _ => ⟨rfl, closing⟩, fun _ => rfl,
      sound.numbered⟩, rfl, rfl⟩

/-- A closed entry goes on closing with the dispatcher it waited for, or none. -/
theorem closeWith {init : Option InitId} (pending : entry.closePromise = .pending init)
    (dispatcher : Option InitId) :
    EntrySound limits nextInit (entry.closeWith dispatcher) ∧
      (entry.closeWith dispatcher).closed = true := by
  have closed : entry.closed = true := by
    cases closed : entry.closed with
    | true => rfl
    | false =>
      rw [(sound.inUse closed).2.2.1] at pending
      cases pending
  obtain ⟨none, closing⟩ := sound.pending init pending
  obtain ⟨promise, -, leases, waiters⟩ := sound.outOfUse closed
  have slots := sound.slots.change
      (@slotChange_closeWith limits entry dispatcher)
  unfold InferencePoolEntry.closeWith at slots ⊢
  cases dispatcher with
  | none =>
    exact ⟨⟨slots, fun _ => ⟨promise, rfl, leases, waiters⟩, fun used => by
      simp [closed] at used, fun _ pending => (nomatch pending), fun _ closing => (nomatch closing),
      fun _ => ⟨rfl, closing⟩, fun _ => rfl, sound.numbered⟩, closed⟩
  | some dispatcher =>
    dsimp only at slots ⊢
    cases forced : entry.forceClosed with
    | true =>
      simp only [forced] at slots ⊢
      exact ⟨⟨slots, fun _ => ⟨promise, rfl, leases, waiters⟩, fun used => by
        simp [closed] at used, fun _ pending => (nomatch pending), fun _ closing =>
          (nomatch closing),
        fun _ => ⟨rfl, closing⟩, fun _ => rfl, sound.numbered⟩, closed⟩
    | false =>
      simp only [forced] at slots ⊢
      refine ⟨⟨slots, fun _ => ⟨promise, rfl, leases, waiters⟩, fun used => by
        simp [closed] at used, fun _ pending => (nomatch pending), fun other closing => ?_,
        fun ended => ?_, fun _ => rfl, sound.numbered⟩, closed⟩
      · cases closing
        exact ⟨rfl, .inr rfl⟩
      · simp at ended

theorem dispatcherClosed {dispatcher : InitId}
    (closing : entry.closePromise = .dispatcher dispatcher) (closed : Bool) :
    EntrySound limits nextInit (entry.dispatcherClosed dispatcher closed) ∧
      (entry.dispatcherClosed dispatcher closed).closed = true := by
  have isClosed : entry.closed = true := by
    cases isClosed : entry.closed with
    | true => rfl
    | false =>
      rw [(sound.inUse isClosed).2.2.1] at closing
      cases closing
  obtain ⟨none, open'⟩ := sound.closing dispatcher closing
  obtain ⟨promise, closingPromise, leases, waiters⟩ := sound.outOfUse isClosed
  have slots := sound.slots.change
    (@slotChange_dispatcherClosed limits entry dispatcher closed)
  unfold InferencePoolEntry.dispatcherClosed at slots ⊢
  cases closed with
  | true =>
    rw [if_pos rfl] at slots ⊢
    have gone : (if entry.closingDispatcher = some dispatcher then Option.none
        else entry.closingDispatcher) = Option.none := by
      cases open' with
      | inl no => rw [no, ite_self]
      | inr one => rw [one, if_pos rfl]
    exact ⟨⟨slots, fun _ => ⟨promise, closingPromise, leases, waiters⟩, fun used => by
      simp [isClosed] at used, fun _ pending => (nomatch pending), fun _ closing =>
        (nomatch closing),
      fun _ => ⟨none, gone⟩, fun _ => none, sound.numbered⟩, isClosed⟩
  | false =>
    rw [if_neg Bool.false_ne_true] at slots ⊢
    refine ⟨⟨slots, fun _ => ⟨promise, closingPromise, leases, waiters⟩, fun used => by
      simp [isClosed] at used, fun _ pending => (nomatch pending), fun _ closing =>
        (nomatch closing),
      fun ended => ?_, fun _ => none, sound.numbered⟩, isClosed⟩
    cases ended with
    | inl fulfilled => cases fulfilled
    | inr forced => exact sound.ended (.inr forced)

theorem forceClose (closed : entry.closed = true) :
    EntrySound limits nextInit entry.forceClose.1 ∧ entry.forceClose.1.closed = true ∧
      entry.forceClose.2 = [] := by
  obtain ⟨-, -, leases, waiters⟩ := sound.outOfUse closed
  refine ⟨⟨sound.slots.change entry.slotChange_forceClose, fun _ => ⟨rfl, rfl, leases, rfl⟩,
    fun used => (nomatch used), fun _ _ => ⟨rfl, rfl⟩, fun _ _ => ⟨rfl, .inl rfl⟩,
    fun _ => ⟨rfl, rfl⟩, fun _ => rfl, fun _ pending => nomatch pending⟩, rfl, waiters⟩

/-- An entry that has closed, or was forced to, is quiet. -/
theorem quiet (closed : entry.closed = true)
    (ended : entry.closePromise = .fulfilled ∨ entry.forceClosed = true) : entry.Quiet := by
  obtain ⟨promise, closingPromise, leases, waiters⟩ := sound.outOfUse closed
  obtain ⟨dispatcher, closing⟩ := sound.ended ended
  exact ⟨dispatcher, closing, promise, closingPromise, leases, waiters⟩

end

end EntrySound

end GhcGateway.Copilot
