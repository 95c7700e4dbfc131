/-
# The entries that the inference pool accounts for

`inspect` and `close` know the entries that are registered or drain. An entry that
leaves `entries` without draining is one whose initialisation failed; it is out of use
for good if nobody else holds a slot of it, waits for one or has selected it. A call
that drops it while a waiter has been handed its slot leaves that waiter free to start
another initialisation, whose dispatcher the registry then never closes.
-/

import GhcGateway.Copilot.InferencePoolMoves

namespace GhcGateway.Copilot

open Library

variable {limits : InferencePoolLimits} {state next : InferencePool}

/-- The entry has a dispatcher that is not closed, an initialisation in progress, an
unreleased lease or a waiter. -/
def InferencePoolEntry.InUse (entry : InferencePoolEntry) : Prop :=
  entry.dispatcher ≠ none ∨ entry.closingDispatcher ≠ none ∨ entry.dispatcherPromise ≠ none ∨
    entry.closingDispatcherPromise ≠ none ∨ entry.leases ≠ [] ∨ entry.waiters ≠ []

instance (entry : InferencePoolEntry) : Decidable entry.InUse :=
  inferInstanceAs (Decidable (_ ∨ _))

theorem InferencePoolEntry.Quiet.not_inUse {entry : InferencePoolEntry} (quiet : entry.Quiet) :
    ¬ entry.InUse := by
  rintro (used | used | used | used | used | used)
  · exact used quiet.dispatcher
  · exact used quiet.closingDispatcher
  · exact used quiet.dispatcherPromise
  · exact used quiet.closingDispatcherPromise
  · exact used quiet.leases
  · exact used quiet.waiters

namespace InferencePool

variable {id : EntryId}

/-- The entry is among those that `inspect` and `close` go through. -/
def Accounted (state : InferencePool) (id : EntryId) : Prop :=
  id ∈ state.entries.values ++ state.draining

instance (state : InferencePool) (id : EntryId) : Decidable (state.Accounted id) :=
  inferInstanceAs (Decidable (_ ∈ _))

/-- An entry that is not accounted for is out of use for good: it has closed, or no
call will take a slot of it. -/
def OutOfUse (state : InferencePool) (id : EntryId) : Prop :=
  (state.pool id).Quiet ∧
    ((state.pool id).closed = true ∧ (state.pool id).Ended ∨
      (state.pool id).closed = false ∧ ¬ state.Selected id)

/-- Every entry is accounted for or out of use. -/
def Owned (state : InferencePool) : Prop :=
  ∀ id, ¬ state.Accounted id → state.OutOfUse id

theorem not_accounted :
    ¬ state.Accounted id ↔
      (∀ key, state.entries.get key ≠ some id) ∧ id ∉ state.draining := by
  unfold Accounted
  rw [List.mem_append, not_or, OrderedMap.mem_values, not_exists]

/-- The entry is as it was, and no call has newly selected it. -/
theorem OutOfUse.of_same (out : state.OutOfUse id) (pool : next.pool id = state.pool id)
    (selected : next.Selected id → state.Selected id) : next.OutOfUse id := by
  unfold OutOfUse
  rw [pool]
  refine ⟨out.1, out.2.imp_right fun isOpen => ⟨isOpen.1, fun chosen => isOpen.2 (selected chosen)⟩⟩

end InferencePool

open InferencePool

/-- What is not accounted for stays out of use, whatever part a move consists of. -/
theorem Owned.part {spare : Prop} (consistent : PoolConsistent limits state) (owned : state.Owned)
    (part : PoolPart limits True spare state next) : next.Owned := by
  intro other unaccounted
  obtain ⟨unregistered, notDraining⟩ := not_accounted.mp unaccounted
  cases part with
  | stage call stage selected held waits explained =>
    refine (owned other unaccounted).of_same rfl ?_
    rintro ⟨caller, chosen, notAborted⟩
    by_cases same : caller = call
    · subst same
      rw [stage_setStage_self] at chosen
      obtain ⟨key, found⟩ := selected other chosen
      exact absurd found (unregistered key)
    · rw [calls_setStage_of_ne state same] at chosen notAborted
      exact ⟨caller, chosen, notAborted⟩
  | entry id entry keeps =>
    have out := owned other (not_accounted.mpr ⟨unregistered, notDraining⟩)
    by_cases same : other = id
    · subst same
      unfold OutOfUse
      rw [pool_setEntry_self]
      rcases out with ⟨quiet, ⟨closed, ended⟩ | ⟨isOpen, notSelected⟩⟩
      · have stays := keeps.closed.trans closed
        exact ⟨keeps.sound.quiet stays (keeps.ended ended), .inl ⟨stays, keeps.ended ended⟩⟩
      · exact ⟨keeps.quiet unregistered quiet isOpen notSelected,
          .inr ⟨keeps.closed.trans isOpen, notSelected⟩⟩
    · exact out.of_same (pool_setEntry_of_ne state same entry) fun chosen => chosen
  | abort call =>
    refine (owned other unaccounted).of_same rfl ?_
    rintro ⟨caller, chosen, notAborted⟩
    dsimp only at chosen notAborted
    by_cases same : caller = call
    · subst same
      rw [Function.update_self] at notAborted
      cases notAborted
    · rw [Function.update_of_ne same] at chosen notAborted
      exact ⟨caller, chosen, notAborted⟩
  | call profile aborted =>
    refine (owned other unaccounted).of_same rfl ?_
    rintro ⟨caller, chosen, notAborted⟩
    dsimp only at chosen notAborted
    by_cases same : caller = state.nextCall
    · subst same
      rw [Function.update_self] at chosen
      cases chosen
    · rw [Function.update_of_ne same] at chosen notAborted
      exact ⟨caller, chosen, notAborted⟩
  | register profile absent room =>
    have apart : other ≠ state.nextEntry := by
      rintro rfl
      exact unregistered (profileKey profile) (OrderedMap.get_set_self ..)
    refine OutOfUse.of_same (owned other (not_accounted.mpr ⟨?_, notDraining⟩))
      (Function.update_of_ne apart ..) fun chosen => chosen
    intro key found
    refine unregistered key ?_
    dsimp only
    rw [OrderedMap.get_set_of_ne _]
    · exact found
    · rintro rfl
      rw [absent] at found
      cases found
  | drain id owner registered idle spared =>
    have known := consistent.registered _ id registered
    obtain ⟨-, -, waiters⟩ := (consistent.sound id).close idle known.1
    rw [beginDraining_of_no_waiters state waiters] at unaccounted unregistered notDraining ⊢
    have apart : other ≠ id := by
      rintro rfl
      exact notDraining (List.mem_append_right _ (List.mem_singleton_self other))
    refine OutOfUse.of_same (owned other (not_accounted.mpr ⟨?_, ?_⟩))
      (Function.update_of_ne apart ..) fun chosen => chosen
    · intro key found
      refine unregistered key ?_
      dsimp only
      rw [OrderedMap.get_erase, if_neg]
      · exact found
      · rintro rfl
        rw [registered] at found
        exact apart (Option.some.inj found).symm
    · exact fun drains => notDraining (List.mem_append_left _ drains)
  | drop key id registered failed unused =>
    by_cases same : other = id
    · subst same
      obtain ⟨isOpen, -⟩ := consistent.registered key other registered
      obtain ⟨idle, notSelected⟩ := unused trivial
      obtain ⟨leases, waiters, promise⟩ := (consistent.sound other).of_idle idle
      obtain ⟨closing, closingPromise, -⟩ := (consistent.sound other).inUse isOpen
      exact ⟨⟨(consistent.sound other).failed failed, closing, promise, closingPromise, leases,
        waiters⟩, .inr ⟨isOpen, notSelected⟩⟩
    · refine OutOfUse.of_same (owned other (not_accounted.mpr ⟨?_, notDraining⟩)) rfl
        fun chosen => chosen
      intro other found
      refine unregistered other ?_
      dsimp only
      rw [OrderedMap.get_erase, if_neg]
      · exact found
      · rintro rfl
        rw [registered] at found
        exact same (Option.some.inj found).symm
  | start id used none noDispatcher =>
    have out := owned other (not_accounted.mpr ⟨unregistered, notDraining⟩)
    have apart : other ≠ id := by
      rintro rfl
      exact used out.1.leases
    exact out.of_same (pool_setEntry_of_ne _ apart _) fun chosen => chosen
  | init init stage next =>
    exact (owned other unaccounted).of_same rfl fun chosen => chosen
  | undrain id closed ended =>
    by_cases same : other = id
    · subst same
      exact ⟨(consistent.sound other).quiet closed ended, .inl ⟨closed, ended⟩⟩
    · refine OutOfUse.of_same (owned other (not_accounted.mpr ⟨unregistered, ?_⟩)) rfl
        fun chosen => chosen
      exact fun drains => notDraining ((List.mem_erase_of_ne same).mpr drains)
  | force id closed forced =>
    exact (owned other unaccounted).of_same rfl fun chosen => chosen
  | tick ms => exact (owned other unaccounted).of_same rfl fun chosen => chosen

/-- Where every call that drops the entry of a failed initialisation is the last to use
it, every entry in use is accounted for, and the entries accounted for are within the
bound. -/
theorem accounted_of_run {schedule : List PoolStep} {state : InferencePool}
    (along : (inferencePool limits).Along DropsUnused .initial schedule)
    (ran : (inferencePool limits).run .initial schedule = some state)
    (isOpen : state.closed = false) :
    (∀ id, (state.pool id).InUse → state.Accounted id) ∧
      (state.entries.values ++ state.draining).length ≤ limits.maxEntries := by
  have holds : InferencePool.initial.Owned := fun id _ =>
    ⟨⟨rfl, rfl, rfl, rfl, rfl, rfl⟩, .inr ⟨rfl, fun ⟨_, selected, _⟩ => nomatch selected⟩⟩
  obtain ⟨consistent, owned⟩ := invariant_of_parts (fun met _ => met)
    (fun _ (impossible : False) => impossible.elim) (fun consistent owned =>
      Owned.part consistent owned)
    along ran isOpen holds
  constructor
  · intro id used
    by_contra unaccounted
    exact (owned id unaccounted).1.not_inUse used
  · have bounded := consistent.bounded
    rw [List.length_append, OrderedMap.values, List.length_map]
    exact bounded

def InferencePool.dropsNothing (state : InferencePool) : PoolStep → Bool
  | .resume call =>
    match (state.calls call).stage with
    | .failing id _ => !(state.pool id).failedInitialization
    | _ => true
  | _ => true

theorem InferencePool.dropsUnused_of_dropsNothing {label : PoolStep}
    (nothing : state.dropsNothing label = true) : state.DropsUnused label := by
  rintro call id error rfl failing failed
  unfold InferencePool.dropsNothing at nothing
  dsimp only at nothing
  rw [failing] at nothing
  dsimp only at nothing
  rw [failed] at nothing
  cases nothing

/-- A call whose dispatcher cannot be made drops its entry, which nobody else uses, and the
next call gets another entry. -/
theorem accounted_of_run_dropped :
    let limits : InferencePoolLimits :=
      { InferencePoolLimits.defaults with connectionsPerEntry := 1 }
    let profile : InferenceConnectionProfile := ⟨js "https://a", 10⟩
    let failing : List PoolStep := [.acquire profile false, .resume 0, .resume 0,
      .noteInit 0 (.error 7), .settleInit 0, .resume 0]
    let again : List PoolStep := [.acquire profile false, .resume 1, .resume 1,
      .noteInit 1 (.ok ()), .settleInit 1, .resume 1]
    ∃ state, (inferencePool limits).run .initial (failing ++ .resume 0 :: again) = some state ∧
      (state.pool 1).InUse ∧ (∀ id, (state.pool id).InUse → state.Accounted id) ∧
      (state.entries.values ++ state.draining).length ≤ limits.maxEntries := by
  intro limits profile failing again
  let dropping : InferencePool := ((inferencePool limits).run .initial failing).getD .initial
  have ranFailing : (inferencePool limits).run .initial failing = some dropping := rfl
  have unused : dropping.DropsUnused (.resume 0) := by
    rintro call id error isCall fails - -
    obtain rfl : 0 = call := PoolStep.resume.inj isCall
    have stage : (dropping.calls 0).stage = .failing 0 (.factory 7) := rfl
    obtain ⟨rfl, -⟩ := CallStage.failing.inj (stage.symm.trans fails)
    refine ⟨rfl, rfl, rfl, ?_⟩
    rintro ⟨other, selected, -⟩
    cases other with
    | zero => cases stage.symm.trans selected
    | succ other =>
      have unborn : (dropping.calls (other + 1)).stage = .unborn := rfl
      cases unborn.symm.trans selected
  have before : (inferencePool limits).Along (fun state label => state.dropsNothing label = true)
    .initial failing := by decide
  have after : ((inferencePool limits).step dropping (.resume 0)).all fun dropped =>
      (inferencePool limits).Along (fun state label => state.dropsNothing label = true)
        dropped again := by decide
  have along : (inferencePool limits).Along DropsUnused .initial
      (failing ++ .resume 0 :: again) := by
    refine Concurrent.along_append.mpr
      ⟨before.mono fun _ _ => InferencePool.dropsUnused_of_dropsNothing, fun middle ran => ?_⟩
    obtain rfl := Option.some.inj (ranFailing.symm.trans ran)
    refine ⟨unused, fun next stepped => ?_⟩
    rw [stepped, Option.all_some, decide_eq_true_eq] at after
    exact after.mono fun _ _ => InferencePool.dropsUnused_of_dropsNothing
  have final : ((inferencePool limits).run .initial (failing ++ .resume 0 :: again)).any
    (fun state => !state.closed && decide (state.pool 1).InUse) = true := by decide
  obtain ⟨state, ran, holds⟩ := (Option.any_eq_true ..).mp final
  rw [Bool.and_eq_true, Bool.not_eq_true', decide_eq_true_eq] at holds
  exact ⟨state, ran, holds.2, accounted_of_run along ran holds.1⟩

/-- A call whose initialisation fails hands its slot to a waiter and drops the entry;
the waiter starts another initialisation there. -/
theorem inUse_not_accounted :
    ¬ ∀ (limits : InferencePoolLimits) (schedule : List PoolStep) (state : InferencePool),
      (inferencePool limits).run .initial schedule = some state → state.closed = false →
        (∀ id, (state.pool id).InUse → state.Accounted id) ∧
          (state.entries.values ++ state.draining).length ≤ limits.maxEntries := by
  intro accounted
  let limits : InferencePoolLimits := { InferencePoolLimits.defaults with connectionsPerEntry := 1 }
  let profile : InferenceConnectionProfile := ⟨js "https://a", 10⟩
  let schedule : List PoolStep := [.acquire profile false, .resume 0, .resume 0,
    .acquire profile false, .resume 1, .noteInit 0 (.error 7), .settleInit 0, .resume 0, .resume 0,
    .resume 1, .noteInit 1 (.ok ()), .settleInit 1, .resume 1]
  have escaped : ((inferencePool limits).run .initial schedule).any (fun state =>
    !state.closed && decide ((state.pool 0).InUse ∧ ¬ state.Accounted 0)) = true := by decide
  obtain ⟨state, ran, holds⟩ := (Option.any_eq_true ..).mp escaped
  rw [Bool.and_eq_true, Bool.not_eq_true', decide_eq_true_eq] at holds
  exact holds.2.2 ((accounted limits schedule state ran holds.1).1 0 holds.2.1)

end GhcGateway.Copilot
