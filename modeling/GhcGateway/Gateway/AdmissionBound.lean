/-
# The admission bound

The number of requests admitted and not released is the controller's `active`. It
stays within `activeMax` as long as the slots that woken waiters will take are not
given away: `active` and the woken waiters together are within the bound after
every step that leaves them room. A step that does not leave them room breaks the
bound as soon as they resume.
-/

import GhcGateway.Gateway.Admission
import Mathlib.Data.List.Induction
import Mathlib.Data.List.Perm.Basic

namespace GhcGateway.Gateway

open Library Concurrent Admission

variable {limits : AdmissionLimits} {state next : Admission} {aborted : Bool}

/-- The grants are counted, and the woken waiters have slots to take. -/
structure AdmissionBounded (limits : AdmissionLimits) (state : Admission) : Prop where
  counted : state.controller.active = state.admitted.length
  room : state.controller.active + state.woken ≤ limits.activeMax

namespace Admission

variable {place : Nat}

@[simp]
theorem woken_rejectWaiter (state : Admission) (request : RequestId) (failure : GatewayFailure) :
    (state.rejectWaiter request failure).woken = state.woken := by
  unfold rejectWaiter woken
  split
  · rw [List.countP_append]
    rfl
  · rfl

@[simp]
theorem active_rejectWaiter (state : Admission) (request : RequestId) (failure : GatewayFailure) :
    (state.rejectWaiter request failure).controller.active = state.controller.active := by
  unfold rejectWaiter
  split <;> rfl

@[simp]
theorem admitted_rejectWaiter (state : Admission) (request : RequestId)
    (failure : GatewayFailure) :
    (state.rejectWaiter request failure).admitted = state.admitted := by
  unfold rejectWaiter
  split <;> rfl

theorem woken_close (state : Admission) : state.close.woken = state.woken := by
  have rejected : (state.controller.waiters.map fun waiter =>
      (waiter, WaiterSettlement.rejected (admissionFailure .aborted))).countP
        (fun entry => entry.2 = .resolved) = 0 := by
    rw [List.countP_eq_zero]
    intro entry member
    obtain ⟨waiter, -, rfl⟩ := List.mem_map.mp member
    simp
  show (state.settled ++ _).countP _ = _
  rw [List.countP_append, rejected]
  rfl

theorem woken_release_le (state : Admission) (request : RequestId) :
    (state.release request).woken ≤ state.woken + 1 := by
  show (state.settled ++ (state.controller.waiters.head?.toList.map _)).countP _ ≤ _
  rw [List.countP_append]
  cases state.controller.waiters with
  | nil => exact Nat.le_succ _
  | cons waiter waiters => exact Nat.le_refl _

/-- The continuations that are due but one. -/
theorem countP_eraseIdx {entry : RequestId × WaiterSettlement}
    (due : state.settled[place]? = some entry) :
    state.woken = (state.settled.eraseIdx place).countP (fun entry => entry.2 = .resolved) +
      if entry.2 = .resolved then 1 else 0 := by
  obtain ⟨inside, rfl⟩ := List.getElem?_eq_some_iff.mp due
  unfold woken
  rw [← (List.getElem_cons_eraseIdx_perm inside).countP_eq, List.countP_cons]
  simp only [decide_eq_true_eq]

/-- What a continuation does: it takes a slot for a woken waiter, and none for
another. -/
theorem resume_eq_some (resumed : state.resume place = some next) :
    (state.woken = next.woken + 1 ∧ next.controller.active = state.controller.active + 1 ∧
      ∃ request, next.admitted = state.admitted ++ [request]) ∨
    (state.woken = next.woken ∧ next.controller.active = state.controller.active ∧
      next.admitted = state.admitted) := by
  unfold resume at resumed
  split at resumed
  · cases resumed
  · next request due =>
    cases resumed
    exact .inl ⟨countP_eraseIdx due, rfl, request, rfl⟩
  · next request failure due =>
    cases resumed
    exact .inr ⟨countP_eraseIdx due, rfl, rfl⟩

/-- The continuation of a woken waiter can run. -/
theorem resume_of_woken {woken : Nat} (some : state.woken = woken + 1) :
    ∃ place next, state.resume place = .some next ∧ next.woken = woken ∧
      next.admitted.length = state.admitted.length + 1 := by
  obtain ⟨entry, member, resolved⟩ : ∃ entry ∈ state.settled, entry.2 = .resolved := by
    have positive : 0 < state.woken := by omega
    simpa using List.countP_pos_iff.mp positive
  obtain ⟨place, due⟩ := List.mem_iff_getElem?.mp member
  obtain ⟨request, settlement⟩ := entry
  cases resolved
  have count := countP_eraseIdx due
  rw [if_pos rfl, some, Nat.add_right_cancel_iff] at count
  have resumed : state.resume place = .some { state with
      controller := { state.controller with active := state.controller.active + 1 }
      settled := state.settled.eraseIdx place
      admitted := state.admitted ++ [request] } := by
    rw [resume, due]
  exact ⟨place, _, resumed, count.symm, List.length_append⟩

/-- All woken waiters can take their slots, one after the other. -/
theorem resume_all (limits : AdmissionLimits) (state : Admission) :
    ∃ (places : List Nat) (final : Admission),
      (admission limits).run state (places.map .resume) = some final ∧
        final.admitted.length = state.admitted.length + state.woken := by
  induction count : state.woken generalizing state with
  | zero => exact ⟨[], state, rfl, rfl⟩
  | succ woken ih =>
    obtain ⟨place, next, resumed, left, grown⟩ := resume_of_woken count
    obtain ⟨places, final, ran, total⟩ := ih next left
    refine ⟨place :: places, final, run_cons_eq_some.mpr ⟨next, resumed, ran⟩, ?_⟩
    rw [total, grown]
    omega

theorem acquire_granted
    (granted : (state.controller.acquire limits state.arrivals aborted).2 = .granted) :
    state.acquire limits aborted = { state with
      controller := { state.controller with active := state.controller.active + 1 }
      arrivals := state.arrivals + 1
      admitted := state.admitted ++ [state.arrivals] } := by
  unfold acquire
  unfold AdmissionController.acquire at granted ⊢
  split at granted
  · cases granted
  · split at granted
    · next notClosed free => simp [notClosed, free]
    · split at granted <;> cases granted

theorem acquire_not_granted
    (granted : (state.controller.acquire limits state.arrivals aborted).2 ≠ .granted) :
    (state.acquire limits aborted).controller.active = state.controller.active ∧
      (state.acquire limits aborted).settled = state.settled ∧
      (state.acquire limits aborted).admitted = state.admitted := by
  unfold acquire
  refine ⟨?_, rfl, if_neg granted⟩
  show ((state.controller.acquire limits state.arrivals aborted).1).active = _
  unfold AdmissionController.acquire at granted ⊢
  split
  · rfl
  · next notClosed =>
    split
    · next free => simp [notClosed, free] at granted
    · split <;> rfl

end Admission

/-- Every step that leaves the woken waiters room keeps the bound. -/
theorem AdmissionBounded.step {label : AdmissionStep} (leaves : LeavesWokenRoom limits state label)
    (bounded : AdmissionBounded limits state)
    (stepped : (admission limits).step state label = some next) : AdmissionBounded limits next := by
  obtain ⟨counted, room⟩ := bounded
  cases label with
  | acquire aborted =>
    cases stepped
    by_cases granted : (state.controller.acquire limits state.arrivals aborted).2 = .granted
    · rw [acquire_granted granted]
      constructor
      · show state.controller.active + 1 = (state.admitted ++ [state.arrivals]).length
        rw [List.length_append, counted]
        rfl
      · have left := leaves granted
        show state.controller.active + 1 + state.woken ≤ limits.activeMax
        omega
    · obtain ⟨active, settled, admitted⟩ := acquire_not_granted granted
      constructor
      · rw [active, admitted, counted]
      · unfold woken at room ⊢
        rw [active, settled]
        exact room
  | release request =>
    simp only [admission] at stepped
    split at stepped
    · next member =>
      cases stepped
      have one : 0 < state.admitted.length := List.length_pos_of_mem member
      have active : (state.release request).controller.active = state.controller.active - 1 := rfl
      constructor
      · show state.controller.active - 1 = (state.admitted.erase request).length
        rw [List.length_erase_of_mem member, counted]
      · have woken := state.woken_release_le request
        omega
    · cases stepped
  | abort request =>
    cases stepped
    exact ⟨by simpa using counted, by simpa using room⟩
  | timeout request =>
    cases stepped
    exact ⟨by simpa using counted, by simpa using room⟩
  | delayFailed request error =>
    cases stepped
    exact ⟨by simpa using counted, by simpa using room⟩
  | close =>
    cases stepped
    exact ⟨counted, by rw [woken_close]; exact room⟩
  | resume place =>
    obtain ⟨woken, active, request, admitted⟩ | ⟨woken, active, admitted⟩ :=
      resume_eq_some stepped
    · constructor
      · rw [active, admitted, List.length_append, counted]
        rfl
      · omega
    · constructor
      · rw [active, admitted, counted]
      · omega

theorem admissionBounded_initial : AdmissionBounded limits initial :=
  ⟨rfl, Nat.zero_le _⟩

/-- Resuming calls meets the condition. -/
theorem along_resume (state : Admission) (places : List Nat) :
    (admission limits).Along (LeavesWokenRoom limits) state (places.map .resume) := by
  induction places generalizing state with
  | nil => trivial
  | cons place places ih => exact ⟨trivial, fun next _ => ih next⟩

/-- A grant that takes the slot of a woken waiter: the bound is broken once all
woken waiters have resumed. -/
theorem exceeds_of_granted (bounded : AdmissionBounded limits state)
    (taken : ¬ LeavesWokenRoom limits state (.acquire aborted)) :
    ∃ (places : List Nat) (final : Admission),
      (admission limits).run (state.acquire limits aborted) (places.map .resume) = some final ∧
        limits.activeMax < final.admitted.length := by
  obtain ⟨granted, full⟩ := Classical.not_imp.mp taken
  obtain ⟨places, final, ran, total⟩ := (state.acquire limits aborted).resume_all limits
  refine ⟨places, final, ran, ?_⟩
  have counted := bounded.counted
  rw [total, acquire_granted granted]
  show limits.activeMax < (state.admitted ++ [state.arrivals]).length + state.woken
  rw [List.length_append, List.length_singleton]
  omega

/-- The bound holds in every state of a run, and still holds when any calls that are
due resume there, exactly when every arrival that finds a free slot leaves one for
each woken waiter. -/
theorem admitted_le_activeMax (limits : AdmissionLimits) (schedule : List AdmissionStep) :
    (admission limits).Along (LeavesWokenRoom limits) initial schedule ↔
      ∀ first second, schedule = first ++ second → ∀ (places : List Nat) (state : Admission),
        (admission limits).run initial (first ++ places.map .resume) = some state →
          state.admitted.length ≤ limits.activeMax := by
  constructor
  · intro along first second split places state resumed
    rw [split, along_append] at along
    have whole : (admission limits).Along (LeavesWokenRoom limits) initial
        (first ++ places.map .resume) :=
      along_append.mpr ⟨along.1, fun middle _ => along_resume middle places⟩
    have bounded := invariant_of_along AdmissionBounded.step whole resumed
      admissionBounded_initial
    have room := bounded.room
    have counted := bounded.counted
    omega
  · intro holds
    have start : ∀ first second, schedule = first ++ second →
        (admission limits).Along (LeavesWokenRoom limits) initial first := by
      intro first
      induction first using List.reverseRecOn with
      | nil => exact fun _ _ => trivial
      | append_singleton first label ih =>
        intro second split
        have along := ih (label :: second) (by rw [split, List.append_assoc]; rfl)
        refine along_append.mpr ⟨along, fun state reached => ⟨?_, fun _ _ => trivial⟩⟩
        have bounded := invariant_of_along AdmissionBounded.step along reached
          admissionBounded_initial
        by_contra taken
        cases label with
        | acquire aborted =>
          obtain ⟨places, broken, resumed, exceeds⟩ := exceeds_of_granted bounded taken
          have whole : (admission limits).run initial
              ((first ++ [.acquire aborted]) ++ places.map .resume) = some broken := by
            rw [List.append_assoc, run_append_of_run reached]
            exact run_cons_eq_some.mpr ⟨_, rfl, resumed⟩
          exact absurd (holds _ second split places broken whole) (Nat.not_le.mpr exceeds)
        | _ => exact taken trivial
    exact start schedule [] (List.append_nil _).symm

/-- A third request takes the slot that a release has freed for the second. -/
theorem admitted_exceeds_activeMax :
    ¬ ∀ (limits : AdmissionLimits) (schedule : List AdmissionStep) (state : Admission),
      (admission limits).run initial schedule = some state →
        state.admitted.length ≤ limits.activeMax := by
  intro bounded
  have both := bounded ⟨1, 1⟩
    [.acquire false, .acquire false, .release 0, .acquire false, .resume 0]
    ⟨⟨2, false, []⟩, 3, [], [2, 1]⟩ rfl
  exact absurd both (by decide)

end GhcGateway.Gateway
