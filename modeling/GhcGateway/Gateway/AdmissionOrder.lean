/-
# The order of admission

The queue of an admission controller loses no slot and no call. While anyone waits, the
requests admitted and the waiters woken fill `activeMax`; a woken waiter keeps the slot it
was handed, whether or not its signal is aborted before it resumes. Every call is settled
once, and waiters are woken in the order in which they came; they are admitted in that order
because the continuations of settled promises run in the order of settlement.

What has happened to the calls of a run is kept as a history beside the controller.
-/

import GhcGateway.Gateway.AdmissionBound
import GhcGateway.Library.History
import Mathlib.Data.List.Count
import Mathlib.Data.List.Nodup

namespace GhcGateway.Gateway

open Library

variable {next : Admission} {label : AdmissionStep} {place : Nat}

/-- What happened to calls of `acquire`, each in order: promises settled, waiters queued,
waiters that left the queue without a slot, waiters woken, and waiters that took their slot. -/
structure AdmissionHistory where
  settled : List (RequestId × WaiterSettlement)
  queued : List RequestId
  withdrawn : List RequestId
  woken : List RequestId
  admitted : List RequestId

namespace AdmissionHistory

def empty : AdmissionHistory := ⟨[], [], [], [], []⟩

variable (history : AdmissionHistory)

def settle (request : RequestId) (settlement : WaiterSettlement) : AdmissionHistory :=
  { history with settled := history.settled ++ [(request, settlement)] }

def withdraw (requests : List RequestId) : AdmissionHistory :=
  { history with withdrawn := history.withdrawn ++ requests }

end AdmissionHistory

/-- What a step adds to the history, from the state before it. -/
def recordAdmission (limits : AdmissionLimits) (state : Admission) (label : AdmissionStep)
    (history : AdmissionHistory) : AdmissionHistory :=
  match label with
  | .acquire aborted =>
    match (state.controller.acquire limits state.arrivals aborted).2 with
    | .failed failure => history.settle state.arrivals (.rejected failure)
    | .granted => history.settle state.arrivals .resolved
    | .suspended => { history with queued := history.queued ++ [state.arrivals] }
  | .release _ => { history with woken := history.woken ++ state.controller.waiters.head?.toList }
  | .abort request | .timeout request | .delayFailed request _ =>
    if request ∈ state.controller.waiters then history.withdraw [request] else history
  | .close => history.withdraw state.controller.waiters
  | .resume place =>
    match state.settled[place]? with
    | some (request, .resolved) =>
      { history.settle request .resolved with admitted := history.admitted ++ [request] }
    | some (request, .rejected failure) => history.settle request (.rejected failure)
    | none => history

/-- The admission controller beside the history of its calls. -/
def recordedAdmission (limits : AdmissionLimits) :
    Concurrent (Admission × AdmissionHistory) AdmissionStep :=
  (admission limits).recorded (recordAdmission limits)

/-- The waiters that were woken and have not resumed, in the order in which they were woken. -/
def Admission.due (state : Admission) : List RequestId :=
  (state.settled.filter fun entry => entry.2 = .resolved).map Prod.fst

/-- The state and its history agree: no slot is lost while anyone waits, the queue is within
its bound, every call is in one place, and waiters are woken in order of arrival. -/
structure AdmissionOrdered (limits : AdmissionLimits) (state : Admission)
    (history : AdmissionHistory) : Prop where
  counted : state.controller.active = state.admitted.length
  filled : state.controller.waiters ≠ [] →
    limits.activeMax ≤ state.controller.active + state.woken
  bounded : state.controller.waiters.length ≤ limits.queueMax
  once : ∀ request, (history.settled.map Prod.fst).count request +
    (state.controller.waiters.count request + (state.settled.map Prod.fst).count request) =
      if request < state.arrivals then 1 else 0
  ascending : history.queued.Pairwise (· < ·)
  known : ∀ request ∈ history.queued, request < state.arrivals
  withdrawn : ∀ request ∈ history.withdrawn, request ∈ history.queued
  inOrder : history.queued.filter (· ∉ history.withdrawn) =
    history.woken ++ state.controller.waiters

variable {limits : AdmissionLimits} {state : Admission} {history : AdmissionHistory}

/-! ## What a call of `acquire` does -/

/-- The three outcomes of `acquire` up to its suspension. -/
theorem acquire_cases (limits : AdmissionLimits) (state : Admission) (aborted : Bool)
    (history : AdmissionHistory) :
    (∃ failure, recordAdmission limits state (.acquire aborted) history =
        history.settle state.arrivals (.rejected failure) ∧
      state.acquire limits aborted = { state with arrivals := state.arrivals + 1 }) ∨
    (recordAdmission limits state (.acquire aborted) history =
        history.settle state.arrivals .resolved ∧
      state.acquire limits aborted = { state with
        controller := { state.controller with active := state.controller.active + 1 }
        arrivals := state.arrivals + 1
        admitted := state.admitted ++ [state.arrivals] }) ∨
    (recordAdmission limits state (.acquire aborted) history =
        { history with queued := history.queued ++ [state.arrivals] } ∧
      limits.activeMax ≤ state.controller.active ∧
      state.controller.waiters.length < limits.queueMax ∧
      state.acquire limits aborted = { state with
        controller :=
          { state.controller with waiters := state.controller.waiters ++ [state.arrivals] }
        arrivals := state.arrivals + 1 }) := by
  simp only [recordAdmission, Admission.acquire, AdmissionController.acquire]
  by_cases refused : (state.controller.closed || aborted) = true
  · exact .inl ⟨admissionFailure .aborted, by simp [refused], by simp [refused]⟩
  · by_cases free : state.controller.active < limits.activeMax
    · exact .inr (.inl ⟨by simp [refused, free], by simp [refused, free]⟩)
    · by_cases full : state.controller.waiters.length ≥ limits.queueMax
      · exact .inl ⟨admissionFailure .queueFull, by simp [refused, free, full],
          by simp [refused, free, full]⟩
      · exact .inr (.inr ⟨by simp [refused, free, full], by omega, by omega,
          by simp [refused, free, full]⟩)

namespace AdmissionOrdered

variable {request : RequestId}

section

variable (ordered : AdmissionOrdered limits state history)

include ordered

/-- A call that is new was not withdrawn. -/
theorem fresh : state.arrivals ∉ history.withdrawn := fun member =>
  Nat.lt_irrefl _ (ordered.known _ (ordered.withdrawn _ member))

/-- A waiter is in the queue once. -/
theorem nodup : state.controller.waiters.Nodup := by
  rw [List.nodup_iff_count_le_one]
  intro request
  have once := ordered.once request
  split at once
  · omega
  · omega

theorem not_settled_of_waiting (waits : request ∈ state.controller.waiters) :
    request ∉ state.settled.map Prod.fst := by
  intro settled
  have once := ordered.once request
  have first := List.count_pos_iff.mpr waits
  have second := List.count_pos_iff.mpr settled
  split at once
  · omega
  · omega

theorem queued_of_waiting (waits : request ∈ state.controller.waiters) :
    request ∈ history.queued := by
  have kept : request ∈ history.queued.filter (· ∉ history.withdrawn) := by
    rw [ordered.inOrder]
    exact List.mem_append_right _ waits
  exact List.mem_of_mem_filter kept

end

/-! ## One step -/

/-- A new call is one more in one place. -/
theorem called (state : Admission) (request : Nat) :
    (if request < state.arrivals + 1 then 1 else 0) =
      (if request < state.arrivals then 1 else 0) + [state.arrivals].count request := by
  rw [List.count_singleton]
  by_cases same : request = state.arrivals
  · simp [same]
  · have apart : (state.arrivals == request) = false := by simpa using Ne.symm same
    have earlier : request < state.arrivals + 1 ↔ request < state.arrivals := by omega
    simp [apart, earlier]

section

variable (ordered : AdmissionOrdered limits state history)

include ordered

theorem acquire (aborted : Bool) :
    AdmissionOrdered limits (state.acquire limits aborted)
      (recordAdmission limits state (.acquire aborted) history) := by
  obtain ⟨failure, recorded, next⟩ | ⟨recorded, next⟩ | ⟨recorded, full, room, next⟩ :=
    acquire_cases limits state aborted history
  · rw [recorded, next]
    exact { ordered with
      once := by
        intro request
        rw [called, ← ordered.once request]
        simp only [AdmissionHistory.settle, List.map_append, List.map_cons, List.map_nil,
          List.count_append]
        omega
      known := fun request member => Nat.lt_succ_of_lt (ordered.known request member) }
  · rw [recorded, next]
    exact { ordered with
      counted := by simp [ordered.counted]
      filled := fun waits => by
        have filled := ordered.filled waits
        show limits.activeMax ≤ state.controller.active + 1 + state.woken
        omega
      once := by
        intro request
        rw [called, ← ordered.once request]
        simp only [AdmissionHistory.settle, List.map_append, List.map_cons, List.map_nil,
          List.count_append]
        omega
      known := fun request member => Nat.lt_succ_of_lt (ordered.known request member) }
  · rw [recorded, next]
    exact { ordered with
      filled := fun _ => Nat.le_add_right_of_le full
      bounded := by simpa [Nat.succ_le_iff] using room
      once := by
        intro request
        rw [called, ← ordered.once request]
        simp only [List.count_append]
        omega
      ascending := by
        rw [List.pairwise_append]
        refine ⟨ordered.ascending, List.pairwise_singleton _ _, ?_⟩
        intro request before last isLast
        rw [List.mem_singleton.mp isLast]
        exact ordered.known request before
      known := by
        intro request member
        cases List.mem_append.mp member with
        | inl before => exact Nat.lt_succ_of_lt (ordered.known request before)
        | inr now => exact List.mem_singleton.mp now ▸ Nat.lt_succ_self _
      withdrawn := fun request member => List.mem_append_left _ (ordered.withdrawn request member)
      inOrder := by
        rw [List.filter_append, ordered.inOrder, List.append_assoc]
        simp [ordered.fresh] }

theorem release (admitted : request ∈ state.admitted) :
    AdmissionOrdered limits (state.release request)
      (recordAdmission limits state (.release request) history) where
  counted := by
    show state.controller.active - 1 = (state.admitted.erase request).length
    rw [List.length_erase_of_mem admitted, ordered.counted]
  filled := by
    intro waits
    have one : 0 < state.admitted.length := List.length_pos_of_mem admitted
    have counted := ordered.counted
    show limits.activeMax ≤ state.controller.active - 1 + _
    cases queue : state.controller.waiters with
    | nil =>
      simp [Admission.release, AdmissionController.release, queue] at waits
    | cons first others =>
      have filled := ordered.filled (by simp [queue])
      have woken : (state.release request).woken = state.woken + 1 := by
        simp [Admission.woken, Admission.release, AdmissionController.release, queue]
      omega
  bounded := by
    have bounded := ordered.bounded
    show state.controller.waiters.tail.length ≤ limits.queueMax
    rw [List.length_tail]
    omega
  once := by
    intro other
    rw [show (state.release request).arrivals = state.arrivals from rfl, ← ordered.once other]
    simp only [recordAdmission, Admission.release, AdmissionController.release, List.map_append,
      List.count_append]
    cases state.controller.waiters with
    | nil => simp
    | cons first others =>
      simp [List.count_cons]
      omega
  ascending := ordered.ascending
  known := ordered.known
  withdrawn := ordered.withdrawn
  inOrder := by
    show history.queued.filter (· ∉ history.withdrawn) = history.woken ++
      state.controller.waiters.head?.toList ++ state.controller.waiters.tail
    rw [ordered.inOrder]
    cases state.controller.waiters <;> simp

/-- A waiter leaves the queue with a failure. -/
theorem withdraw (waits : request ∈ state.controller.waiters) (failure : GatewayFailure) :
    AdmissionOrdered limits (state.rejectWaiter request failure) (history.withdraw [request]) := by
  have distinct : (history.woken ++ state.controller.waiters).Nodup := by
    rw [← ordered.inOrder]
    exact (ordered.ascending.imp Nat.ne_of_lt).filter _
  have notWoken : request ∉ history.woken := fun woken =>
    (List.nodup_append.mp distinct).2.2 request woken request waits rfl
  have left : state.rejectWaiter request failure = { state with
      controller := state.controller.removeWaiter request
      settled := state.settled ++ [(request, .rejected failure)] } := if_pos waits
  exact { ordered with
    counted := by simpa using ordered.counted
    filled := by
      intro _
      rw [Admission.woken_rejectWaiter, Admission.active_rejectWaiter]
      exact ordered.filled (List.ne_nil_of_mem waits)
    bounded := by
      rw [left]
      exact Nat.le_trans List.length_erase_le ordered.bounded
    once := by
      intro other
      rw [left, ← ordered.once other]
      simp only [AdmissionHistory.withdraw, AdmissionController.removeWaiter, List.map_append,
        List.map_cons, List.map_nil, List.count_append]
      have counted := (List.perm_cons_erase waits).count_eq other
      rw [← List.singleton_append, List.count_append] at counted
      omega
    known := by
      rw [left]
      exact ordered.known
    withdrawn := by
      intro other member
      cases List.mem_append.mp member with
      | inl before => exact ordered.withdrawn other before
      | inr now =>
        rw [List.mem_singleton.mp now]
        exact ordered.queued_of_waiting waits
    inOrder := by
      have split : history.queued.filter (· ∉ history.withdrawn ++ [request]) =
          (history.queued.filter (· ∉ history.withdrawn)).filter (· ≠ request) := by
        rw [List.filter_filter]
        apply List.filter_congr
        intro other _
        simp [and_comm]
      have wokenKept : history.woken.filter (· ≠ request) = history.woken :=
        List.filter_eq_self.mpr fun other member => by
          simpa using fun same : other = request => notWoken (same ▸ member)
      show history.queued.filter (· ∉ history.withdrawn ++ [request]) =
        history.woken ++ (state.rejectWaiter request failure).controller.waiters
      rw [split, ordered.inOrder, List.filter_append, wokenKept, left,
        AdmissionController.removeWaiter, ordered.nodup.erase_eq_filter]
      simp [bne, BEq.beq] }

theorem close :
    AdmissionOrdered limits state.close (recordAdmission limits state .close history) where
  counted := ordered.counted
  filled waits := absurd rfl waits
  bounded := Nat.zero_le _
  once := by
    intro other
    rw [show state.close.arrivals = state.arrivals from rfl, ← ordered.once other]
    simp [recordAdmission, AdmissionHistory.withdraw, Admission.close, AdmissionController.close,
      Function.comp_def]
    omega
  ascending := ordered.ascending
  known := ordered.known
  withdrawn := by
    intro other member
    cases List.mem_append.mp member with
    | inl before => exact ordered.withdrawn other before
    | inr now => exact ordered.queued_of_waiting now
  inOrder := by
    have distinct : (history.woken ++ state.controller.waiters).Nodup := by
      rw [← ordered.inOrder]
      exact (ordered.ascending.imp Nat.ne_of_lt).filter _
    have split : history.queued.filter (· ∉ history.withdrawn ++ state.controller.waiters) =
        (history.queued.filter (· ∉ history.withdrawn)).filter
          (· ∉ state.controller.waiters) := by
      rw [List.filter_filter]
      apply List.filter_congr
      intro other _
      simp [Bool.and_comm]
    have wokenKept : history.woken.filter (· ∉ state.controller.waiters) = history.woken :=
      List.filter_eq_self.mpr fun other member => by
        simpa using fun waits =>
          (List.nodup_append.mp distinct).2.2 other member other waits rfl
    show history.queued.filter (· ∉ history.withdrawn ++ state.controller.waiters) =
      history.woken ++ []
    rw [split, ordered.inOrder, List.filter_append, wokenKept]
    congr 1
    exact List.filter_eq_nil_iff.mpr fun other waits => by simpa using waits

theorem resume (resumed : state.resume place = some next) :
    AdmissionOrdered limits next (recordAdmission limits state (.resume place) history) := by
  have once (entry : RequestId × WaiterSettlement) (due : state.settled[place]? = some entry)
      (other : RequestId) : (state.settled.map Prod.fst).count other =
        ((state.settled.eraseIdx place).map Prod.fst).count other + [entry.1].count other := by
    obtain ⟨inside, rfl⟩ := List.getElem?_eq_some_iff.mp due
    rw [← ((List.getElem_cons_eraseIdx_perm inside).map Prod.fst).count_eq, List.map_cons,
      ← List.singleton_append, List.count_append]
    omega
  rw [Admission.resume] at resumed
  simp only [recordAdmission]
  split at resumed
  case h_1 => cases resumed
  case h_2 request due =>
    cases resumed
    have woken := Admission.countP_eraseIdx due
    rw [if_pos rfl] at woken
    simp only [due]
    exact { ordered with
      counted := by simp [ordered.counted]
      filled := fun waits => by
        have filled := ordered.filled waits
        rw [woken, ← Nat.add_assoc, Nat.add_right_comm] at filled
        exact filled
      once := by
        intro other
        rw [← ordered.once other, once _ due other]
        simp only [AdmissionHistory.settle, List.map_append, List.map_cons, List.map_nil,
          List.count_append]
        omega }
  case h_3 request failure due =>
    cases resumed
    have woken := Admission.countP_eraseIdx due
    rw [if_neg (by simp)] at woken
    simp only [due]
    exact { ordered with
      filled := fun waits => by
        have filled := ordered.filled waits
        rw [woken] at filled
        exact filled
      once := by
        intro other
        rw [← ordered.once other, once _ due other]
        simp only [AdmissionHistory.settle, List.map_append, List.map_cons, List.map_nil,
          List.count_append]
        omega }

/-- An abort or a timeout: a waiter leaves the queue, any other call is not touched. -/
theorem rejectWaiter (request : RequestId) (failure : GatewayFailure) :
    AdmissionOrdered limits (state.rejectWaiter request failure)
      (if request ∈ state.controller.waiters then history.withdraw [request] else history) := by
  split
  case isTrue waits => exact ordered.withdraw waits failure
  case isFalse absent =>
    rw [Admission.rejectWaiter, if_neg absent]
    exact ordered

theorem step (stepped : (admission limits).step state label = some next) :
    AdmissionOrdered limits next (recordAdmission limits state label history) := by
  cases label with
  | acquire aborted =>
    cases stepped
    exact ordered.acquire aborted
  | release request =>
    simp only [admission] at stepped
    split at stepped
    case isTrue admitted =>
      cases stepped
      exact ordered.release admitted
    case isFalse => cases stepped
  | abort request =>
    cases stepped
    exact ordered.rejectWaiter request _
  | timeout request =>
    cases stepped
    exact ordered.rejectWaiter request _
  | delayFailed request error =>
    cases stepped
    exact ordered.rejectWaiter request _
  | close =>
    cases stepped
    exact ordered.close
  | resume place => exact ordered.resume stepped

end

theorem initial : AdmissionOrdered limits .initial .empty where
  counted := rfl
  filled waits := absurd rfl waits
  bounded := Nat.zero_le _
  once _ := rfl
  ascending := .nil
  known _ member := nomatch member
  withdrawn _ member := nomatch member
  inOrder := rfl

end AdmissionOrdered

/-! ## The order of resumption -/

/-- Continuations of waiters that were woken run in the order in which their promises were
settled, as promise jobs do. -/
def ResumesInTurn (state : Admission) : AdmissionStep → Prop
  | .resume place => ∀ request, state.settled[place]? = some (request, .resolved) →
      ∀ entry ∈ state.settled.take place, entry.2 ≠ .resolved
  | _ => True

theorem due_rejectWaiter (state : Admission) (request : RequestId) (failure : GatewayFailure) :
    (state.rejectWaiter request failure).due = state.due := by
  unfold Admission.rejectWaiter Admission.due
  split
  · simp
  · rfl

/-- The waiters that were woken have taken their slots in that order, or are due. -/
def AdmitsInTurn (current : Admission × AdmissionHistory) : Prop :=
  current.2.woken = current.2.admitted ++ current.1.due

/-- Waiters are admitted in the order in which they are woken. -/
theorem woken_eq_step (inTurn : ResumesInTurn state label)
    (resumed : history.woken = history.admitted ++ state.due)
    (stepped : (admission limits).step state label = some next) :
    (recordAdmission limits state label history).woken =
      (recordAdmission limits state label history).admitted ++ next.due := by
  have rejected (request : RequestId) (failure : GatewayFailure) :
      (if request ∈ state.controller.waiters then history.withdraw [request] else history).woken =
        (if request ∈ state.controller.waiters then history.withdraw [request]
          else history).admitted ++ (state.rejectWaiter request failure).due := by
    rw [due_rejectWaiter]
    split <;> exact resumed
  cases label with
  | acquire aborted =>
    cases stepped
    obtain ⟨failure, recorded, next⟩ | ⟨recorded, next⟩ | ⟨recorded, -, -, next⟩ :=
      acquire_cases limits state aborted history
    · rw [recorded, next]
      exact resumed
    · rw [recorded, next]
      exact resumed
    · rw [recorded, next]
      exact resumed
  | release request =>
    simp only [admission] at stepped
    split at stepped
    case isFalse => cases stepped
    case isTrue =>
      cases stepped
      show history.woken ++ state.controller.waiters.head?.toList =
        history.admitted ++ (state.release request).due
      rw [resumed, List.append_assoc]
      cases waiting : state.controller.waiters with
      | nil => simp [Admission.due, Admission.release, AdmissionController.release, waiting]
      | cons first others =>
        simp [Admission.due, Admission.release, AdmissionController.release, waiting]
  | abort request =>
    cases stepped
    exact rejected request _
  | timeout request =>
    cases stepped
    exact rejected request _
  | delayFailed request error =>
    cases stepped
    exact rejected request _
  | close =>
    cases stepped
    show history.woken = history.admitted ++ state.close.due
    rw [resumed]
    simp [Admission.due, Admission.close]
  | resume place =>
    have stepped : state.resume place = some next := stepped
    rw [Admission.resume] at stepped
    simp only [recordAdmission]
    split at stepped
    case h_1 => cases stepped
    case h_2 request due =>
      cases stepped
      simp only [due]
      obtain ⟨inside, isEntry⟩ := List.getElem?_eq_some_iff.mp due
      have none : (state.settled.take place).filter (fun entry => entry.2 = .resolved) = [] := by
        rw [List.filter_eq_nil_iff]
        intro entry member
        simpa using inTurn request due entry member
      have first : state.due = request ::
          Admission.due { state with settled := state.settled.eraseIdx place } := by
        have split : state.settled = state.settled.take place ++
            (request, .resolved) :: state.settled.drop (place + 1) := by
          rw [← isEntry, List.getElem_cons_drop, List.take_append_drop]
        simp only [Admission.due]
        conv_lhs => rw [split]
        rw [List.eraseIdx_eq_take_drop_succ, List.filter_append, List.filter_append, none]
        simp
      show history.woken = history.admitted ++ [request] ++ _
      rw [resumed, first, List.append_assoc]
      rfl
    case h_3 request failure due =>
      cases stepped
      simp only [due]
      obtain ⟨inside, isEntry⟩ := List.getElem?_eq_some_iff.mp due
      have same : state.due = Admission.due { state with
          settled := state.settled.eraseIdx place } := by
        have split : state.settled = state.settled.take place ++
            (request, .rejected failure) :: state.settled.drop (place + 1) := by
          rw [← isEntry, List.getElem_cons_drop, List.take_append_drop]
        simp only [Admission.due]
        conv_lhs => rw [split]
        rw [List.eraseIdx_eq_take_drop_succ, List.filter_append, List.filter_append]
        simp
      show history.woken = history.admitted ++ _
      rw [resumed, same]

/-! ## Any schedule -/

/-- The continuation of a settled promise can run, and it settles its call as the promise was. -/
theorem resume_of_lt (history : AdmissionHistory) (inside : place < state.settled.length) :
    ∃ next, (admission limits).step state (.resume place) = some next ∧
      (recordAdmission limits state (.resume place) history).settled =
        history.settled ++ [state.settled[place]] := by
  have due : state.settled[place]? = some state.settled[place] := List.getElem?_eq_getElem inside
  generalize state.settled[place] = entry at due ⊢
  obtain ⟨request, settlement⟩ := entry
  show ∃ next, state.resume place = some next ∧ _
  rw [Admission.resume, recordAdmission, due]
  cases settlement with
  | resolved => exact ⟨_, rfl, rfl⟩
  | rejected failure => exact ⟨_, rfl, rfl⟩

/-- In every state of every run no slot is lost while a waiter is queued, the queue is within
its bound, and every call is in one place: settled, waiting, or with a settled promise whose
continuation is due. A waiter's timeout settles its promise, and what is due can run; an abort
or a timeout of a waiter that was woken does nothing. Waiters that do not leave the queue are
woken in the order in which they came, and admitted in that order if continuations run in the
order of settlement. -/
theorem admission_keeps_order (limits : AdmissionLimits) {schedule : List AdmissionStep}
    {state : Admission} (ran : (admission limits).run .initial schedule = some state) :
    ∃ history, (recordedAdmission limits).run (.initial, .empty) schedule = some (state, history) ∧
      (state.controller.waiters ≠ [] → limits.activeMax ≤ state.admitted.length + state.woken) ∧
      state.controller.waiters.length ≤ limits.queueMax ∧
      (∀ request, (history.settled.map Prod.fst).count request +
        (state.controller.waiters.count request + (state.settled.map Prod.fst).count request) =
          if request < state.arrivals then 1 else 0) ∧
      (∀ request ∈ state.controller.waiters, ∃ next,
        (admission limits).step state (.timeout request) = some next ∧
          (request, .rejected (admissionFailure .queueTimeout)) ∈ next.settled) ∧
      (∀ place (inside : place < state.settled.length), ∃ next,
        (admission limits).step state (.resume place) = some next ∧
          (recordAdmission limits state (.resume place) history).settled =
            history.settled ++ [state.settled[place]]) ∧
      (∀ request failure, (request, .resolved) ∈ state.settled →
        state.rejectWaiter request failure = state) ∧
      history.queued.Pairwise (· < ·) ∧
      history.queued.filter (· ∉ history.withdrawn) =
        history.woken ++ state.controller.waiters ∧
      ((recordedAdmission limits).Along (fun current => ResumesInTurn current.1)
          (.initial, .empty) schedule →
        history.woken = history.admitted ++ state.due) := by
  obtain ⟨history, recorded⟩ : ∃ history,
      (recordedAdmission limits).run (.initial, .empty) schedule = some (state, history) :=
    Concurrent.exists_recorded_run ran AdmissionHistory.empty
  have kept : ∀ {current next : Admission × AdmissionHistory} {label : AdmissionStep},
      AdmissionOrdered limits current.1 current.2 →
        (recordedAdmission limits).step current label = some next →
          AdmissionOrdered limits next.1 next.2 := by
    intro current next label ordered stepped
    obtain ⟨moved, same⟩ := Concurrent.recorded_step_eq_some.mp stepped
    exact same ▸ ordered.step moved
  have ordered : AdmissionOrdered limits state history :=
    Concurrent.invariant_of_run kept recorded AdmissionOrdered.initial
  have inTurn : ∀ {current next : Admission × AdmissionHistory} {label : AdmissionStep},
      ResumesInTurn current.1 label → AdmitsInTurn current →
        (recordedAdmission limits).step current label = some next → AdmitsInTurn next := by
    intro current next label inTurn resumed stepped
    obtain ⟨moved, same⟩ := Concurrent.recorded_step_eq_some.mp stepped
    rw [AdmitsInTurn, same]
    exact woken_eq_step inTurn resumed moved
  refine ⟨history, recorded, ?_, ordered.bounded, ordered.once, ?_, ?_, ?_, ordered.ascending,
    ordered.inOrder, ?_⟩
  · intro waits
    rw [← ordered.counted]
    exact ordered.filled waits
  · intro request waits
    refine ⟨_, rfl, ?_⟩
    rw [Admission.rejectWaiter, if_pos waits]
    exact List.mem_append_right _ List.mem_cons_self
  · exact fun place inside => resume_of_lt history inside
  · intro request failure woken
    refine if_neg fun waits => ordered.not_settled_of_waiting waits ?_
    exact List.mem_map_of_mem (f := Prod.fst) woken
  · intro along
    have start : AdmitsInTurn (.initial, .empty) := rfl
    have admits : AdmitsInTurn (state, history) :=
      Concurrent.invariant_of_along inTurn along recorded start
    exact admits

/-- A waiter is woken and its signal aborted before it resumes; a newcomer takes a slot in
between. The waiter resumes, and the next one is woken once both have released. -/
theorem admission_keeps_order_aborted : ∃ history,
    (recordedAdmission ⟨1, 2⟩).run (.initial, .empty)
        [.acquire false, .acquire false, .acquire false, .release 0, .abort 1, .acquire false,
          .resume 0, .release 3, .release 1] =
      some (⟨⟨0, false, []⟩, 4, [(2, .resolved)], []⟩, history) ∧
    history.queued.filter (· ∉ history.withdrawn) = history.woken ∧
    history.woken = history.admitted ++ [2] := by
  let schedule : List AdmissionStep := [.acquire false, .acquire false, .acquire false,
    .release 0, .abort 1, .acquire false, .resume 0, .release 3, .release 1]
  have ran : (admission ⟨1, 2⟩).run .initial schedule =
      some ⟨⟨0, false, []⟩, 4, [(2, .resolved)], []⟩ := rfl
  obtain ⟨history, recorded, -, -, -, -, -, -, -, inOrder, admits⟩ :=
    admission_keeps_order ⟨1, 2⟩ ran
  rw [List.append_nil] at inOrder
  refine ⟨history, recorded, inOrder, admits ?_⟩
  simp [schedule, Concurrent.Along, ResumesInTurn]

end GhcGateway.Gateway
