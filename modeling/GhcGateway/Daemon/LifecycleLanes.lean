/-
# The lanes of the life cycle coordinator

What every lane keeps from one step to the next: its calls take turns, its queue does not
grow beyond its bound, and the events of the turns are complete turns one after the other
with at most one unfinished turn at the end. A turn holds its lease until it has released
it or its last attempt to release it has failed.
-/

import GhcGateway.Daemon.LifecycleCoordinator

namespace GhcGateway.Daemon

open Library

variable {κ ρ : Type} {after : DirectoryLane × List (LaneEvent ρ)} {events : List (LaneEvent ρ)}
  {result : Except LifecycleError ρ} {release second first : Option LifecycleError}
  {answer : LeaseAnswer} {value : ρ}

/-! ## The log of a lane -/

namespace LaneEvent

def queued? : LaneEvent ρ → Option QueueNode
  | queued node => some node
  | _ => none

def withdrawn? : LaneEvent ρ → Option QueueNode
  | withdrawn node => some node
  | _ => none

def started? : LaneEvent ρ → Option QueueNode
  | started node => some node
  | _ => none

/-- The node whose turn ends. -/
def settled? : LaneEvent ρ → Option QueueNode
  | settled node _ => some node
  | _ => none

def call? : LaneEvent ρ → Option Nat
  | refused run _ => some run
  | queued node => some node.run
  | _ => none

def ofTurn : LaneEvent ρ → Bool
  | refused _ _ => false
  | queued _ => false
  | withdrawn _ => false
  | _ => true

/-- Whether the event belongs to a turn and is neither its start nor its end. -/
def inTurn : LaneEvent ρ → Bool
  | acquired _ => true
  | operating _ => true
  | operated _ => true
  | released _ => true
  | releaseFailed _ => true
  | _ => false

end LaneEvent

inductive CompleteTurn (node : QueueNode) : List (LaneEvent ρ) → Prop
  | notAcquired (error : LifecycleError) :
      CompleteTurn node [.started node, .settled node (.error error)]
  | released (error : LifecycleError) :
      CompleteTurn node [.started node, .acquired node, .released node,
        .settled node (.error error)]
  | releaseFailed (error : LifecycleError) :
      CompleteTurn node [.started node, .acquired node, .releaseFailed node,
        .settled node (.error error)]
  | resolved (value : ρ) :
      CompleteTurn node [.started node, .acquired node, .operating node, .operated node,
        .released node, .settled node (.ok value)]
  | rejected (error : LifecycleError) :
      CompleteTurn node [.started node, .acquired node, .operating node, .operated node,
        .released node, .settled node (.error error)]
  | rejectedFailed (error : LifecycleError) :
      CompleteTurn node [.started node, .acquired node, .operating node, .operated node,
        .releaseFailed node, .settled node (.error error)]
  | releasedLate (error : LifecycleError) :
      CompleteTurn node [.started node, .acquired node, .operating node, .operated node,
        .releaseFailed node, .released node, .settled node (.error error)]
  | failedTwice (error : LifecycleError) :
      CompleteTurn node [.started node, .acquired node, .operating node, .operated node,
        .releaseFailed node, .releaseFailed node, .settled node (.error error)]

namespace CompleteTurn

variable {node other : QueueNode} {turn before tail : List (LaneEvent ρ)}

/-- A turn acquires one lease. It releases it, or its last attempt to release it fails and
the call is rejected. -/
theorem leased (complete : CompleteTurn node turn)
    (split : turn = before ++ .acquired other :: tail) :
    (∀ third, .acquired third ∉ tail) ∧
      (.released other ∈ tail ∨
        .releaseFailed other ∈ tail ∧ ∃ error, .settled other (.error error) ∈ tail) := by
  cases complete <;> simp [List.cons_eq_append_iff] at split
  all_goals
    obtain ⟨-, same, rfl⟩ := split
    simp [same]

/-- A turn runs one operation, and the operation ends within it. -/
theorem operates (complete : CompleteTurn node turn)
    (split : turn = before ++ .operating other :: tail) :
    (∀ third, .operating third ∉ tail) ∧ .operated other ∈ tail := by
  cases complete <;> simp [List.cons_eq_append_iff] at split
  all_goals
    obtain ⟨-, same, rfl⟩ := split
    simp [same]

/-- A call is resolved right after its lease has been released. -/
theorem resolves (complete : CompleteTurn node turn) (member : .settled other (.ok value) ∈ turn) :
    turn = [.started other, .acquired other, .operating other, .operated other, .released other,
      .settled other (.ok value)] := by
  cases complete <;> simp at member
  obtain ⟨rfl, rfl⟩ := member
  rfl

end CompleteTurn

/-- The events so far of the turn in flight. -/
def currentTurn : Option (QueueNode × LifecycleStage) → List (LaneEvent ρ)
  | none => []
  | some (node, .acquiring) => [.started node]
  | some (node, .operating) => [.started node, .acquired node, .operating node]

def laneTurns (lane : DirectoryLane) (log : List (LaneEvent ρ)) : Turns QueueNode where
  running := (lane.inFlight.map Prod.fst).toList
  waiting := lane.queue
  arrived := log.filterMap LaneEvent.queued?
  withdrawn := log.filterMap LaneEvent.withdrawn?
  started := log.filterMap LaneEvent.started?
  finished := log.filterMap LaneEvent.settled?

theorem laneTurns_append (lane : DirectoryLane) (log events : List (LaneEvent ρ)) :
    laneTurns lane (log ++ events) =
      { running := (lane.inFlight.map Prod.fst).toList
        waiting := lane.queue
        arrived := log.filterMap LaneEvent.queued? ++ events.filterMap LaneEvent.queued?
        withdrawn := log.filterMap LaneEvent.withdrawn? ++ events.filterMap LaneEvent.withdrawn?
        started := log.filterMap LaneEvent.started? ++ events.filterMap LaneEvent.started?
        finished := log.filterMap LaneEvent.settled? ++ events.filterMap LaneEvent.settled? } := by
  simp only [laneTurns, List.filterMap_append]

structure LaneKept (aborted : List Nat) (calls : Nat) (lane : DirectoryLane)
    (log : List (LaneEvent ρ)) : Prop where
  orderly : (laneTurns lane log).Orderly
  once : (log.filterMap LaneEvent.withdrawn?).Nodup
  live : ∀ node ∈ lane.queue, node.isAborted aborted = false
  bounded : lane.queue.length ≤ maxPendingLifecycleOperationsPerDirectory
  known : ∀ node ∈ log.filterMap LaneEvent.queued?, node.run < calls
  turns : ∃ done : List (List (LaneEvent ρ)), (∀ turn ∈ done, ∃ node, CompleteTurn node turn) ∧
    log.filter LaneEvent.ofTurn = done.flatten ++ currentTurn lane.inFlight

/-! ## Events -/

namespace DirectoryLane

variable {aborted : List Nat} {queue : List QueueNode} {node : QueueNode}
  {before : List (LaneEvent ρ)}

/-- A loop over nodes that are not aborted takes the first of them. -/
theorem drain_of_live (live : ∀ node ∈ queue, node.isAborted aborted = false) :
    (drain aborted queue : DirectoryLane × List (LaneEvent ρ)) =
      (⟨queue.tail, queue.head?.map (·, .acquiring)⟩, (queue.take 1).map .started) := by
  cases queue with
  | nil => rfl
  | cons first queue =>
    rw [drain, live first List.mem_cons_self]
    rfl

end DirectoryLane

/-! ## Progress -/

namespace DirectoryLane

variable {aborted : List Nat} {lane : DirectoryLane} {queue : List QueueNode} {node : QueueNode}
  {before : List (LaneEvent ρ)}

/-- How many answers the calls of a lane wait for at most. -/
def pending (lane : DirectoryLane) : Nat :=
  2 * lane.queue.length +
    match lane.inFlight with
    | none => 0
    | some (_, .acquiring) => 2
    | some (_, .operating) => 1

theorem pending_drain (aborted : List Nat) (queue : List QueueNode) :
    (drain aborted queue : DirectoryLane × List (LaneEvent ρ)).1.pending ≤ 2 * queue.length := by
  induction queue with
  | nil => exact Nat.le_refl 0
  | cons node queue ih =>
    rw [List.length_cons, Nat.mul_succ, drain]
    split
    · exact Nat.le_add_right_of_le ih
    · exact Nat.le_refl _

theorem call?_drain (aborted : List Nat) (queue : List QueueNode) :
    (drain aborted queue : DirectoryLane × List (LaneEvent ρ)).2.filterMap LaneEvent.call? =
      [] := by
  induction queue with
  | nil => rfl
  | cons node queue ih =>
    rw [drain]
    split
    · exact ih
    · rfl

/-- What an answer does: a lane that waited for one waits for fewer, and no call is made. -/
structure Advances (lane : DirectoryLane) (after : DirectoryLane × List (LaneEvent ρ)) : Prop where
  fewer : after.1.pending < lane.pending
  noCall : after.2.filterMap LaneEvent.call? = []

theorem settle_advances (flies : lane.inFlight ≠ none)
    (noCall : before.filterMap LaneEvent.call? = []) (outcome : Except LifecycleError ρ) :
    Advances lane (settle aborted lane.queue node before outcome) where
  fewer := by
    apply Nat.lt_of_le_of_lt (pending_drain aborted lane.queue)
    rw [pending]
    split
    case h_1 idle => exact absurd idle flies
    case h_2 => exact Nat.lt_add_of_pos_right Nat.two_pos
    case h_3 => exact Nat.lt_succ_self _
  noCall := by
    rw [settle, List.filterMap_append, noCall]
    exact call?_drain aborted lane.queue

theorem reject_advances (flies : lane.inFlight ≠ none)
    (noCall : before.filterMap LaneEvent.call? = []) (error : LifecycleError)
    (release : Option LifecycleError) :
    Advances lane (reject aborted lane.queue node before error release :
      DirectoryLane × List (LaneEvent ρ)) := by
  cases release with
  | none =>
    apply settle_advances flies
    rw [List.filterMap_append, noCall]
    rfl
  | some releaseError =>
    apply settle_advances flies
    rw [List.filterMap_append, noCall]
    rfl

/-- Every answer to an acquisition is taken, and the lane goes on. -/
theorem leaseSettled_advances (flies : lane.inFlight = some (node, .acquiring))
    (answer : LeaseAnswer) (release : Option LifecycleError) :
    ∃ after : DirectoryLane × List (LaneEvent ρ),
      lane.leaseSettled aborted answer release = some after ∧ Advances lane after := by
  have busy : lane.inFlight ≠ none := by
    rw [flies]
    exact Option.some_ne_none _
  rw [leaseSettled, flies]
  cases answer with
  | failed error => exact ⟨_, rfl, settle_advances busy rfl _⟩
  | missing => exact ⟨_, rfl, settle_advances busy rfl _⟩
  | acquired =>
    dsimp only
    split
    · exact ⟨_, rfl, reject_advances busy rfl interrupted release⟩
    · refine ⟨_, rfl, ?_, rfl⟩
      rw [pending, pending, flies]
      exact Nat.lt_succ_self _

/-- Every end of an operation is taken, and the lane goes on. -/
theorem operationSettled_advances (flies : lane.inFlight = some (node, .operating))
    (result : Except LifecycleError ρ) (first second : Option LifecycleError) :
    ∃ after : DirectoryLane × List (LaneEvent ρ),
      lane.operationSettled aborted result first second = some after ∧ Advances lane after := by
  have busy : lane.inFlight ≠ none := by
    rw [flies]
    exact Option.some_ne_none _
  rw [operationSettled, flies]
  cases result with
  | error error => exact ⟨_, rfl, reject_advances busy rfl error first⟩
  | ok value =>
    dsimp only
    split
    · exact ⟨_, rfl, reject_advances busy rfl interrupted first⟩
    · cases first with
      | none => exact ⟨_, rfl, settle_advances busy rfl _⟩
      | some error => exact ⟨_, rfl, reject_advances busy rfl error second⟩

theorem flies_of_leaseSettled (settled : lane.leaseSettled aborted answer release = some after) :
    ∃ node, lane.inFlight = some (node, .acquiring) := by
  unfold leaseSettled at settled
  split at settled
  case h_1 node flies => exact ⟨node, flies⟩
  case h_2 => cases settled

theorem flies_of_operationSettled
    (settled : lane.operationSettled aborted result first second = some after) :
    ∃ node, lane.inFlight = some (node, .operating) := by
  unfold operationSettled at settled
  split at settled
  case h_1 node flies => exact ⟨node, flies⟩
  case h_2 => cases settled

end DirectoryLane

/-! ## Turns -/

theorem filter_ofTurn_of_inTurn (inTurn : ∀ event ∈ events, event.inTurn = true) :
    events.filter LaneEvent.ofTurn = events := by
  apply List.filter_eq_self.mpr
  intro event member
  cases event with
  | acquired _ => rfl
  | operating _ => rfl
  | operated _ => rfl
  | released _ => rfl
  | releaseFailed _ => rfl
  | _ => exact absurd (inTurn _ member) Bool.false_ne_true

/-- A view of the events that sees nothing of what happens within a turn. -/
theorem filterMap_of_inTurn {α : Type} {view : LaneEvent ρ → Option α}
    (blind : ∀ event, LaneEvent.inTurn event = true → view event = none)
    (inTurn : ∀ event ∈ events, event.inTurn = true) : events.filterMap view = [] :=
  List.filterMap_eq_nil_iff.mpr fun event member => blind event (inTurn event member)

namespace LaneEvent

variable {event : LaneEvent ρ}

theorem queued?_of_inTurn (event : LaneEvent ρ) (inTurn : event.inTurn = true) :
    event.queued? = none := by
  cases event <;> first | rfl | exact absurd inTurn Bool.false_ne_true

theorem withdrawn?_of_inTurn (event : LaneEvent ρ) (inTurn : event.inTurn = true) :
    event.withdrawn? = none := by
  cases event <;> first | rfl | exact absurd inTurn Bool.false_ne_true

theorem started?_of_inTurn (event : LaneEvent ρ) (inTurn : event.inTurn = true) :
    event.started? = none := by
  cases event <;> first | rfl | exact absurd inTurn Bool.false_ne_true

theorem settled?_of_inTurn (event : LaneEvent ρ) (inTurn : event.inTurn = true) :
    event.settled? = none := by
  cases event <;> first | rfl | exact absurd inTurn Bool.false_ne_true

end LaneEvent

namespace LaneKept

variable {aborted : List Nat} {calls : Nat} {lane : DirectoryLane} {log : List (LaneEvent ρ)}
  {node : QueueNode} {stage : LifecycleStage} {before : List (LaneEvent ρ)}

theorem idle : LaneKept aborted calls .idle ([] : List (LaneEvent ρ)) where
  orderly := Turns.orderly_empty
  once := List.nodup_nil
  live := fun _ absurd => nomatch absurd
  bounded := Nat.zero_le _
  known := fun _ absurd => nomatch absurd
  turns := ⟨[], fun _ absurd => (nomatch absurd), rfl⟩

/-- Nothing waits while nothing is in flight. -/
theorem queue_eq_nil (kept : LaneKept aborted calls lane log) (idle : lane.inFlight = none) :
    lane.queue = [] := by
  by_contra waits
  refine kept.orderly.busy waits ?_
  show (lane.inFlight.map Prod.fst).toList = []
  rw [idle]
  rfl

theorem called (kept : LaneKept aborted calls lane log) : LaneKept aborted (calls + 1) lane log :=
  { kept with known := fun node member => Nat.lt_succ_of_lt (kept.known node member) }

/-- A call is refused: the queues stay. -/
theorem refused (kept : LaneKept aborted calls lane log) (run : Nat) (error : LifecycleError) :
    LaneKept aborted calls lane (log ++ [.refused run error]) where
  orderly := by
    rw [laneTurns_append]
    simp only [List.filterMap_cons, LaneEvent.queued?, LaneEvent.withdrawn?, LaneEvent.started?,
      LaneEvent.settled?, List.filterMap_nil, List.append_nil]
    exact kept.orderly
  once := by
    rw [List.filterMap_append]
    exact (List.append_nil _).symm ▸ kept.once
  live := kept.live
  bounded := kept.bounded
  known := by
    rw [List.filterMap_append]
    exact (List.append_nil _).symm ▸ kept.known
  turns := by
    rw [List.filter_append]
    exact (List.append_nil _).symm ▸ kept.turns

theorem not_arrived (kept : LaneKept aborted node.run lane log) :
    node ∉ log.filterMap LaneEvent.queued? :=
  fun member => Nat.lt_irrefl _ (kept.known node member)

/-- A call is queued behind the one in flight. -/
theorem queued (kept : LaneKept aborted node.run lane log) (busy : lane.inFlight ≠ none)
    (isLive : node.isAborted aborted = false)
    (room : lane.queue.length < maxPendingLifecycleOperationsPerDirectory) :
    LaneKept aborted (node.run + 1) { lane with queue := lane.queue ++ [node] }
      (log ++ [.queued node]) := by
  have arrives := kept.orderly.arrive kept.not_arrived
  have runs : (laneTurns lane log).running ≠ [] := by
    intro idle
    cases flight : lane.inFlight with
    | none => exact busy flight
    | some other =>
      rw [laneTurns, flight] at idle
      cases idle
  rw [Turns.arrive, if_neg runs] at arrives
  exact {
    orderly := by
      rw [laneTurns_append]
      simp only [List.filterMap_cons, LaneEvent.queued?, LaneEvent.withdrawn?, LaneEvent.started?,
        LaneEvent.settled?, List.filterMap_nil, List.append_nil]
      exact arrives
    once := by
      rw [List.filterMap_append]
      exact (List.append_nil _).symm ▸ kept.once
    live := by
      intro other member
      cases List.mem_append.mp member with
      | inl before => exact kept.live other before
      | inr last => exact List.mem_singleton.mp last ▸ isLive
    bounded := by
      rw [List.length_append]
      exact room
    known := by
      intro other member
      rw [List.filterMap_append] at member
      cases List.mem_append.mp member with
      | inl before => exact Nat.lt_succ_of_lt (kept.known other before)
      | inr last =>
        rw [List.mem_singleton.mp last]
        exact Nat.lt_succ_self _
    turns := by
      rw [List.filter_append]
      exact (List.append_nil _).symm ▸ kept.turns }

/-- A call starts at once where nothing is in flight. -/
theorem started (kept : LaneKept aborted node.run lane log) (idle : lane.inFlight = none) :
    LaneKept aborted (node.run + 1) ⟨[], some (node, .acquiring)⟩
      (log ++ [.queued node, .started node]) := by
  have arrives := kept.orderly.arrive kept.not_arrived
  have noneRuns : (laneTurns lane log).running = [] := by
    rw [laneTurns, idle]
    rfl
  have noneWaits : (laneTurns lane log).waiting = [] := kept.queue_eq_nil idle
  rw [Turns.arrive, if_pos noneRuns, noneWaits] at arrives
  exact {
    orderly := by
      rw [laneTurns_append]
      simp only [List.filterMap_cons, LaneEvent.queued?, LaneEvent.withdrawn?, LaneEvent.started?,
        LaneEvent.settled?, List.filterMap_nil, List.append_nil]
      exact arrives
    once := by
      rw [List.filterMap_append]
      exact (List.append_nil _).symm ▸ kept.once
    live := by rintro _ ⟨⟩
    bounded := Nat.zero_le _
    known := by
      intro other member
      rw [List.filterMap_append] at member
      cases List.mem_append.mp member with
      | inl before => exact Nat.lt_succ_of_lt (kept.known other before)
      | inr last =>
        rw [List.mem_singleton.mp last]
        exact Nat.lt_succ_self _
    turns := by
      obtain ⟨done, complete, turns⟩ := kept.turns
      refine ⟨done, complete, ?_⟩
      rw [List.filter_append, turns, idle]
      exact congrArg (· ++ [.started node]) (List.append_nil done.flatten) }

section

variable (kept : LaneKept aborted calls lane log)

include kept

/-- A signal is aborted: its calls leave the queue. -/
theorem abort (signal : Nat) :
    LaneKept (signal :: aborted) calls (lane.abort signal) (log ++ lane.abortEvents signal) := by
  let goes (node : QueueNode) : Bool := node.signal = some signal
  have withdraws := kept.orderly.withdrawAll goes
  have onlyWithdrawn : (lane.abortEvents signal : List (LaneEvent ρ)).filterMap
      LaneEvent.withdrawn? = lane.queue.filter goes := by
    rw [DirectoryLane.abortEvents, List.filterMap_map]
    exact List.filterMap_some
  have blind {α : Type} {view : LaneEvent ρ → Option α}
      (sees : ∀ node, view (.withdrawn node) = none) :
      (lane.abortEvents signal).filterMap view = [] := by
    rw [DirectoryLane.abortEvents, List.filterMap_map]
    exact List.filterMap_eq_nil_iff.mpr fun node _ => sees node
  have stays : lane.queue.filter (fun node => !goes node) = (lane.abort signal).queue := by
    apply List.filter_congr
    intro node _
    exact (decide_not ..).symm
  exact {
    orderly := by
      rw [laneTurns_append, onlyWithdrawn, blind fun _ => rfl, blind fun _ => rfl,
        blind fun _ => rfl]
      simp only [List.append_nil]
      rw [← stays]
      exact withdraws
    once := by
      rw [List.filterMap_append, onlyWithdrawn]
      exact kept.orderly.nodup_withdrawAll kept.once goes
    live := by
      intro node member
      obtain ⟨waits, other⟩ := List.mem_filter.mp member
      have live := kept.live node waits
      cases shape : node.signal with
      | none => rw [QueueNode.isAborted, shape]; rfl
      | some given =>
        rw [QueueNode.isAborted, shape] at live ⊢
        have apart : given ≠ signal := fun same => by simp [shape, same] at other
        simpa [apart] using live
    bounded := (List.length_filter_le _ _).trans kept.bounded
    known := by
      rw [List.filterMap_append, blind fun _ => rfl, List.append_nil]
      exact kept.known
    turns := by
      have none : (lane.abortEvents signal : List (LaneEvent ρ)).filter LaneEvent.ofTurn = [] := by
        rw [DirectoryLane.abortEvents, List.filter_map]
        exact List.map_eq_nil_iff.mpr (List.filter_eq_nil_iff.mpr fun _ _ => Bool.false_ne_true)
      rw [List.filter_append, none, List.append_nil]
      exact kept.turns }

/-- What happens within a turn changes no queue. -/
theorem within (inTurn : ∀ event ∈ events, event.inTurn = true)
    {flight : Option (QueueNode × LifecycleStage)}
    (same : flight.map Prod.fst = lane.inFlight.map Prod.fst)
    (current : currentTurn lane.inFlight ++ events = currentTurn flight) :
    LaneKept aborted calls ⟨lane.queue, flight⟩ (log ++ events) := by
  have queued := filterMap_of_inTurn LaneEvent.queued?_of_inTurn inTurn
  have withdrawn := filterMap_of_inTurn LaneEvent.withdrawn?_of_inTurn inTurn
  have started := filterMap_of_inTurn LaneEvent.started?_of_inTurn inTurn
  have settled := filterMap_of_inTurn LaneEvent.settled?_of_inTurn inTurn
  obtain ⟨done, complete, turns⟩ := kept.turns
  exact { kept with
    orderly := by
      rw [laneTurns_append, queued, withdrawn, started, settled, same]
      simp only [List.append_nil]
      exact kept.orderly
    once := by
      rw [List.filterMap_append, withdrawn, List.append_nil]
      exact kept.once
    known := by
      rw [List.filterMap_append, queued, List.append_nil]
      exact kept.known
    turns := by
      refine ⟨done, complete, ?_⟩
      rw [List.filter_append, turns, filter_ofTurn_of_inTurn inTurn, List.append_assoc, current] }

/-- A turn ends, and the next begins. -/
theorem settle (flies : lane.inFlight = some (node, stage))
    (inTurn : ∀ event ∈ before, event.inTurn = true) {outcome : Except LifecycleError ρ}
    (complete : CompleteTurn node
      (currentTurn (some (node, stage)) ++ (before ++ [.settled node outcome]))) :
    LaneKept aborted calls (DirectoryLane.settle aborted lane.queue node before outcome).1
      (log ++ (DirectoryLane.settle aborted lane.queue node before outcome).2) := by
  have queued := filterMap_of_inTurn LaneEvent.queued?_of_inTurn inTurn
  have withdrawn := filterMap_of_inTurn LaneEvent.withdrawn?_of_inTurn inTurn
  have started := filterMap_of_inTurn LaneEvent.started?_of_inTurn inTurn
  have settled := filterMap_of_inTurn LaneEvent.settled?_of_inTurn inTurn
  have runs : (laneTurns lane log).running = [node] := by
    rw [laneTurns, flies]
    rfl
  have finished := kept.orderly.finish runs
  obtain ⟨done, completes, turns⟩ := kept.turns
  rw [flies] at turns
  rw [DirectoryLane.settle, DirectoryLane.drain_of_live kept.live]
  let events : List (LaneEvent ρ) :=
    before ++ .settled node outcome :: (lane.queue.take 1).map .started
  show LaneKept aborted calls _ (log ++ events)
  have noneQueued : events.filterMap LaneEvent.queued? = [] := by
    rw [List.filterMap_append, queued]
    cases lane.queue <;> rfl
  have noneWithdrawn : events.filterMap LaneEvent.withdrawn? = [] := by
    rw [List.filterMap_append, withdrawn]
    cases lane.queue <;> rfl
  have firstStarted : events.filterMap LaneEvent.started? = lane.queue.take 1 := by
    rw [List.filterMap_append, started]
    cases lane.queue <;> rfl
  have nodeSettled : events.filterMap LaneEvent.settled? = [node] := by
    rw [List.filterMap_append, settled]
    cases lane.queue <;> rfl
  exact {
    orderly := by
      rw [laneTurns_append, noneQueued, noneWithdrawn, firstStarted, nodeSettled, List.append_nil,
        List.append_nil]
      have running : ((lane.queue.head?.map fun first => (first, LifecycleStage.acquiring)).map
          Prod.fst).toList = lane.queue.take 1 := by
        cases lane.queue <;> rfl
      rw [running]
      exact finished
    once := by
      rw [List.filterMap_append, noneWithdrawn, List.append_nil]
      exact kept.once
    live := fun other member => kept.live other (List.mem_of_mem_tail member)
    bounded := by
      rw [List.length_tail]
      exact (Nat.sub_le _ 1).trans kept.bounded
    known := by
      rw [List.filterMap_append, noneQueued, List.append_nil]
      exact kept.known
    turns := by
      refine ⟨done ++ [currentTurn (some (node, stage)) ++ (before ++ [.settled node outcome])],
        ?_, ?_⟩
      · intro turn member
        cases List.mem_append.mp member with
        | inl earlier => exact completes turn earlier
        | inr last =>
          rw [List.mem_singleton.mp last]
          exact ⟨node, complete⟩
      · have next : (LaneEvent.settled node outcome :: (lane.queue.take 1).map .started).filter
            LaneEvent.ofTurn = .settled node outcome ::
              currentTurn (lane.queue.head?.map fun first => (first, .acquiring)) := by
          cases lane.queue <;> rfl
        rw [List.filter_append, List.filter_append, turns, filter_ofTurn_of_inTurn inTurn, next]
        simp only [List.flatten_append, List.flatten_cons, List.flatten_nil, List.append_nil,
          List.append_assoc, List.cons_append, List.nil_append] }

/-- A turn that holds its lease ends without a result. -/
theorem reject (flies : lane.inFlight = some (node, stage))
    (inTurn : ∀ event ∈ before, event.inTurn = true)
    (released : ∀ error : LifecycleError, CompleteTurn node (currentTurn (some (node, stage)) ++
      (before ++ [.released node] ++ [.settled node (.error error)])))
    (failed : ∀ error : LifecycleError, CompleteTurn node (currentTurn (some (node, stage)) ++
      (before ++ [.releaseFailed node] ++ [.settled node (.error error)]))) (error : LifecycleError)
    (release : Option LifecycleError) :
    LaneKept aborted calls (DirectoryLane.reject aborted lane.queue node before error release).1
      (log ++ (DirectoryLane.reject aborted lane.queue node before error release).2) := by
  have withLast {last : LaneEvent ρ} (isInTurn : last.inTurn = true) :
      ∀ event ∈ before ++ [last], event.inTurn = true := by
    intro event member
    cases List.mem_append.mp member with
    | inl earlier => exact inTurn event earlier
    | inr isLast => exact List.mem_singleton.mp isLast ▸ isInTurn
  cases release with
  | none => exact kept.settle flies (withLast rfl) (released _)
  | some releaseError => exact kept.settle flies (withLast rfl) (failed _)

theorem leaseSettled (settled : lane.leaseSettled aborted answer release = some after) :
    LaneKept aborted calls after.1 (log ++ after.2) := by
  unfold DirectoryLane.leaseSettled at settled
  split at settled
  case h_2 => cases settled
  case h_1 node flies =>
    have none : ∀ event ∈ ([] : List (LaneEvent ρ)), event.inTurn = true :=
      fun _ absurd => nomatch absurd
    have one : ∀ event ∈ [(LaneEvent.acquired node : LaneEvent ρ)], event.inTurn = true := by
      simp [LaneEvent.inTurn]
    split at settled
    · cases settled
      exact kept.settle flies none (.notAcquired _)
    · cases settled
      exact kept.settle flies none (.notAcquired _)
    · split at settled
      · cases settled
        exact kept.reject flies one .released .releaseFailed interrupted release
      · cases settled
        apply kept.within
        · simp [LaneEvent.inTurn]
        · rw [flies]
          rfl
        · rw [flies]
          rfl

/-- The operation settles. -/
theorem operationSettled
    (settled : lane.operationSettled aborted result first second = some after) :
    LaneKept aborted calls after.1 (log ++ after.2) := by
  unfold DirectoryLane.operationSettled at settled
  split at settled
  case h_2 => cases settled
  case h_1 node flies =>
    have one : ∀ event ∈ [(LaneEvent.operated node : LaneEvent ρ)], event.inTurn = true := by
      simp [LaneEvent.inTurn]
    split at settled
    case h_1 error =>
      cases settled
      exact kept.reject flies one .rejected .rejectedFailed error first
    case h_2 value =>
      split at settled
      · cases settled
        exact kept.reject flies one .rejected .rejectedFailed interrupted first
      · split at settled
        · cases settled
          exact kept.settle flies (by simp [LaneEvent.inTurn]) (.resolved value)
        · cases settled
          exact kept.reject flies (by simp [LaneEvent.inTurn]) .releasedLate .failedTwice _ second

end

/-! ### The log of a lane -/

variable {before middle after : List (LaneEvent ρ)} {other : QueueNode}

/-- What every complete turn has after its mark lies between two marks of a log. -/
theorem ends_of_split (kept : LaneKept aborted calls lane log) (mark : QueueNode → LaneEvent ρ)
    (ends : QueueNode → List (LaneEvent ρ) → Prop)
    (mono : ∀ {first events more}, ends first events → ends first (events ++ more))
    (closed : ∀ {node turn before other tail}, CompleteTurn node turn →
      turn = before ++ mark other :: tail → (∀ third, mark third ∉ tail) ∧ ends other tail)
    (single : ∀ {before other tail}, currentTurn lane.inFlight = before ++ mark other :: tail →
      ∀ third, mark third ∉ tail)
    (ofTurn : ∀ node, (mark node).ofTurn = true)
    (split : log = before ++ mark node :: (middle ++ mark other :: after)) :
    ends node (middle.filter LaneEvent.ofTurn) := by
  obtain ⟨done, complete, turns⟩ := kept.turns
  rw [split, List.filter_append, List.filter_cons_of_pos (ofTurn node), List.filter_append,
    List.filter_cons_of_pos (ofTurn other)] at turns
  refine Turns.ends_of_blocks mono (fun turn member => ?_) single turns.symm
  obtain ⟨node, complete⟩ := complete turn member
  exact closed complete

/-- Between two operations the first has ended. -/
theorem exclusive (kept : LaneKept aborted calls lane log)
    (split : log = before ++ .operating node :: (middle ++ .operating other :: after)) :
    .operated node ∈ middle := by
  have ended : .operated node ∈ middle.filter LaneEvent.ofTurn := by
    refine kept.ends_of_split .operating (fun node events => .operated node ∈ events)
      (fun member => List.mem_append_left _ member) CompleteTurn.operates ?_ (fun _ => rfl) split
    intro before other tail split third
    obtain ⟨queue, _ | ⟨node, _ | _⟩⟩ := lane <;>
      simp [currentTurn, List.cons_eq_append_iff] at split
    simp [split]
  exact (List.mem_filter.mp ended).1

/-- Between two acquisitions the first lease was released, or the last attempt to release
it failed and the call was rejected. -/
theorem leased (kept : LaneKept aborted calls lane log)
    (split : log = before ++ .acquired node :: (middle ++ .acquired other :: after)) :
    .released node ∈ middle ∨
      .releaseFailed node ∈ middle ∧ ∃ error, .settled node (.error error) ∈ middle := by
  have ended : .released node ∈ middle.filter LaneEvent.ofTurn ∨
      .releaseFailed node ∈ middle.filter LaneEvent.ofTurn ∧
        ∃ error, .settled node (.error error) ∈ middle.filter LaneEvent.ofTurn := by
    refine kept.ends_of_split .acquired (fun node events => .released node ∈ events ∨
      .releaseFailed node ∈ events ∧ ∃ error, .settled node (.error error) ∈ events)
      ?_ CompleteTurn.leased ?_ (fun _ => rfl) split
    · intro first events more ends
      simp only [List.mem_append]
      grind
    · intro before other tail split third
      obtain ⟨queue, _ | ⟨node, _ | _⟩⟩ := lane <;>
      simp [currentTurn, List.cons_eq_append_iff] at split
      simp [split]
  simp only [List.mem_filter] at ended
  grind

/-- A call is resolved right after its lease has been released. -/
theorem resolved (kept : LaneKept aborted calls lane log)
    (member : .settled node (.ok value) ∈ log) :
    ∃ before after, log.filter LaneEvent.ofTurn = before ++ [.started node, .acquired node,
      .operating node, .operated node, .released node, .settled node (.ok value)] ++ after := by
  obtain ⟨done, complete, turns⟩ := kept.turns
  have inTurns : .settled node (.ok value) ∈ done.flatten ++ currentTurn lane.inFlight := by
    rw [← turns]
    exact List.mem_filter.mpr ⟨member, rfl⟩
  cases List.mem_append.mp inTurns with
  | inl ended =>
    obtain ⟨turn, isDone, member⟩ := List.mem_flatten.mp ended
    obtain ⟨owner, isComplete⟩ := complete turn isDone
    obtain ⟨earlier, later, rfl⟩ := List.append_of_mem isDone
    rw [turns, ← isComplete.resolves member]
    refine ⟨earlier.flatten, later.flatten ++ currentTurn lane.inFlight, ?_⟩
    simp only [List.flatten_append, List.flatten_cons, List.append_assoc]
  | inr current =>
    obtain ⟨queue, _ | ⟨node, _ | _⟩⟩ := lane <;> simp [currentTurn] at current

end LaneKept

end GhcGateway.Daemon
