/-
# Shared computations

Several callers may wait for one computation, here a flight. A flight counts its
waiters, and the waiter that leaves it alone before it has settled aborts it. A
caller leaves with the result of its flight, or because it has been aborted itself.

What may be shared is left to the program that uses the room: it joins a caller to a
flight for the same key, or hands it the result of an earlier one. Flights and callers
are numbered in the order in which they come. `started` and `made` are not computed
with: they say how often the key had been invalidated when a flight was started and
when a call was made.
-/

import Mathlib.Data.List.Basic

namespace Library.SingleFlight

universe u v w x

/-- A computation that callers may share. Its result is a value or a failure;
`abortedFirst` is whether it had been aborted before it had one. -/
structure Flight (κ : Type u) (τ : Type v) (α : Type w) where
  key : κ
  tag : τ
  started : Nat
  waiters : Nat
  settled : Bool
  aborted : Bool
  abortedFirst : Bool
  result : Option (Option α)

inductive Progress (α : Type w)
  | waiting (flight : Nat)
  | hit (flight : Nat) (value : α)
  | fulfilled (flight : Nat) (value : α)
  | rejected (flight : Nat)
  | aborted

/-- A caller. One that was aborted before it called never gets a result. -/
structure Call (κ : Type u) (σ : Type x) (α : Type w) where
  key : κ
  tag : σ
  made : Nat
  abortedAtStart : Bool
  aborted : Bool
  progress : Progress α

structure Room (κ : Type u) (τ : Type v) (σ : Type x) (α : Type w) where
  flights : List (Flight κ τ α)
  calls : List (Call κ σ α)

variable {κ : Type u} {τ : Type v} {σ : Type x} {α : Type w}
  {after before : Room κ τ σ α} {call : Call κ σ α}

def Flight.new (key : κ) (tag : τ) (started : Nat) : Flight κ τ α :=
  ⟨key, tag, started, 0, false, false, false, none⟩

/-- The last waiter has left before the flight settled. -/
def Flight.Orphaned (flight : Flight κ τ α) : Prop :=
  flight.waiters = 0 ∧ flight.settled = false

instance (flight : Flight κ τ α) : Decidable flight.Orphaned :=
  inferInstanceAs (Decidable (flight.waiters = 0 ∧ flight.settled = false))

def Flight.release (flight : Flight κ τ α) : Flight κ τ α :=
  { flight with waiters := flight.waiters - 1 }

/-- A flight that is aborted if nobody waits for it. -/
def Flight.abortOrphaned (flight : Flight κ τ α) : Flight κ τ α :=
  if flight.Orphaned then { flight with aborted := true } else flight

def Flight.await (flight : Flight κ τ α) : Flight κ τ α :=
  { flight with waiters := flight.waiters + 1 }

def Call.wait (call : Call κ σ α) (id : Nat) : Call κ σ α := { call with progress := .waiting id }

/-- What a waiter leaves with: an abortion of its own, or the result of its flight. -/
def Call.leaves (call : Call κ σ α) (id : Nat) (flight : Flight κ τ α) (byAbort : Bool) :
    Option (Progress α) :=
  if byAbort then if call.aborted then some .aborted else none
  else if call.abortedAtStart then none
  else
    match flight.result with
    | none => none
    | some none => some (.rejected id)
    | some (some value) => some (.fulfilled id value)

namespace Room

def empty : Room κ τ σ α := ⟨[], []⟩

/-- A flight is started. Its number is the number of flights before it. -/
def start (room : Room κ τ σ α) (flight : Flight κ τ α) : Room κ τ σ α :=
  { room with flights := room.flights ++ [flight] }

def answer (room : Room κ τ σ α) (call : Call κ σ α) : Room κ τ σ α :=
  { room with calls := room.calls ++ [call] }

def change (room : Room κ τ σ α) (id : Nat) (flight : Flight κ τ α) : Room κ τ σ α :=
  { room with flights := room.flights.set id flight }

/-- A caller waits for a flight. -/
def join (room : Room κ τ σ α) (id : Nat) (call : Call κ σ α) : Room κ τ σ α :=
  match room.flights[id]? with
  | none => room
  | some flight =>
    (room.change id flight.await).answer (call.wait id)

def abortCall (room : Room κ τ σ α) (caller : Nat) : Room κ τ σ α :=
  match room.calls[caller]? with
  | none => room
  | some call => { room with calls := room.calls.set caller { call with aborted := true } }

def settle (room : Room κ τ σ α) (id : Nat) (result : Option α) : Option (Room κ τ σ α) :=
  match room.flights[id]? with
  | none => none
  | some flight =>
    if flight.result.isSome then none
    else some (room.change id
      { flight with result := some result, abortedFirst := flight.aborted })

/-- A flight that has a result is marked as settled. -/
def finish (room : Room κ τ σ α) (id : Nat) : Option (Room κ τ σ α) :=
  match room.flights[id]? with
  | none => none
  | some flight =>
    if flight.result.isSome ∧ flight.settled = false then
      some (room.change id { flight with settled := true })
    else none

def orphan (room : Room κ τ σ α) (caller : Nat) : Option (Nat × Flight κ τ α) :=
  match room.calls[caller]? with
  | none => none
  | some call =>
    match call.progress with
    | .waiting id =>
      match room.flights[id]? with
      | none => none
      | some flight => if flight.release.Orphaned then some (id, flight) else none
    | _ => none

def leave (room : Room κ τ σ α) (caller : Nat) (byAbort : Bool) : Option (Room κ τ σ α) :=
  match room.calls[caller]? with
  | none => none
  | some call =>
    match call.progress with
    | .waiting id =>
      match room.flights[id]? with
      | none => none
      | some flight =>
        (call.leaves id flight byAbort).map fun progress =>
          { flights := room.flights.set id flight.release.abortOrphaned
            calls := room.calls.set caller { call with progress := progress } }
    | _ => none

end Room

/-! ## Soundness -/

def Call.waitsFor (id : Nat) (call : Call κ σ α) : Bool :=
  match call.progress with
  | .waiting other => other = id
  | _ => false

theorem Call.waitsFor_wait (call : Call κ σ α) (id other : Nat) :
    (call.wait id).waitsFor other = decide (id = other) := rfl

/-- What holds of every flight: an aborted one has no waiters, and one that has settled
has a result. -/
structure Flight.Sound (flight : Flight κ τ α) : Prop where
  quiet : flight.aborted = true → flight.waiters = 0
  first : flight.abortedFirst = true → flight.aborted = true
  unsettled : flight.result = none → flight.settled = false

/-- What a caller has got is the result of a flight for its key that had been started
when the key had last been invalidated as often as when the call was made. -/
def Room.Serves (room : Room κ τ σ α) (call : Call κ σ α) : Prop :=
  match call.progress with
  | .waiting id => ∃ flight, room.flights[id]? = some flight ∧
      flight.key = call.key ∧ flight.started = call.made
  | .hit id value | .fulfilled id value => ∃ flight, room.flights[id]? = some flight ∧
      flight.key = call.key ∧ flight.started = call.made ∧ flight.result = some (some value)
  | .rejected id => ∃ flight, room.flights[id]? = some flight ∧
      flight.key = call.key ∧ flight.started = call.made ∧ flight.result = some none ∧
      flight.abortedFirst = false
  | .aborted => call.aborted = true

structure Room.Sound (room : Room κ τ σ α) : Prop where
  counted : ∀ (id : Nat) (flight : Flight κ τ α), room.flights[id]? = some flight →
    flight.waiters = room.calls.countP (Call.waitsFor id)
  flights : ∀ (id : Nat) (flight : Flight κ τ α), room.flights[id]? = some flight → flight.Sound
  attended : ∀ (id : Nat) (flight : Flight κ τ α), room.flights[id]? = some flight →
    flight.Orphaned → flight.aborted = true
  serves : ∀ call ∈ room.calls, room.Serves call

theorem Room.sound_empty : (Room.empty : Room κ τ σ α).Sound where
  counted := fun _ _ found => nomatch found
  flights := fun _ _ found => nomatch found
  attended := fun _ _ found => nomatch found
  serves := fun _ member => nomatch member

/-- The numbers a caller can wait for are those of flights. -/
theorem Room.Sound.countP_of_length_le {room : Room κ τ σ α} (sound : room.Sound) {id : Nat}
    (beyond : room.flights.length ≤ id) : room.calls.countP (Call.waitsFor id) = 0 := by
  rw [List.countP_eq_zero]
  intro call member waits
  have serves := sound.serves call member
  unfold Call.waitsFor at waits
  unfold Room.Serves at serves
  split at waits
  case h_1 other isWaiting =>
    rw [isWaiting] at serves
    obtain ⟨flight, found, _⟩ := serves
    rw [of_decide_eq_true waits, List.getElem?_eq_none beyond] at found
    cases found
  case h_2 => cases waits

/-! ## What a flight keeps -/

/-- A flight keeps what it was started with and its result. -/
structure Flight.Evolves (before after : Flight κ τ α) : Prop where
  key : after.key = before.key
  tag : after.tag = before.tag
  started : after.started = before.started
  settled : after.settled = false → before.settled = false
  result : ∀ result, before.result = some result →
    after.result = some result ∧ after.abortedFirst = before.abortedFirst

theorem Flight.Evolves.refl (flight : Flight κ τ α) : flight.Evolves flight :=
  ⟨rfl, rfl, rfl, fun unsettled => unsettled, fun _ has => ⟨has, rfl⟩⟩

theorem Flight.Evolves.trans {first second third : Flight κ τ α} (early : first.Evolves second)
    (late : second.Evolves third) : first.Evolves third where
  key := late.key.trans early.key
  tag := late.tag.trans early.tag
  started := late.started.trans early.started
  settled := fun unsettled => early.settled (late.settled unsettled)
  result := by
    intro result has
    obtain ⟨secondHas, secondFirst⟩ := early.result result has
    obtain ⟨thirdHas, thirdFirst⟩ := late.result result secondHas
    exact ⟨thirdHas, thirdFirst.trans secondFirst⟩

/-- A flight goes on as it was, but for its waiters and its abortion. -/
structure Flight.Continues (before after : Flight κ τ α) : Prop extends before.Evolves after where
  sameResult : after.result = before.result
  sameSettled : after.settled = before.settled

theorem Flight.Continues.refl (flight : Flight κ τ α) : flight.Continues flight :=
  ⟨.refl flight, rfl, rfl⟩

/-- Flights are kept under their numbers. -/
def Room.Extends (before after : Room κ τ σ α) : Prop :=
  ∀ (id : Nat) (flight : Flight κ τ α), before.flights[id]? = some flight →
    ∃ next, after.flights[id]? = some next ∧ flight.Evolves next

/-- What a caller has got, it has still got. -/
theorem Room.Serves.mono (extends_ : before.Extends after) (serves : before.Serves call) :
    after.Serves call := by
  unfold Room.Serves at serves ⊢
  split at serves
  case h_1 id _ =>
    obtain ⟨flight, found, key, started⟩ := serves
    obtain ⟨next, nextFound, evolves⟩ := extends_ id flight found
    exact ⟨next, nextFound, evolves.key.trans key, evolves.started.trans started⟩
  case h_2 id value _ =>
    obtain ⟨flight, found, key, started, result⟩ := serves
    obtain ⟨next, nextFound, evolves⟩ := extends_ id flight found
    exact ⟨next, nextFound, evolves.key.trans key, evolves.started.trans started,
      (evolves.result _ result).1⟩
  case h_3 id value _ =>
    obtain ⟨flight, found, key, started, result⟩ := serves
    obtain ⟨next, nextFound, evolves⟩ := extends_ id flight found
    exact ⟨next, nextFound, evolves.key.trans key, evolves.started.trans started,
      (evolves.result _ result).1⟩
  case h_4 id _ =>
    obtain ⟨flight, found, key, started, result, unaborted⟩ := serves
    obtain ⟨next, nextFound, evolves⟩ := extends_ id flight found
    obtain ⟨nextResult, sameFirst⟩ := evolves.result _ result
    exact ⟨next, nextFound, evolves.key.trans key, evolves.started.trans started, nextResult,
      sameFirst.trans unaborted⟩
  case h_5 => exact serves

section Changes

variable {room : Room κ τ σ α} {id : Nat} {flight next : Flight κ τ α}
  {one : Flight κ τ α} {byAbort : Bool} {caller number started index : Nat}
  {progress : Progress α} {result : Option α} {β : Type u} {key : κ} {tag : τ}

theorem Room.lt_of_found (found : room.flights[id]? = some flight) : id < room.flights.length := by
  by_contra beyond
  rw [List.getElem?_eq_none (Nat.le_of_not_lt beyond)] at found
  cases found

/-- A flight after one of them has been changed. -/
theorem Room.flights_set (found : room.flights[id]? = some flight) {other : Nat}
    (isOne : (room.flights.set id next)[other]? = some one) :
    other = id ∧ one = next ∨ other ≠ id ∧ room.flights[other]? = some one := by
  by_cases same : other = id
  · subst same
    rw [List.getElem?_set_self (Room.lt_of_found found)] at isOne
    exact .inl ⟨rfl, (Option.some.inj isOne).symm⟩
  · rw [List.getElem?_set_ne (Ne.symm same)] at isOne
    exact .inr ⟨same, isOne⟩

theorem Room.extends_set (found : room.flights[id]? = some flight) (evolves : flight.Evolves next)
    (calls : List (Call κ σ α)) : room.Extends ⟨room.flights.set id next, calls⟩ := by
  intro other one isOne
  by_cases same : other = id
  · subst same
    rw [found] at isOne
    cases isOne
    exact ⟨next, List.getElem?_set_self (Room.lt_of_found found), evolves⟩
  · refine ⟨one, ?_, .refl one⟩
    rw [List.getElem?_set_ne (Ne.symm same)]
    exact isOne

/-- A flight is changed, and nobody comes or leaves. -/
theorem Room.Sound.change (sound : room.Sound) (found : room.flights[id]? = some flight)
    (evolves : flight.Evolves next) (isSound : next.Sound)
    (sameWaiters : next.waiters = flight.waiters)
    (attended : next.Orphaned → next.aborted = true) : (room.change id next).Sound where
  counted := by
    intro other one isOne
    rcases Room.flights_set found isOne with ⟨rfl, rfl⟩ | ⟨_, isOne⟩
    · rw [sameWaiters]
      exact sound.counted other flight found
    · exact sound.counted other one isOne
  flights := by
    intro other one isOne
    rcases Room.flights_set found isOne with ⟨rfl, rfl⟩ | ⟨_, isOne⟩
    · exact isSound
    · exact sound.flights other one isOne
  attended := by
    intro other one isOne
    rcases Room.flights_set found isOne with ⟨rfl, rfl⟩ | ⟨_, isOne⟩
    · exact attended
    · exact sound.attended other one isOne
  serves := fun call member =>
    (sound.serves call member).mono (Room.extends_set found evolves room.calls)

theorem Room.Sound.settle (sound : room.Sound) (settles : room.settle id result = some after) :
    after.Sound := by
  unfold Room.settle at settles
  split at settles
  case h_1 => cases settles
  case h_2 flight found =>
    split at settles
    case isTrue => cases settles
    case isFalse running =>
      cases settles
      have isSound := sound.flights id flight found
      apply sound.change found
      · refine ⟨rfl, rfl, rfl, fun unsettled => unsettled, ?_⟩
        intro old has
        rw [has] at running
        exact absurd rfl running
      · exact ⟨isSound.quiet, fun aborted => aborted, fun none => nomatch none⟩
      · rfl
      · exact fun orphaned => sound.attended id flight found orphaned

theorem Room.Sound.finish (sound : room.Sound) (finishes : room.finish id = some after) :
    after.Sound := by
  unfold Room.finish at finishes
  split at finishes
  case h_1 => cases finishes
  case h_2 flight found =>
    split at finishes
    case isTrue has =>
      cases finishes
      have isSound := sound.flights id flight found
      apply sound.change found
      · exact ⟨rfl, rfl, rfl, (fun unsettled => nomatch unsettled), fun _ has => ⟨has, rfl⟩⟩
      · refine ⟨isSound.quiet, isSound.first, ?_⟩
        intro none
        have none : flight.result = Option.none := none
        rw [none] at has
        cases has.1
      · rfl
      · exact fun orphaned => nomatch orphaned.2
    case isFalse => cases finishes

/-- A call that waits for no flight. -/
theorem Room.Sound.answer (sound : room.Sound) (answered : ∀ id, call.waitsFor id = false)
    (serves : room.Serves call) :
    (room.answer call).Sound where
  counted := by
    intro id flight found
    show flight.waiters = (room.calls ++ [call]).countP (Call.waitsFor id)
    rw [List.countP_append, List.countP_singleton, answered id]
    exact sound.counted id flight found
  flights := sound.flights
  attended := sound.attended
  serves := by
    intro other member
    rcases List.mem_append.mp member with old | new
    · exact sound.serves other old
    · rw [List.mem_singleton.mp new]
      exact serves

theorem Flight.continues_await (flight : Flight κ τ α) : flight.Continues flight.await :=
  ⟨⟨rfl, rfl, rfl, fun unsettled => unsettled, fun _ has => ⟨has, rfl⟩⟩, rfl, rfl⟩

/-- A caller joins a flight for its key that has not been aborted and had been started
when the key had last been invalidated. -/
theorem Room.Sound.join (sound : room.Sound) (found : room.flights[id]? = some flight)
    (key : flight.key = call.key) (started : flight.started = call.made)
    (unaborted : flight.aborted = false) : (room.join id call).Sound := by
  have joins : room.join id call =
      ⟨room.flights.set id flight.await, room.calls ++ [call.wait id]⟩ := by
    unfold Room.join
    rw [found]
    rfl
  have isSound := sound.flights id flight found
  rw [joins]
  constructor
  · intro other one isOne
    rw [List.countP_append, List.countP_singleton, Call.waitsFor_wait]
    rcases Room.flights_set found isOne with ⟨rfl, rfl⟩ | ⟨apart, isOne⟩
    · rw [if_pos (decide_eq_true rfl), ← sound.counted other flight found]
      rfl
    · rw [if_neg (by simpa using Ne.symm apart)]
      exact sound.counted other one isOne
  · intro other one isOne
    rcases Room.flights_set found isOne with ⟨rfl, rfl⟩ | ⟨_, isOne⟩
    · refine ⟨?_, isSound.first, isSound.unsettled⟩
      intro aborted
      have aborted : flight.aborted = true := aborted
      rw [unaborted] at aborted
      cases aborted
    · exact sound.flights other one isOne
  · intro other one isOne orphaned
    rcases Room.flights_set found isOne with ⟨rfl, rfl⟩ | ⟨_, isOne⟩
    · exact absurd orphaned.1 (Nat.succ_ne_zero flight.waiters)
    · exact sound.attended other one isOne orphaned
  · intro other member
    rcases List.mem_append.mp member with old | new
    · exact (sound.serves other old).mono
        (Room.extends_set found flight.continues_await.toEvolves _)
    · rw [List.mem_singleton.mp new]
      exact ⟨_, List.getElem?_set_self (Room.lt_of_found found), key, started⟩

/-- An element of a list to which one has been added. -/
theorem getElem?_concat_eq_some {items : List β} {last one : β}
    (isOne : (items ++ [last])[index]? = some one) :
    items[index]? = some one ∨ index = items.length ∧ one = last := by
  rcases Nat.lt_or_ge index items.length with within | beyond
  · rw [List.getElem?_append_left within] at isOne
    exact .inl isOne
  · rw [List.getElem?_append_right beyond, List.getElem?_singleton] at isOne
    split at isOne
    case isTrue zero =>
      cases isOne
      exact .inr ⟨Nat.le_antisymm (Nat.sub_eq_zero_iff_le.mp zero) beyond, rfl⟩
    case isFalse => cases isOne

theorem getElem?_concat_of_some {items : List β} {one : β} (isOne : items[index]? = some one)
    (last : β) : (items ++ [last])[index]? = some one := by
  obtain ⟨within, _⟩ := List.getElem?_eq_some_iff.mp isOne
  rw [List.getElem?_append_left within]
  exact isOne

theorem Room.start_join_eq (room : Room κ τ σ α) (key : κ) (tag : τ) (started : Nat)
    (call : Call κ σ α) :
    (room.start (Flight.new key tag started)).join room.flights.length call =
      ⟨room.flights ++ [(Flight.new key tag started).await],
        room.calls ++ [call.wait room.flights.length]⟩ := by
  have found : (room.start (Flight.new key tag started)).flights[room.flights.length]? =
      some (Flight.new key tag started) := List.getElem?_concat_length
  unfold Room.join
  rw [found]
  show Room.mk ((room.flights ++ [Flight.new key tag started]).set room.flights.length _) _ = _
  rw [List.set_append_right _ _ (Nat.le_refl _), Nat.sub_self]
  rfl

/-- A caller starts a flight and waits for it. -/
theorem Room.Sound.start_join (sound : room.Sound) (sameKey : key = call.key)
    (now : started = call.made) :
    ((room.start (Flight.new key tag started)).join room.flights.length call).Sound := by
  rw [Room.start_join_eq]
  constructor
  · intro other one isOne
    rw [List.countP_append, List.countP_singleton, Call.waitsFor_wait]
    rcases getElem?_concat_eq_some isOne with old | ⟨rfl, rfl⟩
    · have apart := Nat.ne_of_lt (Room.lt_of_found old)
      rw [if_neg (by simpa using Ne.symm apart)]
      exact sound.counted other one old
    · rw [if_pos (decide_eq_true rfl), sound.countP_of_length_le (Nat.le_refl _)]
      rfl
  · intro other one isOne
    rcases getElem?_concat_eq_some isOne with old | ⟨rfl, rfl⟩
    · exact sound.flights other one old
    · exact ⟨(fun aborted => nomatch aborted), (fun first => nomatch first), fun _ => rfl⟩
  · intro other one isOne orphaned
    rcases getElem?_concat_eq_some isOne with old | ⟨rfl, rfl⟩
    · exact sound.attended other one old orphaned
    · exact nomatch orphaned.1
  · intro other member
    rcases List.mem_append.mp member with old | new
    · apply (sound.serves other old).mono
      intro number one isOne
      exact ⟨one, getElem?_concat_of_some isOne _, .refl one⟩
    · rw [List.mem_singleton.mp new]
      exact ⟨_, List.getElem?_concat_length, sameKey, now⟩

/-! ## Leaving -/

structure Room.Leaves (room : Room κ τ σ α) (caller : Nat) (call : Call κ σ α) (id : Nat)
    (flight : Flight κ τ α) (byAbort : Bool) (after : Room κ τ σ α) : Prop where
  isCall : room.calls[caller]? = some call
  waiting : call.progress = .waiting id
  isFlight : room.flights[id]? = some flight
  leaves : ∃ progress, call.leaves id flight byAbort = some progress ∧
    after = ⟨room.flights.set id flight.release.abortOrphaned,
      room.calls.set caller { call with progress := progress }⟩

theorem Room.leaves_of_leave (left : room.leave caller byAbort = some after) :
    ∃ call id flight, room.Leaves caller call id flight byAbort after := by
  unfold Room.leave at left
  split at left
  case h_1 => cases left
  case h_2 call isCall =>
    split at left
    case h_1 id waiting =>
      split at left
      case h_1 => cases left
      case h_2 flight isFlight =>
        obtain ⟨progress, leaves, rfl⟩ := Option.map_eq_some_iff.mp left
        exact ⟨call, id, flight, isCall, waiting, isFlight, progress, leaves, rfl⟩
    case h_2 => cases left

/-- A flight that its waiters may abort. -/
theorem Flight.continues_abortOrphaned (flight : Flight κ τ α) :
    flight.Continues flight.release.abortOrphaned := by
  unfold Flight.abortOrphaned
  split
  · exact ⟨⟨rfl, rfl, rfl, fun unsettled => unsettled, fun _ has => ⟨has, rfl⟩⟩, rfl, rfl⟩
  · exact ⟨⟨rfl, rfl, rfl, fun unsettled => unsettled, fun _ has => ⟨has, rfl⟩⟩, rfl, rfl⟩

theorem Flight.waiters_abortOrphaned (flight : Flight κ τ α) :
    flight.abortOrphaned.waiters = flight.waiters := by
  unfold Flight.abortOrphaned
  split <;> rfl

theorem Flight.Sound.abortOrphaned (sound : flight.Sound) :
    flight.release.abortOrphaned.Sound := by
  unfold Flight.abortOrphaned
  split
  case isTrue orphaned => exact ⟨fun _ => orphaned.1, fun _ => rfl, sound.unsettled⟩
  case isFalse =>
    refine ⟨?_, sound.first, sound.unsettled⟩
    intro aborted
    have none : flight.waiters = 0 := sound.quiet aborted
    show flight.waiters - 1 = 0
    rw [none]

theorem Flight.aborted_of_orphaned (orphaned : flight.abortOrphaned.Orphaned) :
    flight.abortOrphaned.aborted = true := by
  unfold Flight.abortOrphaned at orphaned ⊢
  split
  case isTrue => rfl
  case isFalse not =>
    rw [if_neg not] at orphaned
    exact absurd orphaned not

/-- A caller that has left waits for no flight. -/
theorem Call.waitsFor_of_leaves (leaves : call.leaves id flight byAbort = some progress)
    (other : Nat) : ({ call with progress := progress } : Call κ σ α).waitsFor other = false := by
  unfold Call.leaves at leaves
  split at leaves
  · split at leaves
    · cases leaves
      rfl
    · cases leaves
  · split at leaves
    · cases leaves
    · split at leaves
      · cases leaves
      · cases leaves
        rfl
      · cases leaves
        rfl

/-- A flight that a caller waits for has not been aborted. -/
theorem Room.Sound.unaborted (sound : room.Sound) (member : call ∈ room.calls)
    (waiting : call.progress = .waiting id) (found : room.flights[id]? = some flight) :
    flight.aborted = false := by
  have counted : 0 < room.calls.countP (Call.waitsFor id) := by
    rw [List.countP_pos_iff]
    refine ⟨call, member, ?_⟩
    unfold Call.waitsFor
    rw [waiting]
    exact decide_eq_true rfl
  rw [← sound.counted id flight found] at counted
  by_contra aborted
  rw [(sound.flights id flight found).quiet (Bool.not_eq_false _ ▸ aborted)] at counted
  exact Nat.lt_irrefl 0 counted

/-- A caller that leaves has been served. -/
theorem Room.Sound.serves_of_leaves (sound : room.Sound) (member : call ∈ room.calls)
    (waiting : call.progress = .waiting id) (found : room.flights[id]? = some flight)
    (leaves : call.leaves id flight byAbort = some progress) :
    room.Serves { call with progress := progress } := by
  have served := sound.serves call member
  unfold Room.Serves at served
  rw [waiting] at served
  obtain ⟨one, isOne, key, started⟩ := served
  rw [found] at isOne
  cases isOne
  have unaborted := sound.unaborted member waiting found
  unfold Call.leaves at leaves
  split at leaves
  · split at leaves
    case isTrue aborted =>
      cases leaves
      exact aborted
    case isFalse => cases leaves
  · split at leaves
    case isTrue => cases leaves
    case isFalse =>
      split at leaves
      case h_1 => cases leaves
      case h_2 result =>
        cases leaves
        refine ⟨flight, found, key, started, result, ?_⟩
        by_contra first
        rw [(sound.flights id flight found).first (Bool.not_eq_false _ ▸ first)] at unaborted
        cases unaborted
      case h_3 value result =>
        cases leaves
        exact ⟨flight, found, key, started, result⟩

theorem Room.Sound.leave (sound : room.Sound) (left : room.leave caller byAbort = some after) :
    after.Sound := by
  obtain ⟨call, id, flight, isCall, waiting, isFlight, progress, leaves, rfl⟩ :=
    Room.leaves_of_leave left
  obtain ⟨within, atCaller⟩ := List.getElem?_eq_some_iff.mp isCall
  have member : call ∈ room.calls := atCaller ▸ List.getElem_mem within
  have waits (other : Nat) : call.waitsFor other = decide (id = other) := by
    unfold Call.waitsFor
    rw [waiting]
  have count (other : Nat) :
      (room.calls.set caller { call with progress := progress }).countP (Call.waitsFor other) =
        room.calls.countP (Call.waitsFor other) - if id = other then 1 else 0 := by
    rw [List.countP_set within, atCaller, waits, Call.waitsFor_of_leaves leaves other]
    simp
  have evolves := flight.continues_abortOrphaned.toEvolves
  constructor
  · intro other one isOne
    rw [count]
    rcases Room.flights_set isFlight isOne with ⟨rfl, rfl⟩ | ⟨apart, isOne⟩
    · rw [Flight.waiters_abortOrphaned, if_pos rfl, ← sound.counted other flight isFlight]
      rfl
    · rw [if_neg (Ne.symm apart)]
      exact sound.counted other one isOne
  · intro other one isOne
    rcases Room.flights_set isFlight isOne with ⟨rfl, rfl⟩ | ⟨_, isOne⟩
    · exact (sound.flights other flight isFlight).abortOrphaned
    · exact sound.flights other one isOne
  · intro other one isOne orphaned
    rcases Room.flights_set isFlight isOne with ⟨rfl, rfl⟩ | ⟨_, isOne⟩
    · exact Flight.aborted_of_orphaned orphaned
    · exact sound.attended other one isOne orphaned
  · intro other otherMember
    have extends_ := Room.extends_set isFlight evolves
      (room.calls.set caller { call with progress := progress })
    rcases List.mem_or_eq_of_mem_set otherMember with old | rfl
    · exact (sound.serves other old).mono extends_
    · exact (sound.serves_of_leaves member waiting isFlight leaves).mono extends_

theorem Room.Sound.abortCall (sound : room.Sound) (caller : Nat) :
    (room.abortCall caller).Sound := by
  unfold Room.abortCall
  split
  case h_1 => exact sound
  case h_2 call isCall =>
    obtain ⟨within, atCaller⟩ := List.getElem?_eq_some_iff.mp isCall
    have member : call ∈ room.calls := atCaller ▸ List.getElem_mem within
    refine ⟨?_, sound.flights, sound.attended, ?_⟩
    · intro id flight found
      rw [List.countP_set within, atCaller, sound.counted id flight found]
      show _ = _ - (if call.waitsFor id then 1 else 0) + if call.waitsFor id then 1 else 0
      by_cases waits : call.waitsFor id = true
      · have counted : 0 < room.calls.countP (Call.waitsFor id) :=
          List.countP_pos_iff.mpr ⟨call, member, waits⟩
        rw [if_pos waits, Nat.sub_add_cancel counted]
      · rw [if_neg waits]
        rfl
    · intro other otherMember
      rcases List.mem_or_eq_of_mem_set otherMember with old | rfl
      · exact sound.serves other old
      · have serves := sound.serves call member
        unfold Room.Serves at serves ⊢
        dsimp only
        split at serves
        case h_5 => rfl
        all_goals exact serves

/-! ## The flights after a change -/

/-- The flights are the same ones, with the same results. -/
structure Room.SameFlights (before after : Room κ τ σ α) : Prop where
  forward : ∀ (id : Nat) (flight : Flight κ τ α), before.flights[id]? = some flight →
    ∃ next, after.flights[id]? = some next ∧ flight.Continues next
  backward : ∀ (id : Nat) (next : Flight κ τ α), after.flights[id]? = some next →
    ∃ flight, before.flights[id]? = some flight ∧ flight.Continues next

theorem Room.sameFlights_of_eq (same : after.flights = before.flights) :
    before.SameFlights after where
  forward := by
    intro id flight found
    rw [← same] at found
    exact ⟨flight, found, .refl flight⟩
  backward := by
    intro id flight found
    rw [same] at found
    exact ⟨flight, found, .refl flight⟩

theorem Room.sameFlights_set (found : room.flights[id]? = some flight)
    (continues : flight.Continues next) (calls : List (Call κ σ α)) :
    room.SameFlights ⟨room.flights.set id next, calls⟩ where
  forward := by
    intro other one isOne
    by_cases same : other = id
    · subst same
      rw [found] at isOne
      cases isOne
      exact ⟨next, List.getElem?_set_self (Room.lt_of_found found), continues⟩
    · refine ⟨one, ?_, .refl one⟩
      rw [List.getElem?_set_ne (Ne.symm same)]
      exact isOne
  backward := by
    intro other one isOne
    rcases Room.flights_set found isOne with ⟨rfl, rfl⟩ | ⟨_, isOne⟩
    · exact ⟨flight, found, continues⟩
    · exact ⟨one, isOne, .refl one⟩

theorem Room.sameFlights_answer (call : Call κ σ α) : room.SameFlights (room.answer call) :=
  Room.sameFlights_of_eq rfl

theorem Room.sameFlights_join (id : Nat) (call : Call κ σ α) :
    room.SameFlights (room.join id call) := by
  unfold Room.join
  split
  case h_1 => exact Room.sameFlights_of_eq rfl
  case h_2 flight found => exact Room.sameFlights_set found flight.continues_await _

theorem Room.sameFlights_abortCall (caller : Nat) : room.SameFlights (room.abortCall caller) := by
  unfold Room.abortCall
  split
  · exact Room.sameFlights_of_eq rfl
  · exact Room.sameFlights_of_eq rfl

theorem Room.sameFlights_leave (left : room.leave caller byAbort = some after) :
    room.SameFlights after := by
  obtain ⟨call, id, flight, _, _, isFlight, progress, _, rfl⟩ := Room.leaves_of_leave left
  exact Room.sameFlights_set isFlight flight.continues_abortOrphaned _

/-- A result is given to a flight that has none. -/
theorem Room.settle_eq_some (found : room.flights[id]? = some flight)
    (settles : room.settle id result = some after) :
    flight.result = none ∧ after = room.change id
      { flight with result := some result, abortedFirst := flight.aborted } := by
  unfold Room.settle at settles
  rw [found] at settles
  dsimp only at settles
  split at settles
  case isTrue => cases settles
  case isFalse running =>
    cases settles
    exact ⟨Option.not_isSome_iff_eq_none.mp running, rfl⟩

theorem Flight.evolves_settle (running : flight.result = none) (result : Option α) :
    flight.Evolves { flight with result := some result, abortedFirst := flight.aborted } := by
  refine ⟨rfl, rfl, rfl, fun unsettled => unsettled, ?_⟩
  intro old has
  rw [running] at has
  cases has

/-- A flight that has a result is marked. -/
theorem Room.finish_eq_some (found : room.flights[id]? = some flight)
    (finishes : room.finish id = some after) :
    after = room.change id { flight with settled := true } := by
  unfold Room.finish at finishes
  rw [found] at finishes
  dsimp only at finishes
  split at finishes
  case isTrue =>
    cases finishes
    rfl
  case isFalse => cases finishes

theorem Flight.evolves_finish (flight : Flight κ τ α) :
    flight.Evolves { flight with settled := true } :=
  ⟨rfl, rfl, rfl, (fun unsettled => nomatch unsettled), fun _ has => ⟨has, rfl⟩⟩

/-- After a flight has been started, every other is one from before. -/
theorem Room.flights_start_join
    (isOne : ((room.start (Flight.new key tag started)).join room.flights.length
      call).flights[number]?
      = some one) :
    room.flights[number]? = some one ∨
      number = room.flights.length ∧ one = (Flight.new key tag started).await := by
  rw [Room.start_join_eq] at isOne
  exact getElem?_concat_eq_some isOne

theorem Room.extends_start_join (key : κ) (tag : τ) (started : Nat) (call : Call κ σ α) :
    room.Extends ((room.start (Flight.new key tag started)).join room.flights.length call) := by
  intro number one isOne
  rw [Room.start_join_eq]
  exact ⟨one, getElem?_concat_of_some isOne _, .refl one⟩

/-! ## Abortions -/

/-- A flight that has not been aborted, where only one other flight is changed, or one
that is not aborted by the change. -/
theorem Room.unaborted_set (found : room.flights[id]? = some flight)
    (kept : next.aborted = flight.aborted) (isOne : room.flights[number]? = some one)
    (unaborted : one.aborted = false) :
    ∃ after, (room.flights.set id next)[number]? = some after ∧ after.aborted = false := by
  by_cases same : number = id
  · subst same
    rw [found] at isOne
    cases isOne
    exact ⟨next, List.getElem?_set_self (Room.lt_of_found found), kept.trans unaborted⟩
  · refine ⟨one, ?_, unaborted⟩
    rw [List.getElem?_set_ne (Ne.symm same)]
    exact isOne

theorem Room.unaborted_join (id : Nat) (call : Call κ σ α)
    (isOne : room.flights[number]? = some one) (unaborted : one.aborted = false) :
    ∃ after, (room.join id call).flights[number]? = some after ∧ after.aborted = false := by
  unfold Room.join
  split
  case h_1 => exact ⟨one, isOne, unaborted⟩
  case h_2 flight found =>
    have kept : flight.await.aborted = flight.aborted := rfl
    exact Room.unaborted_set found kept isOne unaborted

theorem Room.unaborted_abortCall (caller : Nat) (isOne : room.flights[number]? = some one)
    (unaborted : one.aborted = false) :
    ∃ after, (room.abortCall caller).flights[number]? = some after ∧ after.aborted = false := by
  unfold Room.abortCall
  split
  · exact ⟨one, isOne, unaborted⟩
  · exact ⟨one, isOne, unaborted⟩

theorem Room.orphan_eq_some (orphans : room.orphan caller = some (id, flight)) :
    ∃ call, room.calls[caller]? = some call ∧ call.progress = .waiting id ∧
      room.flights[id]? = some flight := by
  unfold Room.orphan at orphans
  split at orphans
  case h_1 => cases orphans
  case h_2 call isCall =>
    split at orphans
    case h_1 other waiting =>
      split at orphans
      case h_1 => cases orphans
      case h_2 one isOne =>
        split at orphans
        case isTrue =>
          cases orphans
          exact ⟨call, isCall, waiting, isOne⟩
        case isFalse => cases orphans
    case h_2 => cases orphans

/-- Leaving aborts no flight but the one it orphans. -/
theorem Room.unaborted_leave (left : room.leave caller byAbort = some after)
    (isOne : room.flights[number]? = some one) (unaborted : one.aborted = false)
    (spared : ∀ orphaned, room.orphan caller ≠ some (number, orphaned)) :
    ∃ next, after.flights[number]? = some next ∧ next.aborted = false := by
  obtain ⟨call, id, flight, isCall, waiting, isFlight, progress, _, rfl⟩ :=
    Room.leaves_of_leave left
  by_cases same : number = id
  · subst same
    rw [isFlight] at isOne
    cases isOne
    refine ⟨_, List.getElem?_set_self (Room.lt_of_found isFlight), ?_⟩
    have attended : ¬ one.release.Orphaned := by
      intro orphaned
      apply spared one
      unfold Room.orphan
      rw [isCall]
      dsimp only
      rw [waiting]
      dsimp only
      rw [isFlight]
      exact if_pos orphaned
    rw [Flight.abortOrphaned, if_neg attended]
    exact unaborted
  · refine ⟨one, ?_, unaborted⟩
    show (room.flights.set id _)[number]? = some one
    rw [List.getElem?_set_ne (Ne.symm same)]
    exact isOne

/-! ## What callers can rely on -/

/-- A caller gets the result of a flight for its key that was not started before an
invalidation that the call was made after; it fails only with a flight that was not
aborted, or because it was aborted itself; and a flight that nobody waits for is
aborted. -/
structure Room.Fair (room : Room κ τ σ α) : Prop where
  returned : ∀ call ∈ room.calls, ∀ id value,
    call.progress = .hit id value ∨ call.progress = .fulfilled id value →
      ∃ flight, room.flights[id]? = some flight ∧ flight.key = call.key ∧
        flight.started = call.made ∧ flight.result = some (some value)
  waiting : ∀ call ∈ room.calls, ∀ id, call.progress = .waiting id →
    ∃ flight, room.flights[id]? = some flight ∧ flight.aborted = false
  rejected : ∀ call ∈ room.calls, ∀ id, call.progress = .rejected id →
    ∃ flight, room.flights[id]? = some flight ∧ flight.result = some none ∧
      flight.abortedFirst = false
  aborted : ∀ call ∈ room.calls, call.progress = .aborted → call.aborted = true
  unattended : ∀ (id : Nat) (flight : Flight κ τ α), room.flights[id]? = some flight →
    flight.result = none → (∀ call ∈ room.calls, call.progress ≠ .waiting id) →
      flight.aborted = true

theorem Room.Sound.fair (sound : room.Sound) : room.Fair where
  returned := by
    intro call member id value got
    have serves := sound.serves call member
    unfold Room.Serves at serves
    rcases got with isHit | isFulfilled
    · rw [isHit] at serves
      exact serves
    · rw [isFulfilled] at serves
      exact serves
  waiting := by
    intro call member id isWaiting
    have serves := sound.serves call member
    unfold Room.Serves at serves
    rw [isWaiting] at serves
    obtain ⟨flight, found, _⟩ := serves
    exact ⟨flight, found, sound.unaborted member isWaiting found⟩
  rejected := by
    intro call member id isRejected
    have serves := sound.serves call member
    unfold Room.Serves at serves
    rw [isRejected] at serves
    obtain ⟨flight, found, _, _, failed⟩ := serves
    exact ⟨flight, found, failed⟩
  aborted := by
    intro call member isAborted
    have serves := sound.serves call member
    unfold Room.Serves at serves
    rw [isAborted] at serves
    exact serves
  unattended := by
    intro id flight found running nobody
    apply sound.attended id flight found
    refine ⟨?_, (sound.flights id flight found).unsettled running⟩
    rw [sound.counted id flight found, List.countP_eq_zero]
    intro call member waits
    unfold Call.waitsFor at waits
    split at waits
    case h_1 other isWaiting =>
      rw [of_decide_eq_true waits] at isWaiting
      exact nobody call member isWaiting
    case h_2 => cases waits

end Changes

end Library.SingleFlight
