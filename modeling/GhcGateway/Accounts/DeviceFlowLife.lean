/-
# The life of a device flow

What a device login is for, told for one flow: it is made, polled, and comes to an end
that everyone who asks is told. At most one poll is in flight; a cancel that finds one
waits for it. The moves say what may happen to one flow, the log what has been answered
and committed so far, and `FlowLife.Sound` what holds of both after any moves.
-/

import Mathlib.Data.List.Basic
import Mathlib.Data.List.Infix

namespace GhcGateway.Accounts

abbrev AccountId := Nat

/-- A call of `cancel`. -/
abbrev CancelId := Nat

inductive FlowStatus
  | expired
  | denied
  | failed
  | complete (account : AccountId)
  deriving DecidableEq

/-- What a poll or a cancel of a flow answers. -/
inductive FlowAnswer
  | pending (pollIntervalSeconds nextPollAtMs : Nat)
  | notFound
  | canceled
  | status (status : FlowStatus)
  deriving DecidableEq

/-- What happens to a flow, as far as others see it: an account is committed by it, a
poll or cancel of it is answered, its terminal record expires or is evicted. -/
inductive FlowEvent
  | committed (account : AccountId)
  | answered (answer : FlowAnswer)
  | dropped
  deriving DecidableEq

/-- `DeviceFlowCancelResult` of a settled poll. -/
inductive SettlementResult
  | canceled
  | complete (account : AccountId)
  deriving DecidableEq

/-- The answer of a cancel that has waited for a poll. -/
def SettlementResult.answer : SettlementResult → FlowAnswer
  | .canceled => .canceled
  | .complete account => .status (.complete account)

inductive FlowEntry
  | absent
  | pending
  | terminal (status : FlowStatus)
  deriving DecidableEq

/-- One flow: whether it has been made, what is kept of it, the poll in flight with the
account it has committed, the cancels that wait for the poll or have their result. -/
structure FlowLife where
  born : Bool
  entry : FlowEntry
  polled : Option (Option AccountId)
  waiting : CancelId → Option (Option SettlementResult)
  closed : Bool
  log : List FlowEvent

namespace FlowLife

variable (life : FlowLife) {log : List FlowEvent} {event : FlowEvent}

/-- Something more has happened. -/
def note (event : FlowEvent) : FlowLife := { life with log := life.log ++ [event] }

/-- The cancels that wait for a poll get its result. -/
def settle (result : SettlementResult) : CancelId → Option (Option SettlementResult) :=
  fun cancel =>
    match life.waiting cancel with
    | some none => some (some result)
    | other => other

/-- The poll in flight ends; what it leaves is not kept by a closed service. -/
def finish (result : SettlementResult) (entry : FlowEntry) (events : List FlowEvent) : FlowLife :=
  { life with
    polled := none
    waiting := life.settle result
    entry := if life.closed then life.entry else entry
    log := life.log ++ events }

inductive Move : FlowLife → FlowLife → Prop
  | create {life : FlowLife} (unborn : life.born = false) :
      Move life { life with born := true, entry := .pending }
  | read {life : FlowLife} {status : FlowStatus} (kept : life.entry = .terminal status) :
      Move life (life.note (.answered (.status status)))
  | missing {life : FlowLife} (absent : life.entry = .absent) :
      Move life (life.note (.answered .notFound))
  | unfinished {life : FlowLife} (seconds nextPollAtMs : Nat) (pending : life.entry = .pending) :
      Move life (life.note (.answered (.pending seconds nextPollAtMs)))
  | drop {life : FlowLife} {status : FlowStatus} (kept : life.entry = .terminal status) :
      Move life { life.note .dropped with entry := .absent }
  | expire {life : FlowLife} (pending : life.entry = .pending) (idle : life.polled = none)
      (isOpen : life.closed = false) : Move life { life with entry := .terminal .expired }
  | discard {life : FlowLife} (kept : life.entry ≠ .absent)
      (notComplete : ∀ account, life.entry ≠ .terminal (.complete account))
      (idle : life.polled = none) :
      Move life { life.note (.answered .canceled) with entry := .absent }
  | begin {life : FlowLife} (pending : life.entry = .pending) (idle : life.polled = none)
      (isOpen : life.closed = false) (alone : ∀ cancel, life.waiting cancel = none) :
      Move life { life with polled := some none }
  | commit {life : FlowLife} (account : AccountId) (polled : life.polled = some none) :
      Move life { life.note (.committed account) with polled := some (some account) }
  | complete {life : FlowLife} {account : AccountId} (polled : life.polled = some (some account)) :
      Move life (life.finish (.complete account) (.terminal (.complete account))
        [.answered (.status (.complete account))])
  | fail {life : FlowLife} {status : FlowStatus} (polled : life.polled = some none)
      (notComplete : ∀ account, status ≠ .complete account) :
      Move life (life.finish .canceled (.terminal status) [.answered (.status status)])
  | postpone {life : FlowLife} (seconds nextPollAtMs : Nat) (polled : life.polled = some none)
      (pending : life.entry = .pending) :
      Move life (life.finish .canceled life.entry [.answered (.pending seconds nextPollAtMs)])
  | throw {life : FlowLife} (polled : life.polled = some none) :
      Move life (life.finish .canceled life.entry [])
  | lose {life : FlowLife} (polled : life.polled = some none) (closed : life.closed = true) :
      Move life (life.finish .canceled life.entry [.answered .notFound])
  | wait {life : FlowLife} (cancel : CancelId) (polled : life.polled ≠ none)
      (pending : life.entry = .pending) :
      Move life { life with waiting := Function.update life.waiting cancel (some none) }
  | wake {life : FlowLife} {cancel : CancelId} {result : SettlementResult}
      (due : life.waiting cancel = some (some result)) :
      Move life { life.note (.answered result.answer) with
        waiting := Function.update life.waiting cancel none
        entry :=
          if result = .canceled ∧ life.entry = .pending then .absent else life.entry }
  | close {life : FlowLife} (entry : FlowEntry) (kept : entry = life.entry ∨ entry = .absent) :
      Move life { life with closed := true, entry }

/-! ## The order of a log -/

/-- A log with one more event, split at one of them. -/
theorem split_append_singleton {before rest : List FlowEvent} {middle : FlowEvent}
    (split : log ++ [event] = before ++ middle :: rest) :
    (rest = [] ∧ before = log ∧ middle = event) ∨
      ∃ shorter, rest = shorter ++ [event] ∧ log = before ++ middle :: shorter := by
  rcases List.eq_nil_or_concat rest with rfl | ⟨shorter, last, rfl⟩
  · left
    obtain ⟨same, last⟩ := List.append_inj' split rfl
    exact ⟨rfl, same.symm, (List.head_eq_of_cons_eq last).symm⟩
  · right
    rw [List.concat_eq_append, ← List.cons_append, ← List.append_assoc] at split
    obtain ⟨same, last⟩ := List.append_inj' split rfl
    exact ⟨shorter, by rw [List.concat_eq_append, List.head_eq_of_cons_eq last], same⟩

/-- After a cancel nothing is committed. -/
def CanceledLast (log : List FlowEvent) : Prop :=
  ∀ before rest account, log = before ++ .answered .canceled :: rest → .committed account ∉ rest

/-- Once an account is committed the flow is reported complete with it, until its record
is dropped; only before the first such answer may it still be reported pending. -/
def CommittedLast (log : List FlowEvent) : Prop :=
  ∀ before rest account answer, log = before ++ .answered answer :: rest →
    .committed account ∈ before → .dropped ∉ before →
      answer = .status (.complete account) ∨
        (∃ seconds nextPollAtMs, answer = .pending seconds nextPollAtMs) ∧
          .answered (.status (.complete account)) ∉ before

theorem CanceledLast.append (last : CanceledLast log)
    (fits : ∀ account, event = .committed account → .answered .canceled ∉ log) :
    CanceledLast (log ++ [event]) := by
  intro before rest account split member
  rcases split_append_singleton split with ⟨rfl, -, -⟩ | ⟨shorter, rfl, same⟩
  · cases member
  · rcases List.mem_append.mp member with earlier | new
    · exact last before shorter account same earlier
    · refine fits account (List.mem_singleton.mp new).symm ?_
      rw [same]
      exact List.mem_append_right _ List.mem_cons_self

theorem CanceledLast.append_uncommitted (last : CanceledLast log) {more : List FlowEvent}
    (uncommitted : ∀ account, .committed account ∉ more) : CanceledLast (log ++ more) := by
  induction more generalizing log with
  | nil =>
    rw [List.append_nil]
    exact last
  | cons event rest ih =>
    rw [List.append_cons]
    refine ih (last.append fun account same => ?_) fun account member =>
      uncommitted account (List.mem_cons_of_mem _ member)
    exact absurd (same ▸ List.mem_cons_self) (uncommitted account)

theorem CommittedLast.append (last : CommittedLast log)
    (fits : ∀ account answer, event = .answered answer → .committed account ∈ log →
      .dropped ∉ log → answer = .status (.complete account) ∨
        (∃ seconds nextPollAtMs, answer = .pending seconds nextPollAtMs) ∧
          .answered (.status (.complete account)) ∉ log) : CommittedLast (log ++ [event]) := by
  intro before rest account answer split committed undropped
  rcases split_append_singleton split with ⟨-, rfl, same⟩ | ⟨shorter, -, same⟩
  · exact fits account answer same.symm committed undropped
  · exact last before shorter account answer same committed undropped

/-! ## What holds at any time -/

/-- No poll is in flight and none will begin. -/
def Over : Prop := life.polled = none ∧ (life.closed = true ∨ life.entry ≠ .pending)

/-- What holds of a flow at any time. -/
structure Sound : Prop where
  fresh : life.born = false → life.entry = .absent ∧ life.polled = none ∧
    (∀ cancel, life.waiting cancel = none) ∧ ∀ event ∈ life.log, event = .answered .notFound
  pollPending : life.polled ≠ none →
    life.entry = .pending ∨ life.closed = true ∧ life.entry = .absent
  ended : ∀ status, .answered (.status status) ∈ life.log → life.Over
  canceled : .answered .canceled ∈ life.log → life.Over
  committed : ∀ account, .committed account ∈ life.log →
    .answered (.status (.complete account)) ∈ life.log ∨ life.polled = some (some account)
  genuine : ∀ account, .answered (.status (.complete account)) ∈ life.log ∨
    life.polled = some (some account) → .committed account ∈ life.log
  record : ∀ status kept, .answered (.status status) ∈ life.log → life.entry = .terminal kept →
    kept = status
  agree : ∀ first second, .answered (.status first) ∈ life.log →
    .answered (.status second) ∈ life.log → first = second
  recorded : ∀ account, life.entry = .terminal (.complete account) →
    .answered (.status (.complete account)) ∈ life.log
  kept : ∀ account, .answered (.status (.complete account)) ∈ life.log → life.closed = false →
    life.entry = .terminal (.complete account) ∨ .dropped ∈ life.log
  gone : .dropped ∈ life.log → life.entry = .absent ∧ life.polled = none
  exclusive : ∀ account, .answered .canceled ∈ life.log →
    .answered (.status (.complete account)) ∈ life.log → life.closed = true
  waits : ∀ cancel, life.waiting cancel = some none → life.polled ≠ none
  due : ∀ cancel result, life.waiting cancel = some (some result) → life.polled = none ∧
    match result with
    | .complete account => .answered (.status (.complete account)) ∈ life.log
    | .canceled => life.closed = true ∨
        ∀ account, .answered (.status (.complete account)) ∉ life.log
  canceledLast : CanceledLast life.log
  committedLast : life.closed = false → CommittedLast life.log

namespace Sound

variable {life : FlowLife}
  {result : SettlementResult} {status : FlowStatus} {cancel : CancelId} {next : FlowLife}

/-- A flow that has not been made. -/
theorem unborn (closed : Bool) : Sound ⟨false, .absent, none, fun _ => none, closed, []⟩ := by
  constructor
  case canceledLast => exact fun before rest account split => by simp at split
  case committedLast => exact fun _ before rest account answer split => by simp at split
  all_goals simp [Over]

section

variable (sound : life.Sound)

include sound

/-- A poll begins, a cancel starts to wait, or what is kept changes, and nothing is
answered. -/
theorem silent (log : next.log = life.log)
    (fresh : next.born = false → next.entry = .absent ∧ next.polled = none ∧
      (∀ cancel, next.waiting cancel = none) ∧ ∀ event ∈ next.log, event = .answered .notFound)
    (pollPending : next.polled ≠ none →
      next.entry = .pending ∨ next.closed = true ∧ next.entry = .absent)
    (isOver : (∃ status, .answered (.status status) ∈ life.log) ∨ .answered .canceled ∈ life.log →
      life.Over → next.Over)
    (polled : ∀ account, next.polled = some (some account) ↔ life.polled = some (some account))
    (terminal : ∀ status, next.entry = .terminal status → life.entry = .terminal status ∨
      status = .expired ∧ ∀ other, .answered (.status other) ∉ life.log)
    (kept : ∀ account, life.entry = .terminal (.complete account) → next.closed = false →
      next.entry = .terminal (.complete account))
    (gone : .dropped ∈ life.log → next.entry = .absent ∧ next.polled = none)
    (closed : life.closed = true → next.closed = true)
    (waits : ∀ cancel, next.waiting cancel = some none → next.polled ≠ none)
    (due : ∀ cancel result, next.waiting cancel = some (some result) →
      life.waiting cancel = some (some result) ∧ next.polled = none) : next.Sound := by
  have stillOpen : next.closed = false → life.closed = false := by grind
  constructor
  case canceledLast => exact log ▸ sound.canceledLast
  case committedLast => exact fun isOpen => log ▸ sound.committedLast (stillOpen isOpen)
  case fresh => exact fresh
  case pollPending => exact pollPending
  case ended =>
    intro status answered
    rw [log] at answered
    exact isOver (.inl ⟨status, answered⟩) (sound.ended status answered)
  case canceled =>
    intro answered
    rw [log] at answered
    exact isOver (.inr answered) (sound.canceled answered)
  case committed =>
    intro account committed
    rw [log] at committed ⊢
    exact (sound.committed account committed).imp_right (polled account).mpr
  case genuine =>
    intro account known
    rw [log] at known ⊢
    exact sound.genuine account (known.imp_right (polled account).mp)
  case record =>
    intro status other answered isOther
    rw [log] at answered
    rcases terminal other isOther with was | ⟨-, none⟩
    · exact sound.record status other answered was
    · exact absurd answered (none status)
  case agree =>
    rw [log]
    exact sound.agree
  case recorded =>
    intro account isComplete
    rw [log]
    rcases terminal _ isComplete with was | ⟨same, -⟩
    · exact sound.recorded account was
    · cases same
  case kept =>
    intro account answered isOpen
    rw [log] at answered ⊢
    exact (sound.kept account answered (stillOpen isOpen)).imp_left fun was =>
      kept account was isOpen
  case gone =>
    rw [log]
    exact gone
  case exclusive =>
    intro account isCanceled isComplete
    rw [log] at isCanceled isComplete
    exact closed (sound.exclusive account isCanceled isComplete)
  case waits => exact waits
  case due =>
    intro cancel result isDue
    obtain ⟨was, idle⟩ := due cancel result isDue
    have known := (sound.due cancel result was).2
    refine ⟨idle, ?_⟩
    rw [log]
    cases result with
    | complete account => exact known
    | canceled => exact known.imp_left closed

/-- Cancels get a result only when the poll has ended. -/
theorem idle_of_due (due : life.waiting cancel = some (some result)) : life.polled = none :=
  (sound.due cancel result due).1

/-- While no poll is in flight, what has been committed has been answered. -/
theorem answered_of_idle (idle : life.polled = none) {account : AccountId}
    (committed : .committed account ∈ life.log) :
    .answered (.status (.complete account)) ∈ life.log := by
  rcases sound.committed account committed with answered | polled
  · exact answered
  · cases idle.symm.trans polled

/-- While a poll is in flight no status has been answered. -/
theorem unanswered_of_polled (polled : life.polled ≠ none) (status : FlowStatus) :
    .answered (.status status) ∉ life.log :=
  fun answered => polled (sound.ended status answered).1

/-- A poll that has committed nothing belongs to a flow that has committed nothing. -/
theorem uncommitted_of_polled (polled : life.polled = some none) (account : AccountId) :
    .committed account ∉ life.log := by
  intro committed
  rcases sound.committed account committed with answered | isCommitted
  · refine sound.unanswered_of_polled ?_ _ answered
    rw [polled]
    exact Option.some_ne_none none
  · cases polled.symm.trans isCommitted

/-- An answer that leaves the flow as it is. -/
theorem answer {answer : FlowAnswer} (notCanceled : answer ≠ .canceled)
    (shown : ∀ status, answer = .status status → life.entry = .terminal status)
    (unborn : life.born = false → answer = .notFound)
    (complete : ∀ account, life.closed = false → life.entry = .terminal (.complete account) →
      answer = .status (.complete account)) (pending : life.closed = false → life.entry = .pending →
      ∃ seconds nextPollAtMs, answer = .pending seconds nextPollAtMs) :
    (life.note (.answered answer)).Sound := by
  constructor
  case canceledLast => exact sound.canceledLast.append fun account same => nomatch same
  case committedLast =>
    intro isOpen
    have isOpen : life.closed = false := isOpen
    refine (sound.committedLast isOpen).append fun account given same committed undropped => ?_
    obtain rfl : answer = given := FlowEvent.answered.inj same
    rcases sound.committed account committed with answered | polled
    · rcases sound.kept account answered isOpen with isKept | dropped
      · exact .inl (complete account isOpen isKept)
      · exact absurd dropped undropped
    · have inFlight : life.polled ≠ none := by
        rw [polled]
        exact Option.some_ne_none _
      rcases sound.pollPending inFlight with isPending | ⟨closed, -⟩
      · exact .inr ⟨pending isOpen isPending, sound.unanswered_of_polled inFlight _⟩
      · exact absurd (closed.symm.trans isOpen) (by decide)
  all_goals
    obtain ⟨fresh, pollPending, ended, canceled, committed, genuine, record, agree, recorded,
      kept, gone, exclusive, waits, due, -, -⟩ := sound
    simp only [note, List.mem_append, List.mem_singleton, Over] at *
    grind

theorem drop (kept : life.entry = .terminal status) :
    ({ life.note .dropped with entry := .absent } : FlowLife).Sound := by
  constructor
  case canceledLast => exact sound.canceledLast.append fun account same => nomatch same
  case committedLast =>
    exact fun isOpen => (sound.committedLast isOpen).append fun account answer same => nomatch same
  all_goals
    obtain ⟨fresh, pollPending, ended, canceled, committed, genuine, record, agree, recorded,
      isKept, gone, exclusive, waits, due, -, -⟩ := sound
    simp only [note, List.mem_append, List.mem_singleton, Over] at *
    grind

/-- A cancel takes an idle flow away. -/
theorem discard (kept : life.entry ≠ .absent)
    (notComplete : ∀ account, life.entry ≠ .terminal (.complete account))
    (idle : life.polled = none) :
    ({ life.note (.answered .canceled) with entry := .absent } : FlowLife).Sound := by
  constructor
  case canceledLast => exact sound.canceledLast.append fun account same => nomatch same
  case committedLast =>
    intro isOpen
    have isOpen : life.closed = false := isOpen
    refine (sound.committedLast isOpen).append fun account given same committed undropped => ?_
    rcases sound.kept account (sound.answered_of_idle idle committed) isOpen with isKept | dropped
    · exact absurd isKept (notComplete account)
    · exact absurd dropped undropped
  all_goals
    obtain ⟨fresh, pollPending, ended, canceled, committed, genuine, record, agree, recorded,
      isKept, gone, exclusive, waits, due, -, -⟩ := sound
    simp only [note, List.mem_append, List.mem_singleton, Over] at *
    grind

theorem commit (account : AccountId) (polled : life.polled = some none) :
    ({ life.note (.committed account) with polled := some (some account) } : FlowLife).Sound := by
  constructor
  case canceledLast =>
    refine sound.canceledLast.append fun _ _ isCanceled => ?_
    have isOver := (sound.canceled isCanceled).1
    rw [polled] at isOver
    cases isOver
  case committedLast =>
    exact fun isOpen => (sound.committedLast isOpen).append fun account answer same => nomatch same
  all_goals
    obtain ⟨fresh, pollPending, ended, canceled, committed, genuine, record, agree, recorded,
      isKept, gone, exclusive, waits, due, -, -⟩ := sound
    simp only [note, List.mem_append, List.mem_singleton, Over] at *
    grind

/-- The poll in flight ends with a status. -/
theorem finishStatus (polled : match status with
      | .complete account => life.polled = some (some account) ∧ result = .complete account
      | _ => life.polled = some none ∧ result = .canceled) :
    (life.finish result (.terminal status) [.answered (.status status)]).Sound := by
  have inFlight : life.polled ≠ none := by grind
  constructor
  case canceledLast => exact sound.canceledLast.append fun account same => nomatch same
  case committedLast =>
    intro isOpen
    refine (sound.committedLast isOpen).append fun account given same committed _ => .inl ?_
    obtain rfl : .status status = given := FlowEvent.answered.inj same
    rcases sound.committed account committed with answered | isPolled
    · exact absurd answered (sound.unanswered_of_polled inFlight _)
    · grind
  all_goals
    obtain ⟨fresh, pollPending, ended, canceled, committed, genuine, record, agree, recorded,
      kept, gone, exclusive, waits, due, -, -⟩ := sound
    simp only [finish, settle, List.mem_append, List.mem_singleton, Over] at *
    grind

/-- The poll in flight ends without one. -/
theorem finishQuietly {events : List FlowEvent} (polled : life.polled = some none)
    (quiet : events = [] ∨
      (∃ seconds nextPollAtMs, events = [.answered (.pending seconds nextPollAtMs)]) ∨
      events = [.answered .notFound]) : (life.finish .canceled life.entry events).Sound := by
  constructor
  case canceledLast =>
    show CanceledLast (life.log ++ events)
    rcases quiet with rfl | ⟨_, _, rfl⟩ | rfl
    · rw [List.append_nil]
      exact sound.canceledLast
    · exact sound.canceledLast.append fun account same => nomatch same
    · exact sound.canceledLast.append fun account same => nomatch same
  case committedLast =>
    intro isOpen
    have isOpen : life.closed = false := isOpen
    show CommittedLast (life.log ++ events)
    rcases quiet with rfl | ⟨_, _, rfl⟩ | rfl
    · rw [List.append_nil]
      exact sound.committedLast isOpen
    · exact (sound.committedLast isOpen).append fun account _ _ committed =>
        absurd committed (sound.uncommitted_of_polled polled account)
    · exact (sound.committedLast isOpen).append fun account _ _ committed =>
        absurd committed (sound.uncommitted_of_polled polled account)
  all_goals
    obtain ⟨fresh, pollPending, ended, canceled, committed, genuine, record, agree, recorded,
      kept, gone, exclusive, waits, due, -, -⟩ := sound
    simp only [finish, settle, List.mem_append, Over] at *
    grind

/-- A cancel that has waited answers what the poll has come to. -/
theorem wake (due : life.waiting cancel = some (some result)) :
    ({ life.note (.answered result.answer) with
      waiting := Function.update life.waiting cancel none
      entry := if result = .canceled ∧ life.entry = .pending then .absent else life.entry } :
        FlowLife).Sound := by
  constructor
  case canceledLast => exact sound.canceledLast.append fun account same => nomatch same
  case committedLast =>
    intro isOpen
    have isOpen : life.closed = false := isOpen
    refine (sound.committedLast isOpen).append fun account given same committed _ => .inl ?_
    have answered := sound.answered_of_idle (sound.idle_of_due due) committed
    have known := (sound.due cancel result due).2
    cases result with
    | complete other =>
      rw [FlowStatus.complete.inj (sound.agree _ _ answered known)]
      exact (FlowEvent.answered.inj same).symm
    | canceled =>
      rcases known with closed | unanswered
      · exact absurd (closed.symm.trans isOpen) (by decide)
      · exact absurd answered (unanswered account)
  all_goals
    obtain ⟨fresh, pollPending, ended, canceled, committed, genuine, record, agree, recorded,
      kept, gone, exclusive, waits, due', -, -⟩ := sound
    simp only [note, List.mem_append, List.mem_singleton, Over, Function.update_apply] at *
    grind [SettlementResult.answer]

/-- Every move keeps it. -/
theorem move (moved : Move life next) : next.Sound := by
  cases moved with
  | create unborn =>
    obtain ⟨isAbsent, idle, noWaits, onlyMissing⟩ := sound.fresh unborn
    apply sound.silent <;> grind
  | read kept => apply sound.answer <;> grind [sound.fresh]
  | missing isAbsent => apply sound.answer <;> grind
  | unfinished seconds nextPollAtMs pending => apply sound.answer <;> grind [sound.fresh]
  | drop kept => exact sound.drop kept
  | expire pending idle isOpen =>
    have unanswered (status : FlowStatus) : .answered (.status status) ∉ life.log := by
      intro answered
      rcases (sound.ended status answered).2 with closed | ended
      · exact absurd (closed.symm.trans isOpen) (by decide)
      · exact ended pending
    apply sound.silent <;> grind [Over, sound.waits, sound.idle_of_due, sound.fresh, sound.gone]
  | discard kept notComplete idle => exact sound.discard kept notComplete idle
  | begin pending idle isOpen alone =>
    apply sound.silent <;> grind [Over, sound.fresh, sound.gone]
  | commit account polled => exact sound.commit account polled
  | complete polled => exact sound.finishStatus ⟨polled, rfl⟩
  | fail polled notComplete =>
    apply sound.finishStatus
    split
    · exact absurd rfl (notComplete _)
    · exact ⟨polled, rfl⟩
  | postpone seconds nextPollAtMs polled pending =>
    exact sound.finishQuietly polled (.inr (.inl ⟨seconds, nextPollAtMs, rfl⟩))
  | throw polled => exact sound.finishQuietly polled (.inl rfl)
  | lose polled closed => exact sound.finishQuietly polled (.inr (.inr rfl))
  | wait cancel polled pending =>
    apply sound.silent <;>
      grind [Over, Function.update_apply, sound.fresh, sound.gone, sound.waits, sound.idle_of_due]
  | wake due => exact sound.wake due
  | close entry kept =>
    apply sound.silent <;>
      grind [Over, sound.fresh, sound.gone, sound.pollPending, sound.waits, sound.idle_of_due]

end

end Sound

end FlowLife

end GhcGateway.Accounts
