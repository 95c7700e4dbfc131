/-
# The agreement of device flows

What everyone who polls or cancels a device flow is told fits together: nothing is
committed once the flow was said to be canceled, an account that was committed is told
of until its record is gone, and of two statuses no two are told. While the account
directory cleans up after a commit the flow is still said to be pending, and a flow that
has ended without an account may be canceled like any other.
-/

import GhcGateway.Accounts.DeviceFlowMoves

namespace GhcGateway.Accounts

open Library DeviceFlowService

variable {resolveGitHubEnvironment : String → Option GitHubEnvironment}
  {labels : List DeviceFlowStep} {final : DeviceFlowService}

instance decidableOrderly (state : DeviceFlowService) :
    ∀ label, Decidable (Orderly state label)
  | .start _ _ => inferInstanceAs (Decidable (_ → ∀ id ∈ state.flows.keys, _ → _ → _))
  | .poll _ _ => inferInstanceAs (Decidable (_ → ∀ cancel ∈ state.cancels.values, _))
  | .abortStart _ | .requested _ _ | .abortPoll _ | .exchanged _ _ | .fetched _ _ | .retry _
  | .giveUp _ | .commit _ _ | .upserted _ _ | .cleaned _ _ | .cancel _ | .cancelEnds _ | .expire _
  | .forget _ | .close | .finishClose | .forceClose | .tick _ => .isTrue trivial

theorem kept_of_run
    (ran : (deviceFlows resolveGitHubEnvironment).run .initial labels = some final) : Kept final :=
  Concurrent.invariant_of_run (fun kept stepped => kept.step stepped) ran .initial

/-- In an orderly run every flow stays sound. -/
theorem sound_of_run
    (orderly : (deviceFlows resolveGitHubEnvironment).Along Orderly .initial labels)
    (ran : (deviceFlows resolveGitHubEnvironment).run .initial labels = some final) :
    final.Sound := by
  have both := @Concurrent.invariant_of_along _ _ (deviceFlows resolveGitHubEnvironment) Orderly
    (fun state => Kept state ∧ state.Sound)
    (fun orderly holds stepped => ⟨holds.1.step stepped,
      holds.2.moves (moves_step holds.1 holds.2 orderly stepped)⟩)
    _ _ _ orderly ran ⟨.initial, .initial⟩
  exact both.2

/-- In every run nothing is committed by a flow once it was said to be canceled, and there
are at most `maxDeviceFlows` pending flows, those that are being started counted. In an
orderly run, what is told of a flow agrees: a committed account is told of, or the poll
that has committed it is still in flight; after the commit every answer is that the flow
is complete with the account, until its record expires or is evicted, except that it may
be said to be pending before the first such answer; no two different statuses are told;
and a flow is said to be both canceled and complete only when the service is closed. -/
theorem agreement_of_run {labels : List DeviceFlowStep} {final : DeviceFlowService}
    (ran : (deviceFlows resolveGitHubEnvironment).run .initial labels = some final) :
    final.activeFlowCount + final.startingFlows ≤ maxDeviceFlows ∧
      (∀ id, FlowLife.CanceledLast (final.history id)) ∧
        ((deviceFlows resolveGitHubEnvironment).Along Orderly .initial labels → ∀ id,
          (∀ account, .committed account ∈ final.history id →
            .answered (.status (.complete account)) ∈ final.history id ∨
              ∃ poll, final.polls.get id = some poll ∧ poll.stage.account = some account) ∧
          (final.closed = false → FlowLife.CommittedLast (final.history id)) ∧
          (∀ first second, .answered (.status first) ∈ final.history id →
            .answered (.status second) ∈ final.history id → first = second) ∧
          ∀ account, .answered .canceled ∈ final.history id →
            .answered (.status (.complete account)) ∈ final.history id → final.closed = true) := by
  have kept := kept_of_run ran
  refine ⟨kept.bound, kept.last, fun orderly id => ?_⟩
  have sound := sound_of_run orderly ran id
  refine ⟨fun account committed => ?_, sound.committedLast, sound.agree, sound.exclusive⟩
  exact (sound.committed account committed).imp_right Option.map_eq_some_iff.mp

/-! ## Two runs -/

/-- A login with a code that may be polled once a second. -/
def loginCode : DeviceCode := ⟨"device", "user", "https://github.com/login/device", 1, 900⟩

def loginUser : GitHubUser := ⟨"1", "octocat", none⟩

/-- A login whose user has entered the code, up to the commit of the account. -/
def loginSteps : List DeviceFlowStep :=
  [.start "github.com" false, .requested 0 (some loginCode), .tick 1000, .poll 0 false,
    .exchanged 0 (.ok (.complete "token" loginUser)), .commit 0 7]

/-- The account is committed and then told of. -/
theorem agreement_of_login :
    ∃ final, (deviceFlows some).run .initial (loginSteps ++ [.upserted 0 .bound, .cancel 0]) =
        some final ∧
      .answered (.status (.complete 7)) ∈ final.history 0 ∧
      FlowLife.CommittedLast (final.history 0) := by
  have runs : ((deviceFlows some).run .initial (loginSteps ++ [.upserted 0 .bound, .cancel 0])).any
      (fun final => !final.closed && decide
        (FlowEvent.answered (.status (.complete 7)) ∈ final.history 0)) = true := by
    decide
  obtain ⟨final, ran, holds⟩ := (Option.any_eq_true _ _).mp runs
  obtain ⟨isOpen, told⟩ := (Bool.and_eq_true _ _).mp holds
  have orderly : (deviceFlows some).Along Orderly .initial
      (loginSteps ++ [.upserted 0 .bound, .cancel 0]) := by
    decide
  refine ⟨final, ran, of_decide_eq_true told, ?_⟩
  exact ((agreement_of_run ran).2.2 orderly 0).2.1 ((Bool.not_eq_true' _).mp isOpen)

/-- The agreement with no word for the time in which a committed account is cleaned up. -/
structure AgreesAtOnce (state : DeviceFlowService) (id : FlowId) : Prop where
  canceled : FlowLife.CanceledLast (state.history id)
  committed : state.closed = false → ∀ before rest account answer,
    state.history id = before ++ .answered answer :: rest → .committed account ∈ before →
      .dropped ∉ before → answer = .status (.complete account)
  status : ∀ first second, .answered (.status first) ∈ state.history id →
    .answered (.status second) ∈ state.history id → first = second
  bound : state.activeFlowCount ≤ maxDeviceFlows

/-- A poll that comes during the cleanup is told that the flow is pending. -/
theorem not_agreesAtOnce :
    ¬ ∀ labels final, (deviceFlows some).run .initial labels = some final →
      ∀ id, AgreesAtOnce final id := by
  intro agrees
  have runs : ((deviceFlows some).run .initial
      (loginSteps ++ [.upserted 0 .postCommit, .poll 0 false])).any
      (fun final => !final.closed && decide (final.history 0 =
        [.committed 7, .answered (.pending 1 2000)])) = true := by
    decide
  obtain ⟨final, ran, holds⟩ := (Option.any_eq_true _ _).mp runs
  obtain ⟨isOpen, told⟩ := (Bool.and_eq_true _ _).mp holds
  have agreed := (agrees _ final ran 0).committed ((Bool.not_eq_true' _).mp isOpen)
    [.committed 7] [] 7 (.pending 1 2000) (of_decide_eq_true told) List.mem_cons_self (by decide)
  cases agreed

end GhcGateway.Accounts
