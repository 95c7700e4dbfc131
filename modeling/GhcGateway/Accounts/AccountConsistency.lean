/-
# The two stores of the account directory

Whatever fails or crashes, and wherever, the secret of every active account is stored, a
removed account has at most a secret that was put for a login not committed, and the
default account is active. A reconciliation that succeeds leaves the secrets of the active
accounts and no others. An upsert that rejects before its put leaves the secrets alone;
one whose transaction fails and whose prune succeeds leaves those of the active accounts
as they were.
-/

import GhcGateway.Accounts.AccountDirectory

namespace GhcGateway.Accounts.AccountStores

open Library OrderedMap

variable {accountId removed : AccountId} {row : AccountRow} {succeeds : Bool}
  {outcome : StoreOutcome} {label : AccountStep} {reason : Rejection} {before : Secrets}

def Active (state : AccountStores) (accountId : AccountId) : Prop :=
  ∃ row, state.accounts.get accountId = some row ∧ row.state = .active

/-- What holds of the two stores at any time. -/
structure Consistent (maxAuthenticated : Nat) (state : AccountStores) : Prop where
  covered : state.secrets.Covers state.activeCredentialReferences
  generation : ∀ accountId row, state.accounts.get accountId = some row →
    row.credentialGeneration ≠ none
  removed : ∀ accountId row generation number, state.accounts.get accountId = some row →
    row.state = .removed → row.credentialGeneration = some generation →
      state.secrets accountId number ≠ none → number = generation + 1
  default : ∀ accountId, state.preferences.defaultAccountId = some accountId →
    state.Active accountId
  bound : state.activeCount ≤ maxAuthenticated

/-- The current secret of every active account is the one there was. -/
def KeepsCurrent (state : AccountStores) (before : Secrets) : Prop :=
  ∀ accountId number, state.activeCredentialReferences accountId = some number →
    state.secrets accountId number = before accountId number

def Relies (maxAuthenticated : Nat) (state : AccountStores) (work : DirectoryWork) : Prop :=
  match work.stage with
  | .begun => work.before = state.secrets
  | .stored existing generation =>
    ∀ input, work.request = .upsertAuthenticated input →
      existing = state.accounts.get input.accountId ∧ inState existing .removing = false ∧
        generation = nextGeneration existing ∧
          (∃ value, state.secrets = work.before.put input.accountId generation value) ∧
            (inState existing .active = true ∨ state.activeCount < maxAuthenticated)
  | .compensating => state.KeepsCurrent work.before
  | .committed => ∀ input, work.request = .upsertAuthenticated input → state.Active input.accountId
  | .removing accountId =>
    (∀ input, work.request ≠ .upsertAuthenticated input) ∧
      ∃ row, state.accounts.get accountId = some row ∧ row.state = .removing
  | .erased accountId =>
    (∀ input, work.request ≠ .upsertAuthenticated input) ∧
      (∃ row, state.accounts.get accountId = some row ∧ row.state = .removing) ∧
        ∀ number, state.secrets accountId number = none
  | .sweeping => ∀ input, work.request ≠ .upsertAuthenticated input

/-- What an upsert that rejects leaves of the secrets there were before it. -/
def LeavesRejected (state : AccountStores) (before : Secrets) : Rejection → Prop
  | .aborted | .directory _ | .put .failed => state.secrets = before
  | .transaction => ∀ accountId number, state.secrets accountId number =
      if state.activeCredentialReferences accountId = some number then before accountId number
      else none
  | .put _ | .abortedAfterPut | .compensation | .store | .database => state.KeepsCurrent before

/-- What holds when a call has ended. -/
def Leaves (state : AccountStores) (ended : DirectoryEnd) : Prop :=
  match ended.request, ended.outcome with
  | .reconcile, .reconciled => state.secrets.Exact state.activeCredentialReferences
  | .upsertAuthenticated _, .rejected reason => state.LeavesRejected ended.before reason
  | _, _ => True

/-- The stores are consistent, and so is what the call at work knows of them. -/
structure Sound (maxAuthenticated : Nat) (state : AccountStores) : Prop where
  consistent : Consistent maxAuthenticated state
  relies : ∀ work, state.work = some work → Relies maxAuthenticated state work
  leaves : ∀ ended, state.ended = some ended → Leaves state ended

variable {maxAuthenticated : Nat} {state next : AccountStores} {work : DirectoryWork}

theorem Sound.initial : Sound maxAuthenticated .initial where
  consistent := {
    covered := fun _ _ isCurrent => nomatch isCurrent
    generation := fun _ _ found => nomatch found
    removed := fun _ _ _ _ found => nomatch found
    default := fun _ isDefault => nomatch isDefault
    bound := Nat.zero_le _ }
  relies _ working := nomatch working
  leaves _ ended := nomatch ended

/-! ## What is current -/

theorem activeCredentialReferences_eq_some {number : Nat} :
    state.activeCredentialReferences accountId = some number ↔
      ∃ row, state.accounts.get accountId = some row ∧ row.state = .active ∧
        row.credentialGeneration = some number := by
  rw [activeCredentialReferences]
  cases state.accounts.get accountId with
  | none => simp
  | some row => simp [AccountRow.isActive]

theorem mem_activeIds :
    accountId ∈ state.accounts.keysWhere AccountRow.isActive ↔ state.Active accountId := by
  rw [mem_keysWhere]
  simp only [AccountRow.isActive, decide_eq_true_eq]
  rfl

/-- At most the accounts listed come into use. -/
theorem activeCount_le {more : List AccountId}
    (activated : ∀ accountId, next.Active accountId → accountId ∈ more ∨ state.Active accountId) :
    next.activeCount ≤ more.length + state.activeCount :=
  length_filter_values_le fun accountId member =>
    (activated accountId (mem_activeIds.mp member)).imp_right mem_activeIds.mpr

/-- The generation that is put is not the current one. -/
theorem keepsCurrent_of_put {value : SecretCredential} (put : state.secrets =
      before.put accountId (nextGeneration (state.accounts.get accountId)) value) :
    state.KeepsCurrent before := by
  intro other number isCurrent
  obtain ⟨row, found, -, isNumber⟩ := activeCredentialReferences_eq_some.mp isCurrent
  rw [put, Generations.put]
  apply if_neg
  intro same
  have next : nextGeneration (some row) = number := by
    rw [same.2, ← found, same.1]
  rw [nextGeneration, Option.bind_some, isNumber, Option.getD_some] at next
  omega

theorem KeepsCurrent.prune (keeps : state.KeepsCurrent before) :
    state.prune.KeepsCurrent before := by
  intro accountId number isCurrent
  have isCurrent : state.activeCredentialReferences accountId = some number := isCurrent
  show state.secrets.prune state.activeCredentialReferences accountId number = _
  rw [Generations.prune_of_current isCurrent]
  exact keeps accountId number isCurrent

theorem inState_iff {credentialState : CredentialState} :
    inState (state.accounts.get accountId) credentialState = true ↔
      ∃ row, state.accounts.get accountId = some row ∧ row.state = credentialState := by
  rw [inState, Option.any_eq_true]
  simp

namespace Consistent

section

variable (consistent : Consistent maxAuthenticated state)

include consistent

/-- More secrets are stored: for an account that is not removed, or for a login of one that
is. -/
theorem put (value : SecretCredential) :
    Consistent maxAuthenticated (state.putGeneration accountId
      (nextGeneration (state.accounts.get accountId)) value) where
  covered := consistent.covered.put _ _ _
  generation := consistent.generation
  removed := by
    intro other row generation number found isRemoved isLast isStored
    have isStored : state.secrets.put accountId
        (nextGeneration (state.accounts.get accountId)) value other number ≠ none := isStored
    rw [Generations.put] at isStored
    split at isStored
    case isTrue same =>
      have found : state.accounts.get accountId = some row := same.1 ▸ found
      rw [same.2, found, nextGeneration]
      show (row.credentialGeneration).getD 0 + 1 = generation + 1
      rw [isLast]
      rfl
    case isFalse =>
      exact consistent.removed other row generation number found isRemoved isLast isStored
  default := consistent.default
  bound := consistent.bound

/-- Fewer secrets are stored, those of the active accounts among them. -/
theorem shrink {secrets : Secrets} (covered : secrets.Covers state.activeCredentialReferences)
    (fewer : ∀ accountId number, secrets accountId number ≠ none →
      state.secrets accountId number ≠ none) :
    Consistent maxAuthenticated { state with secrets } where
  covered := covered
  generation := consistent.generation
  removed accountId row generation number found isRemoved isLast isStored :=
    consistent.removed accountId row generation number found isRemoved isLast
      (fewer accountId number isStored)
  default := consistent.default
  bound := consistent.bound

theorem prune : Consistent maxAuthenticated state.prune :=
  consistent.shrink consistent.covered.prune fun accountId number isStored => by
    rw [Generations.prune] at isStored
    split at isStored
    · exact isStored
    · exact absurd rfl isStored

/-- The secrets of an account out of use are deleted. -/
theorem removeAccount (found : state.accounts.get accountId = some row)
    (retired : row.state = .removing) :
    Consistent maxAuthenticated
      (state.removeAccount accountId) := by
  refine consistent.shrink (consistent.covered.remove ?_) fun other number isStored => ?_
  · rw [activeCredentialReferences, found]
    show (if row.isActive then row.credentialGeneration else none) = none
    rw [AccountRow.isActive, retired]
    rfl
  · rw [Generations.remove] at isStored
    split at isStored
    · exact absurd rfl isStored
    · exact isStored

/-- The row of an account is written. -/
theorem setRow {preferences : GatewayPreferences} (generation : row.credentialGeneration ≠ none)
    (covered : row.state = .active → ∀ number, row.credentialGeneration = some number →
      state.secrets accountId number ≠ none)
    (removed : row.state = .removed → ∀ number, state.secrets accountId number = none)
    (default : ∀ other, preferences.defaultAccountId = some other →
      other = accountId ∧ row.state = .active ∨ other ≠ accountId ∧ state.Active other)
    (bound : row.state = .active → state.Active accountId ∨ state.activeCount < maxAuthenticated) :
    Consistent maxAuthenticated
      { state with accounts := state.accounts.set accountId row, preferences } where
  covered := by
    refine consistent.covered.publish fun other number isCurrent => ?_
    obtain ⟨current, found, isActive, isNumber⟩ := activeCredentialReferences_eq_some.mp isCurrent
    rw [get_set] at found
    split at found
    case isTrue same =>
      cases found
      exact .inl (same ▸ covered isActive number isNumber)
    case isFalse =>
      exact .inr (activeCredentialReferences_eq_some.mpr ⟨current, found, isActive, isNumber⟩)
  generation other current found := by
    rw [get_set] at found
    split at found
    · cases found
      exact generation
    · exact consistent.generation other current found
  removed other current last number found isRemoved isLast isStored := by
    rw [get_set] at found
    split at found
    case isTrue same =>
      cases found
      exact absurd (removed isRemoved number) (same ▸ isStored)
    case isFalse =>
      exact consistent.removed other current last number found isRemoved isLast isStored
  default other isDefault := by
    rcases default other isDefault with ⟨rfl, isActive⟩ | ⟨apart, current, found, isActive⟩
    · exact ⟨row, get_set_self _ _ _, isActive⟩
    · refine ⟨current, ?_, isActive⟩
      rw [get_set_of_ne fun same => apart same.symm]
      exact found
  bound := by
    have activated (other : AccountId)
        (isActive : Active { state with accounts := state.accounts.set accountId row, preferences }
          other) : other = accountId ∧ row.state = .active ∨ state.Active other := by
      obtain ⟨current, found, isActive⟩ := isActive
      rw [get_set] at found
      split at found
      case isTrue same =>
        cases found
        exact .inl ⟨same.symm, isActive⟩
      case isFalse => exact .inr ⟨current, found, isActive⟩
    by_cases fits : row.state = .active ∧ ¬ state.Active accountId
    · have room := (bound fits.1).resolve_left fits.2
      have count := @activeCount_le state
        { state with accounts := state.accounts.set accountId row, preferences } [accountId]
        fun other isActive =>
          (activated other isActive).imp_left fun new => List.mem_singleton.mpr new.1
      rw [List.length_singleton, Nat.add_comm] at count
      exact count.trans room
    · have count := @activeCount_le state
        { state with accounts := state.accounts.set accountId row, preferences } []
        fun other isActive => .inr <| by
          rcases activated other isActive with ⟨rfl, rowActive⟩ | was
          · by_contra inactive
            exact fits ⟨rowActive, inactive⟩
          · exact was
      rw [List.length_nil, Nat.zero_add] at count
      exact count.trans consistent.bound

end

end Consistent

/-! ## The calls -/

section

variable (consistent : Consistent maxAuthenticated state)

include consistent

theorem Sound.finish {outcome : DirectoryOutcome}
    (leaves : Leaves state ⟨work.request, outcome, work.before⟩) :
    Sound maxAuthenticated (state.finish work outcome) where
  consistent := { consistent with }
  relies _ working := nomatch working
  leaves ended isEnded := by
    cases isEnded
    exact leaves

theorem Sound.setStage (ended : state.ended = none) {stage : DirectoryStage}
    (relies : Relies maxAuthenticated state { work with stage }) :
    Sound maxAuthenticated (state.setStage work stage) where
  consistent := { consistent with }
  relies other working := by
    cases working
    exact relies
  leaves other isEnded := nomatch ended.symm.trans isEnded

/-- A call that rejects leaves what an upsert would leave. -/
theorem Sound.rejected (leaves : ∀ input, work.request = .upsertAuthenticated input →
      state.LeavesRejected work.before reason) :
    Sound maxAuthenticated (state.reject work reason) := by
  refine .finish consistent ?_
  cases request : work.request with
  | upsertAuthenticated input => exact leaves input request
  | remove accountId expectedRevision => trivial
  | reconcile => trivial
  | cleanup => trivial

/-- A call that rejects before it has written anything. -/
theorem Sound.reject (before : work.before = state.secrets) (unwritten : reason ≠ .transaction) :
    Sound maxAuthenticated (state.reject work reason) := by
  have keeps : state.KeepsCurrent work.before := fun accountId number _ => by rw [before]
  refine .rejected consistent fun input _ => ?_
  cases reason with
  | aborted => exact before.symm
  | directory error => exact before.symm
  | put outcome =>
    cases outcome with
    | failed => exact before.symm
    | written => exact keeps
    | published => exact keeps
  | transaction => exact absurd rfl unwritten
  | abortedAfterPut => exact keeps
  | compensation => exact keeps
  | store => exact keeps
  | database => exact keeps

end

variable {input : Authentication}

section

variable (consistent : Consistent maxAuthenticated state)

include consistent

theorem sound_upsertPut (ended : state.ended = none)
    (isUpsert : work.request = .upsertAuthenticated input) (before : work.before = state.secrets)
    (outcome : StoreOutcome) :
    Sound maxAuthenticated (state.upsertPut work maxAuthenticated input outcome) := by
  rw [upsertPut]
  split
  · exact .reject consistent before nofun
  split
  · exact .reject consistent before nofun
  case isFalse notRemoving =>
    split
    · exact .reject consistent before nofun
    case isFalse room =>
      cases outcome with
      | written =>
        refine .setStage (consistent.put _) ended fun other isOther => ?_
        obtain rfl : input = other :=
          DirectoryRequest.upsertAuthenticated.inj (isUpsert.symm.trans isOther)
        refine ⟨rfl, Bool.not_eq_true _ ▸ notRemoving, rfl, ⟨{ input.secret with
          generation := nextGeneration (state.accounts.get input.accountId) }, ?_⟩, ?_⟩
        · rw [before]
          rfl
        · rw [Bool.and_eq_true, Bool.not_eq_true', decide_eq_true_eq, not_and, Nat.not_le] at room
          by_cases isActive : inState (state.accounts.get input.accountId) .active = true
          · exact .inl isActive
          · exact .inr (room (Bool.not_eq_true _ ▸ isActive))
      | failed => exact .reject consistent before nofun
      | published =>
        refine .rejected (consistent.put _) fun _ _ => ?_
        apply keepsCurrent_of_put
        rw [before]
        rfl

theorem sound_upsertTransact (ended : state.ended = none)
    (isUpsert : work.request = .upsertAuthenticated input) {existing : Option AccountRow}
    {generation : Nat}
    (relies : Relies maxAuthenticated state { work with stage := .stored existing generation })
    (succeeds : Bool) :
    Sound maxAuthenticated (state.upsertTransact work input existing generation succeeds) := by
  obtain ⟨rfl, notRemoving, rfl, ⟨value, put⟩, room⟩ := relies input isUpsert
  have isStored : state.secrets input.accountId
      (nextGeneration (state.accounts.get input.accountId)) ≠ none := by
    rw [put, Generations.put_self]
    exact Option.some_ne_none value
  have keeps := keepsCurrent_of_put put
  rw [upsertTransact]
  split
  · exact .rejected consistent fun _ _ => keeps
  split
  · have isActive : (authenticatedRow input (state.accounts.get input.accountId)
        (nextGeneration (state.accounts.get input.accountId)) state.nowMs).state = .active := by
      unfold authenticatedRow
      split <;> rfl
    have isCurrent : (authenticatedRow input (state.accounts.get input.accountId)
        (nextGeneration (state.accounts.get input.accountId)) state.nowMs).credentialGeneration =
          some (nextGeneration (state.accounts.get input.accountId)) := by
      unfold authenticatedRow
      split <;> rfl
    refine .setStage (consistent.setRow ?_ ?_ ?_ ?_ ?_) ended ?_
    · rw [isCurrent]
      exact Option.some_ne_none _
    · intro _ number isNumber
      obtain rfl := Option.some.inj (isCurrent.symm.trans isNumber)
      exact isStored
    · intro isRemoved
      cases isActive.symm.trans isRemoved
    · intro other isDefault
      by_cases same : other = input.accountId
      · exact .inl ⟨same, isActive⟩
      · rw [adoptDefault] at isDefault
        split at isDefault
        · exact absurd (Option.some.inj isDefault).symm same
        · exact .inr ⟨same, consistent.default other isDefault⟩
    · exact fun _ => room.imp_left inState_iff.mp
    · intro other isOther
      obtain rfl : input = other :=
        DirectoryRequest.upsertAuthenticated.inj (isUpsert.symm.trans isOther)
      exact ⟨_, get_set_self _ _ _, isActive⟩
  · exact .setStage consistent ended keeps

theorem sound_upsertCompensate (isUpsert : work.request = .upsertAuthenticated input)
    (relies : Relies maxAuthenticated state { work with stage := .compensating })
    (outcome : StoreOutcome) : Sound maxAuthenticated (state.upsertCompensate work outcome) := by
  have keeps : state.KeepsCurrent work.before := relies
  have anyhow : Sound maxAuthenticated (state.reject work .compensation) :=
    .rejected consistent fun _ _ => keeps
  unfold upsertCompensate
  split
  · exact anyhow
  cases outcome with
  | written =>
    refine .finish consistent.prune ?_
    rw [isUpsert]
    intro accountId number
    show state.secrets.prune state.activeCredentialReferences accountId number =
      if state.activeCredentialReferences accountId = some number then
        work.before accountId number else none
    rw [Generations.prune]
    split
    case isTrue isCurrent => exact keeps accountId number isCurrent
    case isFalse => rfl
  | failed => exact anyhow
  | published => exact .rejected consistent.prune fun _ _ => keeps.prune

theorem sound_upsertPrune (isUpsert : work.request = .upsertAuthenticated input)
    (relies : Relies maxAuthenticated state { work with stage := .committed })
    (outcome : StoreOutcome) :
    Sound maxAuthenticated (state.upsertPrune work input.accountId outcome) := by
  have postCommit {state : AccountStores} (consistent : Consistent maxAuthenticated state) :
      Sound maxAuthenticated (state.finish work (.postCommit input.accountId)) := by
    refine .finish consistent ?_
    rw [isUpsert]
    trivial
  unfold upsertPrune
  split
  · exact postCommit consistent
  cases outcome with
  | written =>
    obtain ⟨row, found, isActive⟩ := relies input isUpsert
    have binds : state.prune.bind input.accountId = .ok row := by
      have found : state.prune.accounts.get input.accountId = some row := found
      have current := consistent.generation input.accountId row found
      simp [bind, found, AccountRow.isActive, isActive, current]
    dsimp only
    rw [binds]
    refine .finish consistent.prune ?_
    rw [isUpsert]
    trivial
  | failed => exact postCommit consistent
  | published => exact postCommit consistent.prune

/-- A call other than an upsert rejects. -/
theorem Sound.rejectOther (other : ∀ input, work.request ≠ .upsertAuthenticated input)
    (reason : Rejection) : Sound maxAuthenticated (state.reject work reason) :=
  .rejected consistent fun input isUpsert => absurd isUpsert (other input)

theorem sound_endRemoval (ended : state.ended = none) (row : AccountRow) :
    Sound maxAuthenticated (state.endRemoval work row) := by
  cases request : work.request with
  | reconcile =>
    rw [endRemoval, request]
    refine .setStage consistent ended fun input isUpsert => ?_
    cases request.symm.trans isUpsert
  | upsertAuthenticated _ | remove _ _ | cleanup =>
    rw [endRemoval, request]
    refine .finish consistent ?_
    rw [request]
    trivial

/-- An account is taken out of use. -/
theorem Consistent.retireRow (found : state.accounts.get accountId = some row) :
    Consistent maxAuthenticated (state.retireRow accountId row) := by
  refine consistent.setRow ?_ nofun nofun (fun other isDefault => .inr ?_) nofun
  · exact consistent.generation accountId row found
  · dsimp only at isDefault
    split at isDefault
    · cases isDefault
    case isFalse apart =>
      exact ⟨fun same => apart (same ▸ isDefault), consistent.default other isDefault⟩

theorem sound_removeUnlocked (ended : state.ended = none)
    (other : ∀ input, work.request ≠ .upsertAuthenticated input) (accountId : AccountId)
    (expectedRevision : Nat) (succeeds : Bool) :
    Sound maxAuthenticated (state.removeUnlocked work accountId expectedRevision succeeds) := by
  unfold removeUnlocked
  split
  · exact .rejectOther consistent other _
  cases found : state.accounts.get accountId with
  | none => exact .rejectOther consistent other _
  | some row =>
    dsimp only
    split
    · exact .rejectOther consistent other _
    cases rowState : row.state with
    | removed => exact sound_endRemoval consistent ended row
    | removing => exact .setStage consistent ended ⟨other, row, found, rowState⟩
    | active =>
      dsimp only
      split
      · refine .setStage (consistent.retireRow found) ended ?_
        exact ⟨other, _, get_set_self _ _ _, rfl⟩
      · exact .rejectOther consistent other _

theorem sound_eraseSecrets (ended : state.ended = none)
    (relies : Relies maxAuthenticated state { work with stage := .removing accountId })
    (outcome : StoreOutcome) :
    Sound maxAuthenticated (state.eraseSecrets work accountId outcome) := by
  obtain ⟨other, row, found, retired⟩ := relies
  have erased := consistent.removeAccount found retired
  cases outcome with
  | written =>
    refine .setStage erased ended ⟨other, ⟨row, found, retired⟩, fun number => ?_⟩
    exact Generations.remove_self _ _ _
  | failed => exact .rejectOther consistent other _
  | published => exact .rejectOther erased other _

theorem sound_markRemoved (ended : state.ended = none)
    (relies : Relies maxAuthenticated state { work with stage := .erased accountId })
    (succeeds : Bool) : Sound maxAuthenticated (state.markRemoved work accountId succeeds) := by
  obtain ⟨other, ⟨row, found, retired⟩, erased⟩ := relies
  unfold markRemoved
  split
  · exact .rejectOther consistent other _
  split
  · exact .rejectOther consistent other _
  rw [found]
  dsimp only
  refine sound_endRemoval ?_ ?_ _
  case refine_2 => exact ended
  refine consistent.setRow ?_ nofun (fun _ => erased) (fun wanted isDefault => .inr ?_) nofun
  · exact consistent.generation accountId row found
  · obtain ⟨current, isCurrent, isActive⟩ := consistent.default wanted isDefault
    refine ⟨?_, current, isCurrent, isActive⟩
    rintro rfl
    rw [Option.some.inj (found.symm.trans isCurrent), isActive] at retired
    cases retired

theorem sound_prunePlainly (other : ∀ input, work.request ≠ .upsertAuthenticated input)
    {done : DirectoryOutcome} (leaves : Leaves state.prune ⟨work.request, done, work.before⟩)
    (outcome : StoreOutcome) : Sound maxAuthenticated (state.prunePlainly work outcome done) := by
  unfold prunePlainly
  split
  · exact .rejectOther consistent other _
  cases outcome with
  | written => exact .finish consistent.prune leaves
  | failed => exact .rejectOther consistent other _
  | published => exact .rejectOther consistent.prune other _

end

/-! ## The steps -/

theorem Sound.store (sound : Sound maxAuthenticated state) (ended : state.ended = none)
    (went : state.store maxAuthenticated outcome = some next) : Sound maxAuthenticated next := by
  unfold AccountStores.store at went
  cases working : state.work with
  | none =>
    rw [working] at went
    cases went
  | some work =>
    rw [working] at went
    have relies := sound.relies work working
    have consistent := sound.consistent
    obtain ⟨request, aborted, before, stage, rest⟩ := work
    dsimp only at went
    split at went
    · cases went
      exact sound_upsertPut consistent ended rfl relies outcome
    · cases went
      exact sound_upsertCompensate consistent rfl relies outcome
    · cases went
      exact sound_upsertPrune consistent rfl relies outcome
    · cases went
      refine sound_prunePlainly consistent ?_ ?_ outcome
      · exact fun _ same => nomatch same
      · trivial
    · cases went
      exact sound_eraseSecrets consistent ended relies outcome
    · split at went
      · cases went
        refine sound_prunePlainly consistent ?_ ?_ outcome
        · exact fun _ same => nomatch same
        · exact consistent.covered.exact_prune
      · cases went
    · cases went

theorem Sound.transact (sound : Sound maxAuthenticated state) (ended : state.ended = none)
    (went : state.transact succeeds = some next) : Sound maxAuthenticated next := by
  unfold AccountStores.transact at went
  cases working : state.work with
  | none =>
    rw [working] at went
    cases went
  | some work =>
    rw [working] at went
    have relies := sound.relies work working
    have consistent := sound.consistent
    obtain ⟨request, aborted, before, stage, rest⟩ := work
    dsimp only at went
    split at went
    · cases went
      exact sound_upsertTransact consistent ended rfl relies succeeds
    · cases went
      refine sound_removeUnlocked consistent ended ?_ _ _ succeeds
      exact fun _ same => nomatch same
    · cases went
      exact sound_markRemoved consistent ended relies succeeds
    · split at went
      · cases went
      · cases went
        refine sound_removeUnlocked consistent ended ?_ _ _ succeeds
        exact fun _ same => nomatch same
    · cases went

theorem Sound.call (sound : Sound maxAuthenticated state) (ended : state.ended = none)
    {request : DirectoryRequest} {aborted : Bool}
    (went : state.call request aborted = some next) : Sound maxAuthenticated next := by
  unfold AccountStores.call at went
  split at went
  · cases went
  · cases went
    exact {
      consistent := { sound.consistent with }
      relies := fun work working => by
        cases working
        exact fun _ same => nomatch same
      leaves := fun other isEnded => nomatch ended.symm.trans isEnded }
  · cases went
    exact {
      consistent := { sound.consistent with }
      relies := fun work working => by
        cases working
        exact (rfl : state.secrets = state.secrets)
      leaves := fun other isEnded => nomatch ended.symm.trans isEnded }

theorem Sound.abort (sound : Sound maxAuthenticated state) (ended : state.ended = none)
    (went : state.abort = some next) : Sound maxAuthenticated next := by
  unfold AccountStores.abort at went
  cases working : state.work with
  | none =>
    rw [working] at went
    cases went
  | some work =>
    rw [working] at went
    dsimp only at went
    split at went
    · cases went
    · cases went
      exact {
        consistent := { sound.consistent with }
        relies := fun other working' => by
          obtain rfl := Option.some.inj working'
          exact sound.relies work working
        leaves := fun other isEnded => nomatch ended.symm.trans isEnded }

/-- Every step keeps it. -/
theorem Sound.step (sound : Sound (clampMaxAuthenticated maxAuthenticated) state)
    (stepped : (accountStores maxAuthenticated).step state label = some next) :
    Sound (clampMaxAuthenticated maxAuthenticated) next := by
  have quiet : Sound (clampMaxAuthenticated maxAuthenticated) { state with ended := none } :=
    { consistent := { sound.consistent with }
      relies := sound.relies
      leaves := fun _ isEnded => nomatch isEnded }
  cases label with
  | call request aborted => exact quiet.call rfl stepped
  | abort => exact quiet.abort rfl stepped
  | store outcome => exact quiet.store rfl stepped
  | transact succeeds => exact quiet.transact rfl stepped
  | crash =>
    cases stepped
    exact {
      consistent := { sound.consistent with }
      relies := fun _ working => nomatch working
      leaves := fun _ isEnded => nomatch isEnded }
  | tick ms =>
    cases stepped
    exact {
      consistent := { sound.consistent with }
      relies := sound.relies
      leaves := fun _ isEnded => nomatch isEnded }

theorem sound_of_run {labels : List AccountStep} {final : AccountStores}
    (ran : (accountStores maxAuthenticated).run .initial labels = some final) :
    Sound (clampMaxAuthenticated maxAuthenticated) final :=
  Concurrent.invariant_of_run (fun sound stepped => sound.step stepped) ran .initial

/-! ## Accounts that come into use -/

/-- The credential store is no database. -/
theorem accounts_store (went : state.store maxAuthenticated outcome = some next) :
    next.accounts = state.accounts := by
  unfold AccountStores.store at went
  cases working : state.work with
  | none =>
    rw [working] at went
    cases went
  | some work =>
    rw [working] at went
    dsimp only at went
    split at went
    · cases went
      unfold upsertPut
      dsimp only
      split_ifs
      · rfl
      · rfl
      · rfl
      · cases outcome <;> rfl
    · cases went
      unfold upsertCompensate
      split
      · rfl
      · cases outcome <;> rfl
    · cases went
      unfold upsertPrune
      split
      · rfl
      · cases outcome with
        | written =>
          dsimp only
          split <;> rfl
        | failed => rfl
        | published => rfl
    · cases went
      unfold prunePlainly
      split
      · rfl
      · cases outcome <;> rfl
    · cases went
      cases outcome <;> rfl
    · split at went
      · cases went
        unfold prunePlainly
        split
        · rfl
        · cases outcome <;> rfl
      · cases went
    · cases went

theorem active_of_accounts (same : next.accounts = state.accounts)
    (isActive : next.Active accountId) : state.Active accountId := by
  rw [Active, same] at isActive
  exact isActive

/-- A row that is out of use takes no account into it. -/
theorem active_of_setRow {changed accountId : AccountId} {row : AccountRow}
    (retired : row.state ≠ .active) (set : next.accounts = state.accounts.set changed row)
    (isActive : next.Active accountId) : state.Active accountId := by
  obtain ⟨current, found, isActive⟩ := isActive
  rw [set, get_set] at found
  split at found
  · cases found
    exact absurd isActive retired
  · exact ⟨current, found, isActive⟩

theorem accounts_endRemoval (row : AccountRow) :
    (state.endRemoval work row).accounts = state.accounts := by
  unfold endRemoval
  split <;> rfl

theorem active_of_removeUnlocked {expectedRevision : Nat}
    (isActive : (state.removeUnlocked work removed expectedRevision succeeds).Active accountId) :
    state.Active accountId := by
  unfold removeUnlocked at isActive
  split at isActive
  · exact isActive
  cases found : state.accounts.get removed with
  | none =>
    rw [found] at isActive
    exact isActive
  | some row =>
    rw [found] at isActive
    dsimp only at isActive
    split at isActive
    · exact isActive
    cases rowState : row.state with
    | removed =>
      rw [rowState] at isActive
      exact active_of_accounts (accounts_endRemoval row) isActive
    | removing =>
      rw [rowState] at isActive
      exact isActive
    | active =>
      rw [rowState] at isActive
      dsimp only at isActive
      split at isActive
      · exact @active_of_setRow state _ removed accountId
          { row with state := .removing, revision := row.revision + 1 } nofun rfl isActive
      · exact isActive

theorem active_of_markRemoved
    (isActive : (state.markRemoved work removed succeeds).Active accountId) :
    state.Active accountId := by
  unfold markRemoved at isActive
  split at isActive
  · exact isActive
  split at isActive
  · exact isActive
  cases found : state.accounts.get removed with
  | none =>
    rw [found] at isActive
    exact isActive
  | some row =>
    rw [found] at isActive
    dsimp only at isActive
    refine active_of_setRow ?_ (accounts_endRemoval _) isActive
    exact nofun

/-- An account comes into use only where there is room for it. -/
theorem room_of_activated (sound : Sound (clampMaxAuthenticated maxAuthenticated) state)
    (stepped : (accountStores maxAuthenticated).step state label = some next)
    (inactive : ¬ state.Active accountId) (isActive : next.Active accountId) :
    state.activeCount < clampMaxAuthenticated maxAuthenticated := by
  cases label with
  | call request aborted =>
    change AccountStores.call _ request aborted = some next at stepped
    unfold AccountStores.call at stepped
    split at stepped
    · cases stepped
    · cases stepped
      exact absurd isActive inactive
    · cases stepped
      exact absurd isActive inactive
  | abort =>
    change AccountStores.abort _ = some next at stepped
    unfold AccountStores.abort at stepped
    split at stepped
    · split at stepped
      · cases stepped
      · cases stepped
        exact absurd isActive inactive
    · cases stepped
  | store outcome => exact absurd (active_of_accounts (accounts_store stepped) isActive) inactive
  | crash =>
    cases stepped
    exact absurd isActive inactive
  | tick ms =>
    cases stepped
    exact absurd isActive inactive
  | transact succeeds =>
    change AccountStores.transact _ succeeds = some next at stepped
    unfold AccountStores.transact at stepped
    dsimp only at stepped
    cases working : state.work with
    | none =>
      rw [working] at stepped
      cases stepped
    | some work =>
      rw [working] at stepped
      have relies := sound.relies work working
      obtain ⟨request, aborted, before, stage, rest⟩ := work
      dsimp only at stepped
      split at stepped
      case h_1 input existing generation =>
        cases stepped
        obtain ⟨rfl, -, -, -, room⟩ := relies input rfl
        unfold upsertTransact at isActive
        split at isActive
        · exact absurd isActive inactive
        split at isActive
        · obtain ⟨row, found, rowActive⟩ := isActive
          change (state.accounts.set input.accountId _).get accountId = some row at found
          rw [get_set] at found
          split at found
          case isTrue same =>
            refine room.resolve_left fun wasActive => inactive (same ▸ inState_iff.mp wasActive)
          case isFalse => exact absurd ⟨row, found, rowActive⟩ inactive
        · exact absurd isActive inactive
      · cases stepped
        exact absurd (active_of_removeUnlocked isActive) inactive
      · cases stepped
        exact absurd (active_of_markRemoved isActive) inactive
      · split at stepped
        · cases stepped
        · cases stepped
          exact absurd (active_of_removeUnlocked isActive) inactive
      · cases stepped

/-! ## Every run -/

/-- What holds of the stores wherever a run leads, and of the step that comes next. -/
theorem stores_of_run {labels : List AccountStep} {final : AccountStores}
    (ran : (accountStores maxAuthenticated).run .initial labels = some final) :
    (∀ accountId row, final.accounts.get accountId = some row → row.state = .active →
      ∃ generation, row.credentialGeneration = some generation ∧
        final.secrets accountId generation ≠ none) ∧
    (∀ accountId row number, final.accounts.get accountId = some row → row.state = .removed →
      final.secrets accountId number ≠ none →
        ∃ generation, row.credentialGeneration = some generation ∧ number = generation + 1) ∧
    (∀ ended, final.ended = some ended → Leaves final ended) ∧
    (∀ accountId, final.preferences.defaultAccountId = some accountId →
      final.Active accountId) ∧
    ∀ label next, (accountStores maxAuthenticated).step final label = some next →
      ∀ accountId, ¬ final.Active accountId → next.Active accountId →
        final.activeCount < clampMaxAuthenticated maxAuthenticated := by
  have sound := sound_of_run ran
  have consistent := sound.consistent
  refine ⟨?_, ?_, sound.leaves, consistent.default, ?_⟩
  · intro accountId row found isActive
    obtain ⟨generation, isCurrent⟩ :=
      Option.ne_none_iff_exists'.mp (consistent.generation accountId row found)
    have current : final.activeCredentialReferences accountId = some generation :=
      activeCredentialReferences_eq_some.mpr ⟨row, found, isActive, isCurrent⟩
    exact ⟨generation, isCurrent, consistent.covered accountId generation current⟩
  · intro accountId row number found isRemoved isStored
    obtain ⟨generation, isLast⟩ :=
      Option.ne_none_iff_exists'.mp (consistent.generation accountId row found)
    exact ⟨generation, isLast,
      consistent.removed accountId row generation number found isRemoved isLast isStored⟩
  · intro label next stepped accountId inactive isActive
    exact room_of_activated sound stepped inactive isActive

/-! ## Two runs -/

def octocat : Authentication where
  accountId := 0
  host := "github.com"
  userId := "1"
  environmentKind := .githubCom
  login := some "octocat"
  displayName := none
  secret := ⟨0, "token", none, none⟩

/-- A login that goes well. -/
def upsertSteps : List AccountStep :=
  [.call (.upsertAuthenticated octocat) false, .store .written, .transact true, .store .written]

/-- The removal of the account that `upsertSteps` makes. -/
def removeSteps : List AccountStep :=
  [.call (.remove 0 1) false, .transact true, .store .written, .transact true]

/-- After a failed transaction the secrets are as they were. -/
theorem stores_of_failedTransaction :
    ∃ final, (accountStores 1).run .initial (upsertSteps ++
        [.call (.upsertAuthenticated octocat) false, .store .written, .transact false,
          .store .written]) = some final ∧
      final.Active 0 ∧ final.secrets 0 1 ≠ none ∧ final.secrets 0 2 = none := by
  have runs : ((accountStores 1).run .initial (upsertSteps ++
      [.call (.upsertAuthenticated octocat) false, .store .written, .transact false,
        .store .written])).any (fun final =>
      decide (final.preferences.defaultAccountId = some 0 ∧ final.secrets 0 2 = none ∧
        (final.accounts.get 0).bind AccountRow.credentialGeneration = some 1)) = true := by
    decide
  obtain ⟨final, ran, holds⟩ := (Option.any_eq_true _ _).mp runs
  obtain ⟨isDefault, pruned, generation⟩ := of_decide_eq_true holds
  obtain ⟨stored, -, -, default, -⟩ := stores_of_run ran
  obtain ⟨row, found, isActive⟩ := default 0 isDefault
  obtain ⟨number, isCurrent, isStored⟩ := stored 0 row found isActive
  rw [found, Option.bind_some] at generation
  obtain rfl := Option.some.inj (isCurrent.symm.trans generation)
  exact ⟨final, ran, ⟨row, found, isActive⟩, isStored, pruned⟩

/-- A crash between the put and the transaction leaves the secret of a removed account that
was about to log in again, and a failed compensating prune that of an upsert that rejects. -/
theorem secrets_out_of_step :
    (∃ final, (accountStores 1).run .initial (upsertSteps ++ removeSteps ++
        [.call (.upsertAuthenticated octocat) false, .store .written, .crash]) = some final ∧
      ∃ row, final.accounts.get 0 = some row ∧ row.state = .removed ∧
        final.secrets 0 2 ≠ none) ∧
    ∃ final, (accountStores 1).run .initial [.call (.upsertAuthenticated octocat) false,
        .store .written, .transact false, .store .failed] = some final ∧
      ∃ ended reason, final.ended = some ended ∧ ended.request = .upsertAuthenticated octocat ∧
        ended.outcome = .rejected reason ∧ final.secrets ≠ ended.before := by
  refine ⟨⟨_, rfl, _, rfl, rfl, ?_⟩, _, rfl, _, _, rfl, rfl, rfl, fun same => ?_⟩
  · decide
  · have isStored := congrFun (congrFun same 0) 1
    cases isStored

end GhcGateway.Accounts.AccountStores
