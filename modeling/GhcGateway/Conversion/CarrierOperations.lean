/-
# Operations of the carrier store

The operations of the store in any order. A row that is not deleted keeps its content: it can
be completed and its expiry can move, and a complete row stays complete.
-/

import GhcGateway.Conversion.CarrierRows
import GhcGateway.Library.Fallible

namespace GhcGateway.Conversion

open Library CarrierTable CarrierTable

variable {other : CarrierRow}

/-! ## Tables -/

namespace CarrierTable

variable {second before first third after : CarrierTable}

/-- Every row of the table has become of a row of the earlier one. -/
def Descends (before after : CarrierTable) : Prop :=
  ∀ other ∈ after.rows, ∃ row ∈ before.rows, row.Becomes other

theorem Descends.refl (carriers : CarrierTable) : Descends carriers carriers :=
  fun row member => ⟨row, member, .refl row⟩

theorem Descends.trans (before : Descends first second) (after : Descends second third) :
    Descends first third := by
  intro other member
  obtain ⟨middle, middleMember, later⟩ := after other member
  obtain ⟨row, rowMember, earlier⟩ := before middle middleMember
  exact ⟨row, rowMember, earlier.trans later⟩

/-- Every row of the table is a row of the earlier one. -/
def Shrinks (before after : CarrierTable) : Prop := ∀ row ∈ after.rows, row ∈ before.rows

theorem Shrinks.refl (carriers : CarrierTable) : Shrinks carriers carriers := fun _ member => member

theorem Shrinks.trans (before : Shrinks first second) (after : Shrinks second third) :
    Shrinks first third :=
  fun row member => before row (after row member)

theorem shrinks_delete (carriers : CarrierTable) (condition : CarrierRow → Bool) :
    Shrinks carriers (carriers.delete condition) :=
  fun _ member => (Table.mem_delete.mp member).1

theorem Shrinks.descends (shrinks : Shrinks before after) : Descends before after :=
  fun row member => ⟨row, shrinks row member, .refl row⟩

/-- A row that is still there is what the earlier row has become. -/
theorem Descends.found (descends : Descends before after) {token : JsString} {row : CarrierRow}
    (found : before.find? token = some row) (still : after.find? token = some other) :
    row.Becomes other := by
  obtain ⟨rowMember, rfl⟩ := Table.find?_eq_some.mp found
  obtain ⟨otherMember, same⟩ := Table.find?_eq_some.mp still
  obtain ⟨origin, originMember, becomes⟩ := descends other otherMember
  have isOrigin : origin = row :=
    Table.eq_of_key_eq originMember rowMember (becomes.token_eq.symm.trans same)
  exact isOrigin ▸ becomes

theorem shrinks_foldl_remove (rows : List CarrierRow) (carriers : CarrierTable) :
    Shrinks carriers (rows.foldl (fun carriers row => remove carriers row.token) carriers) := by
  induction rows generalizing carriers with
  | nil => exact .refl carriers
  | cons row rows ih => exact (shrinks_delete carriers _).trans (ih _)

theorem shrinks_evictOverflow (limits : CarrierLimits) (carriers : CarrierTable)
    (incomingBytes : Nat) :
    Ensures (evictOverflow limits carriers incomingBytes) (Shrinks carriers) := by
  unfold evictOverflow
  apply ensures_ite
  · intro _
    exact ensures_ok (shrinks_foldl_remove _ carriers)
  · intro _
    exact ensures_error

theorem descends_completeRow (carriers : CarrierTable) (token : JsString) :
    Descends carriers (completeRow carriers token) := by
  intro other member
  obtain ⟨row, rowMember, rfl⟩ := Table.mem_update.mp member
  refine ⟨row, rowMember, ?_⟩
  split
  · exact ⟨.complete, row.expiresAtMs, fun _ => rfl, rfl⟩
  · exact .refl row

theorem ensures_promoteToken (binding : ReasoningCarrierBinding) (carriers : CarrierTable)
    (token : JsString) :
    Ensures (promoteToken binding carriers token) fun after =>
      Descends carriers after ∧ ∀ row ∈ after.rows, row.token = token → row.state = .complete := by
  unfold promoteToken
  split
  · exact ensures_error
  · next row found =>
    obtain ⟨rowMember, rfl⟩ := Table.find?_eq_some.mp found
    split
    · exact ensures_error
    · split
      · next complete =>
        refine ensures_ok ⟨.refl carriers, fun other member same => ?_⟩
        rw [Table.eq_of_key_eq member rowMember same]
        exact complete
      · refine ensures_ok ⟨descends_completeRow carriers row.token, fun other member same => ?_⟩
        obtain ⟨before, beforeMember, rfl⟩ := Table.mem_update.mp member
        split at same
        · next isRow => rw [if_pos isRow]
        · next apart => exact absurd same apart

/-- `promote` completes the rows of its tokens. -/
theorem ensures_promoteTokens (binding : ReasoningCarrierBinding) (tokens : List JsString)
    (carriers : CarrierTable) :
    Ensures (tokens.foldlM (promoteToken binding) carriers) fun after =>
      Descends carriers after ∧
        ∀ token ∈ tokens, ∀ row ∈ after.rows, row.token = token → row.state = .complete := by
  apply ensures_foldlM_visited fun visited after => Descends carriers after ∧
    ∀ token ∈ visited, ∀ row ∈ after.rows, row.token = token → row.state = .complete
  · intro visited state token rest _ before
    refine (ensures_promoteToken binding state token).mono fun after step => ?_
    refine ⟨before.1.trans step.1, ?_⟩
    intro other among row member same
    rcases List.mem_append.mp among with earlier | last
    · obtain ⟨origin, originMember, becomes⟩ := step.1 row member
      apply becomes.complete
      exact before.2 other earlier origin originMember (becomes.token_eq.symm.trans same)
    · exact step.2 row member (same.trans (List.mem_singleton.mp last))
  · exact ⟨.refl carriers, by simp⟩

theorem shrinks_foldl_discardToken (binding : ReasoningCarrierBinding) (tokens : List JsString)
    (carriers : CarrierTable) :
    Shrinks carriers (tokens.foldl (discardToken binding) carriers) := by
  induction tokens generalizing carriers with
  | nil => exact .refl carriers
  | cons token tokens ih =>
    have step : Shrinks carriers (discardToken binding carriers token) := by
      unfold discardToken
      split
      · exact .refl carriers
      · split
        · exact shrinks_delete carriers _
        · exact .refl carriers
    exact step.trans (ih _)

/-- A row of the table has the id, the number or the token of another row. -/
def Taken (carriers : CarrierTable) (row : CarrierRow) : Prop :=
  ∃ other ∈ carriers.rows, other.carrierId = row.carrierId ∨
    other.insertionSeq = row.insertionSeq ∨ other.token = row.token

/-- A row is inserted if none of its keys is taken. -/
theorem add_cases (carriers : CarrierTable) (row : CarrierRow) :
    Taken carriers row ∧ add carriers row = .error .constraint ∨
      ∃ free, ¬ Taken carriers row ∧ add carriers row = .ok (carriers.insert row free) := by
  unfold add
  split
  · next taken =>
    simp only [List.any_eq_true, Bool.or_eq_true, decide_eq_true_eq] at taken
    obtain ⟨other, member, same⟩ := taken
    refine .inl ⟨⟨other, member, ?_⟩, rfl⟩
    exact same.imp id .inl
  · next apart =>
    simp only [List.any_eq_true, Bool.or_eq_true, decide_eq_true_eq, not_exists, not_and,
      not_or] at apart
    split
    · next free =>
      refine .inr ⟨free, ?_, rfl⟩
      rintro ⟨other, member, sameId | sameSeq | sameToken⟩
      · exact (apart other member).1 sameId
      · exact (apart other member).2 sameSeq
      · exact Table.find?_eq_none.mp free other member sameToken
    · next other found =>
      obtain ⟨member, same⟩ := Table.find?_eq_some.mp found
      exact .inl ⟨⟨other, member, .inr (.inr same)⟩, rfl⟩

end CarrierTable

/-! ## Operations -/

inductive CarrierOperation
  | claim (host : CarrierHost) (token accountId : JsString) (wireProtocol : InferenceProtocol)
  | create (host : CarrierHost) (input : ReasoningCarrierInput)
  | resolve (host : CarrierHost) (token : JsString) (binding : ReasoningCarrierBinding)
  | promote (host : CarrierHost) (tokens : List JsString) (binding : ReasoningCarrierBinding)
  | discard (tokens : List JsString) (binding : ReasoningCarrierBinding)
  | clearAccount (accountId : JsString)
  | clearAll
  | setTtlDays (host : CarrierHost) (ttlDays : Int)

namespace CarrierStore

section Runs

variable (urlOrigin : JsString → Option JsString) (limits : CarrierLimits)

/-- The store after a call, whether it returns or throws. -/
def after (store : CarrierStore) : CarrierOperation → CarrierStore
  | .claim host token accountId wireProtocol => (claim host token accountId wireProtocol store).2
  | .create host input => (create urlOrigin limits host input store).2
  | .resolve host token binding => (resolve urlOrigin limits host token binding store).2
  | .promote host tokens binding => (promote urlOrigin host tokens binding store).2
  | .discard tokens binding => (discard urlOrigin tokens binding store).2
  | .clearAccount accountId => (clearAccount accountId store).2
  | .clearAll => (clearAll store).2
  | .setTtlDays host ttlDays => (setTtlDays host ttlDays store).2

def afterAll (store : CarrierStore) (operations : List CarrierOperation) : CarrierStore :=
  operations.foldl (after urlOrigin limits) store

/-- What is left when `create` inserts its row. -/
def makeRoom (host : CarrierHost) (incomingBytes : Nat) (store : CarrierStore) :
    Except CarrierError CarrierTable :=
  evictOverflow limits (expire store.carriers host.started) incomingBytes

/-- A call does not delete the row of a token: the row is there when it returns, and where the
call inserts a row, it is there just before. -/
structure Spares (token : JsString) (store : CarrierStore) (operation : CarrierOperation) :
    Prop where
  remains : (after urlOrigin limits store operation).carriers.find? token ≠ none
  outlivesEviction : ∀ host input payloadBytes projectionBytes kept,
    operation = .create host input →
    prepare urlOrigin limits host input = .ok (payloadBytes, projectionBytes) →
    makeRoom limits host (payloadBytes.length + projectionBytes.length) store = .ok kept →
    kept.find? token ≠ none

/-- No call of a run deletes the row. -/
def SparesAll (token : JsString) : CarrierStore → List CarrierOperation → Prop
  | _, [] => True
  | store, operation :: operations =>
    Spares urlOrigin limits token store operation ∧
      SparesAll token (after urlOrigin limits store operation) operations

def Promotes (token : JsString) (store : CarrierStore) (operation : CarrierOperation) : Prop :=
  ∃ host tokens binding, operation = .promote host tokens binding ∧ token ∈ tokens ∧
    (promote urlOrigin host tokens binding store).1 = .ok ()

def PromotedWithin (token : JsString) : CarrierStore → List CarrierOperation → Prop
  | _, [] => False
  | store, operation :: operations =>
    Promotes urlOrigin token store operation ∨
      PromotedWithin token (after urlOrigin limits store operation) operations

end Runs

/-! ## Creation -/

section Creation

variable {urlOrigin : JsString → Option JsString} {limits : CarrierLimits} {host : CarrierHost}
variable {input : ReasoningCarrierInput} {store : CarrierStore}
variable {payloadBytes projectionBytes : List UInt8} {error : CarrierError}

theorem create_of_not_prepared (refused : prepare urlOrigin limits host input = .error error) :
    create urlOrigin limits host input store = (.error error, store) := by
  rw [create, refused]

theorem create_of_no_room
    (prepared : prepare urlOrigin limits host input = .ok (payloadBytes, projectionBytes))
    (full : makeRoom limits host (payloadBytes.length + projectionBytes.length) store =
      .error error) : create urlOrigin limits host input store = (.error error, store) := by
  have failed : insertRow limits host store.ttlMs input payloadBytes projectionBytes
      store.carriers = .error error := by
    unfold makeRoom at full
    simp only [insertRow, full, bind, Except.bind]
  rw [create, prepared]
  dsimp only
  rw [transaction, failed]

theorem create_of_room {kept : CarrierTable}
    (prepared : prepare urlOrigin limits host input = .ok (payloadBytes, projectionBytes))
    (room : makeRoom limits host (payloadBytes.length + projectionBytes.length) store = .ok kept) :
    create urlOrigin limits host input store =
      match add kept (newRow host store.ttlMs input payloadBytes projectionBytes
        (nextSeq kept)) with
      | .error error => (.error error, store)
      | .ok carriers => resolveInternal urlOrigin limits host (carrierToken input host.newId)
          input.binding (input.state = .complete) { store with carriers := carriers } := by
  have inserted : insertRow limits host store.ttlMs input payloadBytes projectionBytes
      store.carriers = add kept (newRow host store.ttlMs input payloadBytes
        projectionBytes (nextSeq kept)) := by
    unfold makeRoom at room
    simp only [insertRow, room, bind, Except.bind]
  cases added : add kept (newRow host store.ttlMs input payloadBytes projectionBytes
    (nextSeq kept)) with
  | error error => simp only [create, prepared, transaction, inserted, added]
  | ok carriers => simp only [create, prepared, transaction, inserted, added]

end Creation

/-! ## Rows through a run -/

section Kept

variable {urlOrigin : JsString → Option JsString} {limits : CarrierLimits}
variable {store : CarrierStore} {token : JsString} {row : CarrierRow} {operation : CarrierOperation}

theorem shrinks_resolveInternal (host : CarrierHost) (asked : JsString)
    (binding : ReasoningCarrierBinding) (requireComplete : Bool) (store : CarrierStore) :
    CarrierTable.Shrinks store.carriers
      (resolveInternal urlOrigin limits host asked binding requireComplete store).2.carriers := by
  unfold resolveInternal
  split
  · exact .refl _
  · split
    · exact .refl _
    · exact shrinks_delete _ _

theorem shrinks_claim (host : CarrierHost) (asked accountId : JsString)
    (wireProtocol : InferenceProtocol) (store : CarrierStore) :
    CarrierTable.Shrinks store.carriers
      (claim host asked accountId wireProtocol store).2.carriers := by
  unfold claim
  split
  · exact .refl _
  · dsimp only
    split
    · exact shrinks_delete _ _
    · split
      · exact shrinks_delete _ _
      · exact shrinks_delete _ _

theorem descends_promote (host : CarrierHost) (tokens : List JsString)
    (binding : ReasoningCarrierBinding) (store : CarrierStore) :
    CarrierTable.Descends store.carriers
      (promote urlOrigin host tokens binding store).2.carriers := by
  unfold promote
  split
  · exact .refl _
  · unfold transaction
    split
    · exact .refl _
    · next carriers promoted =>
      exact (shrinks_delete _ _).descends.trans
        (ensures_promoteTokens binding _ _ carriers promoted).1

theorem shrinks_discard (tokens : List JsString) (binding : ReasoningCarrierBinding)
    (store : CarrierStore) :
    CarrierTable.Shrinks store.carriers (discard urlOrigin tokens binding store).2.carriers := by
  unfold discard
  split
  · exact .refl _
  · exact shrinks_foldl_discardToken binding _ _

theorem shrinks_clearAccount (accountId : JsString) (store : CarrierStore) :
    CarrierTable.Shrinks store.carriers (clearAccount accountId store).2.carriers := by
  unfold clearAccount
  split
  · exact .refl _
  · exact shrinks_delete _ _

theorem descends_setTtlDays (host : CarrierHost) (ttlDays : Int) (store : CarrierStore) :
    CarrierTable.Descends store.carriers (setTtlDays host ttlDays store).2.carriers := by
  unfold setTtlDays
  split
  · exact .refl _
  · refine CarrierTable.Descends.trans ?_ (shrinks_delete _ _).descends
    intro other member
    obtain ⟨before, beforeMember, rfl⟩ := Table.mem_updateAll.mp member
    exact ⟨before, beforeMember, before.state, _, id, rfl⟩

theorem complete_of_promotes (promotes : Promotes urlOrigin token store operation)
    (found : (after urlOrigin limits store operation).carriers.find? token = some row) :
    row.state = .complete := by
  obtain ⟨host, tokens, binding, rfl, among, answered⟩ := promotes
  change (promote urlOrigin host tokens binding store).2.carriers.find? token = some row at found
  unfold promote transaction at answered found
  cases valid : validateBinding urlOrigin binding with
  | error error =>
    rw [valid] at answered
    cases answered
  | ok =>
    rw [valid] at answered found
    dsimp only at answered found
    cases promoted : tokens.eraseDups.foldlM (promoteToken binding)
        (expire store.carriers host.started) with
    | error error =>
      rw [promoted] at answered
      cases answered
    | ok carriers =>
      rw [promoted] at found
      obtain ⟨member, same⟩ := Table.find?_eq_some.mp found
      exact (ensures_promoteTokens binding _ _ carriers promoted).2 token
        (List.mem_eraseDups.mpr among) row member same

/-- A row that `create` does not delete stays what it was: no other row takes its token. -/
theorem becomes_of_create {host : CarrierHost} {input : ReasoningCarrierInput}
    (found : store.carriers.find? token = some row)
    (spares : Spares urlOrigin limits token store (.create host input))
    (still : (create urlOrigin limits host input store).2.carriers.find? token = some other) :
    row.Becomes other := by
  have outlives := spares.outlivesEviction host input
  have unchanged (same : (create urlOrigin limits host input store).2 = store) :
      row.Becomes other := by
    rw [same] at still
    exact (CarrierTable.Descends.refl _).found found still
  cases prepared : prepare urlOrigin limits host input with
  | error error =>
    apply unchanged
    rw [create_of_not_prepared prepared]
  | ok bytes =>
    obtain ⟨payloadBytes, projectionBytes⟩ := bytes
    cases room : makeRoom limits host (payloadBytes.length + projectionBytes.length) store with
    | error error =>
      apply unchanged
      rw [create_of_no_room prepared room]
    | ok kept =>
      obtain ⟨keptRow, isKept⟩ := Option.ne_none_iff_exists'.mp (outlives _ _ _ rfl prepared room)
      have keptBecomes : row.Becomes keptRow :=
        ((shrinks_delete _ _).trans
          (shrinks_evictOverflow limits _ _ kept room)).descends.found found isKept
      rcases add_cases kept (newRow host store.ttlMs input payloadBytes
        projectionBytes (nextSeq kept)) with ⟨-, failed⟩ | ⟨free, -, added⟩
      · apply unchanged
        rw [create_of_room prepared room, failed]
      · rw [create_of_room prepared room, added] at still
        have inserted (new : CarrierRow) (free : kept.find? new.token = none) :
            (kept.insert new free).find? token = some keptRow := by
          rw [Table.find?_insert_of_ne, isKept]
          intro same
          rw [same, isKept] at free
          cases free
        exact keptBecomes.trans
          ((shrinks_resolveInternal _ _ _ _ _).descends.found (inserted _ free) still)

/-- A row that a call does not delete stays what it was. -/
theorem becomes_of_spares (found : store.carriers.find? token = some row)
    (spares : Spares urlOrigin limits token store operation) :
    ∃ other, (after urlOrigin limits store operation).carriers.find? token = some other ∧
      row.Becomes other := by
  obtain ⟨other, still⟩ := Option.ne_none_iff_exists'.mp spares.remains
  refine ⟨other, still, ?_⟩
  cases operation with
  | claim host asked accountId wireProtocol =>
    exact (shrinks_claim host asked accountId wireProtocol store).descends.found found still
  | create host input => exact becomes_of_create found spares still
  | resolve host asked binding =>
    exact (shrinks_resolveInternal host asked binding true store).descends.found found still
  | promote host tokens binding =>
    exact (descends_promote host tokens binding store).found found still
  | discard tokens binding =>
      exact (shrinks_discard tokens binding store).descends.found found still
  | clearAccount accountId =>
      exact (shrinks_clearAccount accountId store).descends.found found still
  | clearAll => cases still
  | setTtlDays host ttlDays => exact (descends_setTtlDays host ttlDays store).found found still

/-- A row that no call of a run deletes stays what it was, and is complete once it has been
promoted. -/
theorem becomes_of_sparesAll {operations : List CarrierOperation}
    (found : store.carriers.find? token = some row)
    (spares : SparesAll urlOrigin limits token store operations) :
    ∃ other, (afterAll urlOrigin limits store operations).carriers.find? token = some other ∧
      row.Becomes other ∧
      (PromotedWithin urlOrigin limits token store operations → other.state = .complete) := by
  induction operations generalizing store row with
  | nil => exact ⟨row, found, .refl row, False.elim⟩
  | cons operation operations ih =>
    obtain ⟨next, isNext, becomes⟩ := becomes_of_spares found spares.1
    obtain ⟨other, isOther, later, complete⟩ := ih isNext spares.2
    refine ⟨other, isOther, becomes.trans later, ?_⟩
    intro promoted
    cases promoted with
    | inl now => exact later.complete (complete_of_promotes now isNext)
    | inr within => exact complete within

end Kept

end CarrierStore

end GhcGateway.Conversion
