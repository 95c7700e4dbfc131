/-
# Whose carriers the store gives out

What holds after any calls of a store that was empty at first. A row is in the table
because a call created it and no call has removed it since: it has not expired, and was
neither evicted, discarded nor cleared. It is complete because it was created so or has
been promoted. So `resolve` and `claim` give out what was created for the binding they
are asked for, if the bindings are read as they were bound; a binding with a NUL is
taken for a shorter one. The table never holds more bytes than the limit.
-/

import GhcGateway.Conversion.CarrierCreation

namespace GhcGateway.Conversion

open Library CarrierTable CarrierTable

/-! ## Tables -/

namespace CarrierTable

/-- A table that descends from another holds no more bytes. -/
theorem Descends.storedBytes_le {before after : CarrierTable} (descends : Descends before after) :
    after.storedBytes ≤ before.storedBytes := by
  have keyed (carriers : CarrierTable) : carriers.storedBytes =
      ((carriers.rows.map fun row => (row.token, row.storedBytes)).map Prod.snd).sum := by
    rw [List.map_map]
    rfl
  have single : (after.rows.map fun row => (row.token, row.storedBytes)).Nodup := by
    refine List.Nodup.of_map Prod.fst ?_
    rw [List.map_map]
    exact after.unique
  have among : (after.rows.map fun row => (row.token, row.storedBytes)) ⊆
      before.rows.map fun row => (row.token, row.storedBytes) := by
    intro pair member
    obtain ⟨other, otherMember, rfl⟩ := List.mem_map.mp member
    obtain ⟨row, rowMember, _, _, -, rfl⟩ := descends other otherMember
    exact List.mem_map.mpr ⟨row, rowMember, rfl⟩
  obtain ⟨kept, perm, sublist⟩ := List.subperm_of_subset single among
  rw [keyed, keyed, ← (perm.map Prod.snd).sum_eq]
  exact (sublist.map Prod.snd).sum_le_sum fun _ _ => Nat.zero_le _

/-- After the eviction there is room for what comes in. -/
theorem room_evictOverflow (limits : CarrierLimits) (carriers : CarrierTable)
    (incomingBytes : Nat) :
    Ensures (evictOverflow limits carriers incomingBytes) fun kept =>
      kept.storedBytes + incomingBytes ≤ limits.maxStoredBytes := by
  unfold evictOverflow
  refine ensures_ite (fun enough => ensures_ok ?_) fun _ => ensures_error
  obtain ⟨others, whole⟩ := Eviction.oldestExceeding_prefix CarrierRow.storedBytes
    (carriers.storedBytes + incomingBytes - limits.maxStoredBytes : Int)
    (carriers.orderedBy CarrierRow.insertionSeq)
  have perm := whole ▸ carriers.perm_orderedBy CarrierRow.insertionSeq
  have counted := Table.total_delete_mem perm (fun row => decide_eq_true_iff)
    CarrierRow.storedBytes
  rw [foldl_remove_eq]
  rw [Eviction.weighed] at enough
  unfold storedBytes at enough counted ⊢
  omega

/-- `promote` leaves the rows of other tokens as they are. -/
theorem ensures_promoteTokens_of_mem (binding : ReasoningCarrierBinding) (tokens : List JsString)
    (carriers : CarrierTable) :
    Ensures (tokens.foldlM (promoteToken binding) carriers) fun after =>
      ∀ other ∈ after.rows, ∃ row ∈ carriers.rows, row.Becomes other ∧
        (row = other ∨ other.token ∈ tokens) := by
  refine ensures_foldlM (fun after : CarrierTable => ∀ other ∈ after.rows, ∃ row ∈ carriers.rows,
    row.Becomes other ∧ (row = other ∨ other.token ∈ tokens)) ?_
      fun row member => ⟨row, member, .refl row, .inl rfl⟩
  intro current token among earlier
  unfold promoteToken
  split
  · exact ensures_error
  · refine ensures_ite (fun _ => ensures_error) fun _ => ensures_ite (fun _ => ensures_ok earlier)
      fun _ => ensures_ok fun other member => ?_
    obtain ⟨middle, middleMember, rfl⟩ := Table.mem_update.mp member
    obtain ⟨row, rowMember, becomes, same⟩ := earlier middle middleMember
    split
    · next isToken =>
      exact ⟨row, rowMember, becomes.trans ⟨.complete, middle.expiresAtMs, fun _ => rfl, rfl⟩,
        .inr (isToken ▸ among)⟩
    · exact ⟨row, rowMember, becomes, same⟩

/-- The row of a token that is complete and belongs to a binding. -/
def Granted (binding : ReasoningCarrierBinding) (carriers : CarrierTable) (token : JsString) :
    Prop :=
  ∃ row, carriers.find? token = some row ∧ row.binding.read = binding ∧ row.state = .complete

theorem ensures_promoteToken_granted (binding : ReasoningCarrierBinding) (carriers : CarrierTable)
    (token : JsString) :
    Ensures (promoteToken binding carriers token) fun after =>
      Granted binding after token ∧
        ∀ other, Granted binding carriers other → Granted binding after other := by
  unfold promoteToken
  split
  · exact ensures_error
  · next row found =>
    refine ensures_ite (fun _ => ensures_error) fun same => ?_
    rw [ne_eq, not_not] at same
    refine ensures_ite (fun complete => ensures_ok ⟨⟨row, found, same, complete⟩, fun _ => id⟩)
      fun _ => ensures_ok ⟨⟨{ row with state := .complete }, ?_, same, rfl⟩, ?_⟩
    · rw [completeRow, Table.find?_update_self, found]
      rfl
    · rintro other ⟨before, isBefore, belongs, complete⟩
      refine ⟨if before.token = token then { before with state := .complete } else before, ?_, ?_,
        ?_⟩
      · rw [completeRow, Table.find?_update, isBefore]
        rfl
      · split <;> exact belongs
      · split
        · rfl
        · exact complete

/-- `promote` promotes every token it is given. -/
theorem ensures_promoteTokens_granted (binding : ReasoningCarrierBinding) (tokens : List JsString)
    (carriers : CarrierTable) :
    Ensures (tokens.foldlM (promoteToken binding) carriers) fun after =>
      ∀ token ∈ tokens, Granted binding after token := by
  refine ensures_foldlM_visited (fun visited (after : CarrierTable) =>
    ∀ token ∈ visited, Granted binding after token) ?_ (by rintro token ⟨⟩)
  intro visited current token rest _ before
  refine (ensures_promoteToken_granted binding current token).mono fun after step other among => ?_
  rcases List.mem_append.mp among with earlier | last
  · exact step.2 other (before other earlier)
  · rw [List.mem_singleton.mp last]
    exact step.1

end CarrierTable

namespace CarrierStore

variable {operations : List CarrierOperation} {host : CarrierHost} {input : ReasoningCarrierInput}
  {wireProtocol : InferenceProtocol} {accountId : JsString} {ttlMs : Int} {carriers : CarrierTable}
  {row : CarrierRow}

/-! ## What a call leaves in the table -/

section Calls

variable (urlOrigin : JsString → Option JsString) (limits : CarrierLimits)
  {binding : ReasoningCarrierBinding} {tokens : List JsString} {asked : JsString}

def Inserts (token : JsString) (store : CarrierStore) (operation : CarrierOperation) : Prop :=
  ∃ host input payloadBytes projectionBytes carriers, operation = .create host input ∧
    token = carrierToken input host.newId ∧
    prepare urlOrigin limits host input = .ok (payloadBytes, projectionBytes) ∧
    insertRow limits host store.ttlMs input payloadBytes projectionBytes store.carriers =
      .ok carriers

/-- What removes a row: its time has come when the call expires rows, it is evicted for a row
that is created, it is discarded while partial, or its account or everything is cleared. -/
def Deletes (row : CarrierRow) (store : CarrierStore) : CarrierOperation → Prop
  | .claim host token _ _ => (∃ parsed, parseToken token = .ok parsed) ∧
      row.expiresAtMs ≤ host.cleaned
  | .create host input => ∃ payloadBytes projectionBytes carriers,
      prepare urlOrigin limits host input = .ok (payloadBytes, projectionBytes) ∧
      insertRow limits host store.ttlMs input payloadBytes projectionBytes store.carriers =
        .ok carriers ∧
      (row.expiresAtMs ≤ host.started ∨ row.expiresAtMs ≤ host.cleaned ∨
        row ∈ evicted limits (expire store.carriers host.started)
          (payloadBytes.length + projectionBytes.length))
  | .resolve host token binding => validateBinding urlOrigin binding = .ok () ∧
      (∃ parsed, parseToken token = .ok parsed) ∧ row.expiresAtMs ≤ host.cleaned
  | .promote host tokens binding => (promote urlOrigin host tokens binding store).1 = .ok () ∧
      row.expiresAtMs ≤ host.started
  | .discard tokens binding => validateBinding urlOrigin binding = .ok () ∧ row.token ∈ tokens ∧
      row.binding.read = binding ∧ row.state = .partialState
  | .clearAccount accountId => accountId ≠ [] ∧ row.binding.OfAccount accountId
  | .clearAll => True
  | .setTtlDays host ttlDays => 0 < ttlDays ∧ ttlDays ≤ 9007199254740991 ∧
      row.createdAtMs + ttlDays * 86400000 ≤ host.started

/-- The call leaves the row of a token in the table, is none that removes it, and inserts no
other. -/
structure Leaves (token : JsString) (store : CarrierStore) (operation : CarrierOperation) :
    Prop where
  stays : ∃ row ∈ store.carriers.rows, ∃ other ∈
    (after urlOrigin limits store operation).carriers.rows,
    row.Becomes other ∧ other.token = token ∧ ¬ Deletes urlOrigin limits row store operation
  noOther : ¬ Inserts urlOrigin limits token store operation

/-- All calls of a run leave the row of a token in the table. -/
def LeavesAll (token : JsString) : CarrierStore → List CarrierOperation → Prop
  | _, [] => True
  | store, operation :: operations =>
    Leaves urlOrigin limits token store operation ∧
      LeavesAll token (after urlOrigin limits store operation) operations

variable {urlOrigin limits} {store : CarrierStore} {operation : CarrierOperation}
  {other : CarrierRow}

/-- The row of a call comes from an earlier one, which the call does not remove. -/
structure Stems (urlOrigin : JsString → Option JsString) (limits : CarrierLimits)
    (store : CarrierStore) (operation : CarrierOperation) (other : CarrierRow) : Prop where
  earlier : ∃ row ∈ store.carriers.rows, row.Becomes other ∧
    ¬ Deletes urlOrigin limits row store operation ∧
    (other.state = .complete → row.state = .complete ∨
      Promotes urlOrigin other.token store operation)
  noOther : ¬ Inserts urlOrigin limits other.token store operation

/-- A call that inserts nothing leaves no other rows. -/
theorem stems_of_mem (member : other ∈ store.carriers.rows)
    (notDeleted : ¬ Deletes urlOrigin limits other store operation)
    (notInserted : ¬ Inserts urlOrigin limits other.token store operation) :
    Stems urlOrigin limits store operation other :=
  ⟨⟨other, member, .refl other, notDeleted, .inl⟩, notInserted⟩

theorem not_deletes_claim
    (member : other ∈ (claim host asked accountId wireProtocol store).2.carriers.rows) :
    ¬ Deletes urlOrigin limits other store (.claim host asked accountId wireProtocol) := by
  rintro ⟨⟨parsed, isParsed⟩, expired⟩
  have cleaned :
      (claim host asked accountId wireProtocol store).2 = store.cleanup host.cleaned := by
    unfold claim
    rw [isParsed]
    dsimp only
    split
    · rfl
    · split
      · rfl
      · rfl
  rw [cleaned] at member
  exact of_decide_eq_false (Table.mem_delete.mp member).2 expired

theorem not_deletes_resolve
    (member : other ∈ (resolve urlOrigin limits host asked binding store).2.carriers.rows) :
    ¬ Deletes urlOrigin limits other store (.resolve host asked binding) := by
  rintro ⟨valid, ⟨parsed, isParsed⟩, expired⟩
  unfold resolve resolveInternal at member
  rw [valid, isParsed] at member
  exact of_decide_eq_false (Table.mem_delete.mp member).2 expired

theorem not_mem_foldl_discardToken
    (left : row ∈ (tokens.foldl (discardToken binding) carriers).rows)
    (bound : row.binding.read = binding) (unfinished : row.state = .partialState) :
    row.token ∉ tokens := by
  induction tokens generalizing carriers with
  | nil => exact List.not_mem_nil
  | cons token tokens ih =>
    rw [List.mem_cons, not_or]
    refine ⟨fun same => ?_, ih left⟩
    have still := shrinks_foldl_discardToken binding tokens _ row left
    have member : row ∈ carriers.rows :=
      shrinks_foldl_discardToken binding [token] carriers row still
    unfold discardToken at still
    rw [← same, Table.find?_eq_some.mpr ⟨member, rfl⟩] at still
    dsimp only at still
    rw [if_pos ⟨bound, unfinished⟩] at still
    exact of_decide_eq_false (Table.mem_delete.mp still).2 rfl

theorem not_deletes_discard
    (member : other ∈ (discard urlOrigin tokens binding store).2.carriers.rows) :
    ¬ Deletes urlOrigin limits other store (.discard tokens binding) := by
  rintro ⟨valid, among, bound, unfinished⟩
  unfold discard at member
  rw [valid] at member
  exact not_mem_foldl_discardToken member bound unfinished (List.mem_eraseDups.mpr among)

theorem not_deletes_clearAccount (member : other ∈ (clearAccount accountId store).2.carriers.rows) :
    ¬ Deletes urlOrigin limits other store (.clearAccount accountId) := by
  rintro ⟨named, ofAccount⟩
  unfold clearAccount at member
  rw [if_neg named] at member
  exact of_decide_eq_false (Table.mem_delete.mp member).2 ofAccount

theorem stems_promote
    (member : other ∈ (promote urlOrigin host tokens binding store).2.carriers.rows) :
    Stems urlOrigin limits store (.promote host tokens binding) other := by
  have notInserted : ¬ Inserts urlOrigin limits other.token store
      (.promote host tokens binding) := by
    rintro ⟨_, _, _, _, _, ⟨⟩, -⟩
  have answer : Promotes urlOrigin other.token store (.promote host tokens binding) ↔
      other.token ∈ tokens ∧ (promote urlOrigin host tokens binding store).1 = .ok () := by
    constructor
    · rintro ⟨_, _, _, ⟨⟩, among, answered⟩
      exact ⟨among, answered⟩
    · rintro ⟨among, answered⟩
      exact ⟨host, tokens, binding, rfl, among, answered⟩
  refine ⟨?_, notInserted⟩
  rw [answer]
  show ∃ row ∈ store.carriers.rows, row.Becomes other ∧
    ¬ ((promote urlOrigin host tokens binding store).1 = .ok () ∧
      row.expiresAtMs ≤ host.started) ∧ _
  unfold promote transaction at member ⊢
  cases valid : validateBinding urlOrigin binding with
  | error error =>
    rw [valid] at member
    exact ⟨other, member, .refl other, by rintro ⟨⟨⟩, -⟩, .inl⟩
  | ok =>
    rw [valid] at member
    dsimp only at member ⊢
    cases promoted : tokens.eraseDups.foldlM (promoteToken binding)
        (expire store.carriers host.started) with
    | error error =>
      rw [promoted] at member
      exact ⟨other, member, .refl other, by rintro ⟨⟨⟩, -⟩, .inl⟩
    | ok carriers =>
      rw [promoted] at member
      obtain ⟨row, rowMember, becomes, same⟩ :=
        ensures_promoteTokens_of_mem binding _ _ carriers promoted other member
      obtain ⟨there, live⟩ := Table.mem_delete.mp rowMember
      refine ⟨row, there, becomes, fun deletes => of_decide_eq_false live deletes.2,
        fun complete => ?_⟩
      rcases same with rfl | among
      · exact .inl complete
      · exact .inr ⟨List.mem_eraseDups.mp among, rfl⟩

theorem stems_setTtlDays {ttlDays : Int}
    (member : other ∈ (setTtlDays host ttlDays store).2.carriers.rows) :
    Stems urlOrigin limits store (.setTtlDays host ttlDays) other := by
  refine ⟨?_, by rintro ⟨_, _, _, _, _, ⟨⟩, -⟩⟩
  unfold setTtlDays at member
  split at member
  · next invalid =>
    refine ⟨other, member, .refl other, ?_, .inl⟩
    rintro ⟨positive, safe, -⟩
    exact invalid.elim (not_le.mpr positive) (not_lt.mpr safe)
  · obtain ⟨there, live⟩ := Table.mem_delete.mp member
    obtain ⟨row, rowMember, rfl⟩ := Table.mem_updateAll.mp there
    exact ⟨row, rowMember, ⟨row.state, _, id, rfl⟩,
      fun deletes => of_decide_eq_false live deletes.2.2, .inl⟩

/-- A row after `create` is the one it has inserted, or comes from an earlier one. -/
theorem mem_create (member : other ∈ (create urlOrigin limits host input store).2.carriers.rows) :
    (∃ payloadBytes projectionBytes insertionSeq,
      Inserts urlOrigin limits other.token store (.create host input) ∧
      Prepared urlOrigin limits host input payloadBytes projectionBytes ∧
      other = newRow host store.ttlMs input payloadBytes projectionBytes insertionSeq) ∨
    Stems urlOrigin limits store (.create host input) other := by
  cases prepared : prepare urlOrigin limits host input with
  | error error =>
    rw [create_of_not_prepared prepared] at member
    refine .inr (stems_of_mem member ?_ ?_)
    · rintro ⟨_, _, _, other, -⟩
      rw [prepared] at other
      cases other
    · rintro ⟨_, _, _, _, _, ⟨⟩, -, other, -⟩
      rw [prepared] at other
      cases other
  | ok bytes =>
    obtain ⟨payloadBytes, projectionBytes⟩ := bytes
    cases inserted : insertRow limits host store.ttlMs input payloadBytes projectionBytes
        store.carriers with
    | error error =>
      simp only [create, prepared, transaction, inserted] at member
      refine .inr (stems_of_mem member ?_ ?_)
      · rintro ⟨_, _, _, other, fits, -⟩
        rw [prepared] at other
        cases other
        rw [inserted] at fits
        cases fits
      · rintro ⟨_, _, _, _, _, ⟨⟩, -, other, fits⟩
        rw [prepared] at other
        cases other
        rw [inserted] at fits
        cases fits
    | ok carriers =>
      have checked := prepared_of_prepare prepared
      simp only [create, prepared, transaction, inserted, resolveInternal_eq checked] at member
      obtain ⟨member, notCleaned⟩ := Table.mem_delete.mp member
      have room := inserted
      unfold insertRow at room
      obtain ⟨kept, evicted, added⟩ := bind_eq_ok.mp room
      rcases add_cases kept (newRow host store.ttlMs input payloadBytes
        projectionBytes (nextSeq kept)) with ⟨-, failed⟩ | ⟨free, apart, isInserted⟩
      · rw [failed] at added
        cases added
      · rw [isInserted] at added
        obtain rfl := Except.ok.inj added
        rcases (Table.mem_insert free).mp member with isKept | rfl
        · rw [evictOverflow_eq checked.storedBytes] at evicted
          obtain rfl := Except.ok.inj evicted
          obtain ⟨live, notEvicted⟩ := Table.mem_delete.mp isKept
          obtain ⟨there, notExpired⟩ := Table.mem_delete.mp live
          refine .inr (stems_of_mem there ?_ ?_)
          · rintro ⟨_, _, _, other, -, expired | cleaned | isEvicted⟩
            · exact of_decide_eq_false notExpired expired
            · exact of_decide_eq_false notCleaned cleaned
            · rw [prepared] at other
              cases other
              exact of_decide_eq_false notEvicted isEvicted
          · rintro ⟨_, _, _, _, _, ⟨⟩, isToken, -⟩
            exact apart ⟨other, isKept, .inr (.inr isToken)⟩
        · exact .inl ⟨payloadBytes, projectionBytes, _,
            ⟨host, input, _, _, _, rfl, rfl, prepared, inserted⟩, checked, rfl⟩

/-- A row after a call is one that `create` has inserted, or comes from an earlier one. -/
theorem mem_after (member : other ∈ (after urlOrigin limits store operation).carriers.rows) :
    (∃ host input payloadBytes projectionBytes insertionSeq, operation = .create host input ∧
      Inserts urlOrigin limits other.token store operation ∧
      Prepared urlOrigin limits host input payloadBytes projectionBytes ∧
      other = newRow host store.ttlMs input payloadBytes projectionBytes insertionSeq) ∨
    Stems urlOrigin limits store operation other := by
  cases operation with
  | create host input =>
    refine (mem_create member).imp ?_ id
    rintro ⟨payloadBytes, projectionBytes, insertionSeq, inserts, prepared, same⟩
    exact ⟨host, input, payloadBytes, projectionBytes, insertionSeq, rfl, inserts, prepared, same⟩
  | claim host asked accountId wireProtocol =>
    exact .inr (stems_of_mem (shrinks_claim host asked accountId wireProtocol store other member)
      (not_deletes_claim member) (by rintro ⟨_, _, _, _, _, ⟨⟩, -⟩))
  | resolve host asked binding =>
    exact .inr (stems_of_mem (shrinks_resolveInternal host asked binding true store other member)
      (not_deletes_resolve member) (by rintro ⟨_, _, _, _, _, ⟨⟩, -⟩))
  | promote host tokens binding => exact .inr (stems_promote member)
  | discard tokens binding =>
    exact .inr (stems_of_mem (shrinks_discard tokens binding store other member)
      (not_deletes_discard member) (by rintro ⟨_, _, _, _, _, ⟨⟩, -⟩))
  | clearAccount accountId =>
    exact .inr (stems_of_mem (shrinks_clearAccount accountId store other member)
      (not_deletes_clearAccount member) (by rintro ⟨_, _, _, _, _, ⟨⟩, -⟩))
  | clearAll => cases member
  | setTtlDays host ttlDays => exact .inr (stems_setTtlDays member)

end Calls

/-! ## Runs -/

section Runs

variable (urlOrigin : JsString → Option JsString) (limits : CarrierLimits)

/-- The call of a run that has created a row, which no later call has removed. It is
complete if it was created so or has been promoted. -/
def CreatedIn (start : CarrierStore) (operations : List CarrierOperation) (row : CarrierRow)
    (host : CarrierHost) (input : ReasoningCarrierInput) : Prop :=
  ∃ before later payloadBytes projectionBytes ttlMs insertionSeq,
    operations = before ++ .create host input :: later ∧
    Inserts urlOrigin limits row.token (afterAll urlOrigin limits start before)
      (.create host input) ∧
    Prepared urlOrigin limits host input payloadBytes projectionBytes ∧
    (newRow host ttlMs input payloadBytes projectionBytes insertionSeq).Becomes row ∧
    LeavesAll urlOrigin limits row.token
      (afterAll urlOrigin limits start (before ++ [.create host input])) later ∧
    (row.state = .complete → input.state = .complete ∨ PromotedWithin urlOrigin limits row.token
      (afterAll urlOrigin limits start (before ++ [.create host input])) later)

variable {urlOrigin limits} {start store : CarrierStore} {token : JsString} {row other : CarrierRow}
  {operation : CarrierOperation}

theorem CreatedIn.written (created : CreatedIn urlOrigin limits start operations row host input) :
    ∃ payloadBytes projectionBytes ttlMs insertionSeq,
      Prepared urlOrigin limits host input payloadBytes projectionBytes ∧
      (newRow host ttlMs input payloadBytes projectionBytes insertionSeq).Becomes row := by
  obtain ⟨_, _, payloadBytes, projectionBytes, ttlMs, insertionSeq, -, -, prepared, becomes, -⟩ :=
    created
  exact ⟨payloadBytes, projectionBytes, ttlMs, insertionSeq, prepared, becomes⟩

theorem afterAll_append (operations more : List CarrierOperation) :
    afterAll urlOrigin limits start (operations ++ more) =
      afterAll urlOrigin limits (afterAll urlOrigin limits start operations) more :=
  List.foldl_append

theorem leavesAll_append_one (kept : LeavesAll urlOrigin limits token store operations)
    (leaves : Leaves urlOrigin limits token (afterAll urlOrigin limits store operations)
      operation) : LeavesAll urlOrigin limits token store (operations ++ [operation]) := by
  induction operations generalizing store with
  | nil => exact ⟨leaves, trivial⟩
  | cons first operations ih => exact ⟨kept.1, ih kept.2 leaves⟩

theorem promotedWithin_append_one
    (promoted : PromotedWithin urlOrigin limits token store operations ∨
      Promotes urlOrigin token (afterAll urlOrigin limits store operations) operation) :
    PromotedWithin urlOrigin limits token store (operations ++ [operation]) := by
  induction operations generalizing store with
  | nil => exact promoted.elim False.elim .inl
  | cons first operations ih =>
    rcases promoted with (now | later) | last
    · exact .inl now
    · exact .inr (ih (.inl later))
    · exact .inr (ih (.inr last))

/-- A row that comes from an earlier one was created by the same call. -/
theorem createdIn_append_one
    (rowMember : row ∈ (afterAll urlOrigin limits start operations).carriers.rows)
    (created : CreatedIn urlOrigin limits start operations row host input)
    (member : other ∈ (after urlOrigin limits (afterAll urlOrigin limits start operations)
      operation).carriers.rows) (becomes : row.Becomes other)
    (notDeleted : ¬ Deletes urlOrigin limits row (afterAll urlOrigin limits start operations)
      operation) (complete : other.state = .complete → row.state = .complete ∨
      Promotes urlOrigin other.token (afterAll urlOrigin limits start operations) operation)
    (noOther : ¬ Inserts urlOrigin limits other.token (afterAll urlOrigin limits start operations)
      operation) :
    CreatedIn urlOrigin limits start (operations ++ [operation]) other host input := by
  obtain ⟨before, later, payloadBytes, projectionBytes, ttlMs, insertionSeq, whole, inserts,
    prepared, becameRow, leaves, reason⟩ := created
  rw [← becomes.token_eq] at inserts leaves reason
  have reached : afterAll urlOrigin limits (afterAll urlOrigin limits start
      (before ++ [.create host input])) later = afterAll urlOrigin limits start operations := by
    rw [← afterAll_append, whole, List.append_assoc]
    rfl
  refine ⟨before, later ++ [operation], payloadBytes, projectionBytes, ttlMs, insertionSeq, ?_,
    inserts, prepared, becameRow.trans becomes, ?_, fun isComplete => ?_⟩
  · rw [whole, List.append_assoc]
    rfl
  · refine leavesAll_append_one leaves ?_
    rw [reached]
    exact ⟨⟨row, rowMember, other, member, becomes, rfl, notDeleted⟩, noOther⟩
  · rcases complete isComplete with already | now
    · refine (reason already).imp id fun within => promotedWithin_append_one (.inl within)
    · refine .inr (promotedWithin_append_one (.inr ?_))
      rw [reached]
      exact now

/-- Every row of a store that was empty at first was created by a call. -/
theorem createdIn_of_mem (operations : List CarrierOperation)
    (member : row ∈ (afterAll urlOrigin limits ⟨.empty, ttlMs⟩ operations).carriers.rows) :
    ∃ host input, CreatedIn urlOrigin limits ⟨.empty, ttlMs⟩ operations row host input := by
  induction operations using List.reverseRecOn generalizing row with
  | nil => cases member
  | append_singleton operations operation ih =>
    rw [afterAll_append] at member
    rcases mem_after member with ⟨host, input, payloadBytes, projectionBytes, insertionSeq, rfl,
      inserts, prepared, rfl⟩ | ⟨⟨earlier, earlierMember, becomes, notDeleted, complete⟩, noOther⟩
    · exact ⟨host, input, operations, [], payloadBytes, projectionBytes, _, insertionSeq, rfl,
        inserts, prepared, .refl _, trivial, .inl⟩
    · obtain ⟨host, input, created⟩ := ih earlierMember
      exact ⟨host, input,
        createdIn_append_one earlierMember created member becomes notDeleted complete noOther⟩

end Runs
/-! ## The bytes of the table -/

section Bytes

variable {urlOrigin : JsString → Option JsString} {limits : CarrierLimits} {store : CarrierStore}

theorem storedBytes_create (bounded : store.carriers.storedBytes ≤ limits.maxStoredBytes) :
    (create urlOrigin limits host input store).2.carriers.storedBytes ≤ limits.maxStoredBytes := by
  cases prepared : prepare urlOrigin limits host input with
  | error error =>
    rw [create_of_not_prepared prepared]
    exact bounded
  | ok bytes =>
    obtain ⟨payloadBytes, projectionBytes⟩ := bytes
    cases room : makeRoom limits host (payloadBytes.length + projectionBytes.length) store with
    | error error =>
      rw [create_of_no_room prepared room]
      exact bounded
    | ok kept =>
      rw [create_of_room prepared room]
      have fits := room_evictOverflow limits _ _ kept room
      rcases add_cases kept (newRow host store.ttlMs input payloadBytes
        projectionBytes (nextSeq kept)) with ⟨-, failed⟩ | ⟨free, -, added⟩
      · rw [failed]
        exact bounded
      · rw [added]
        refine (shrinks_resolveInternal _ _ _ _ _).descends.storedBytes_le.trans
          (le_of_eq_of_le ?_ fits)
        exact Table.total_insert _ _ free _

/-- A call keeps the table within the limit. -/
theorem storedBytes_after (operation : CarrierOperation)
    (bounded : store.carriers.storedBytes ≤ limits.maxStoredBytes) :
    (after urlOrigin limits store operation).carriers.storedBytes ≤ limits.maxStoredBytes := by
  cases operation with
  | create host input => exact storedBytes_create bounded
  | claim host asked accountId wireProtocol =>
    exact (shrinks_claim host asked accountId wireProtocol store).descends.storedBytes_le.trans
      bounded
  | resolve host asked binding =>
    exact (shrinks_resolveInternal host asked binding true store).descends.storedBytes_le.trans
      bounded
  | promote host tokens binding =>
    exact (descends_promote host tokens binding store).storedBytes_le.trans bounded
  | discard tokens binding =>
    exact (shrinks_discard tokens binding store).descends.storedBytes_le.trans bounded
  | clearAccount accountId =>
    exact (shrinks_clearAccount accountId store).descends.storedBytes_le.trans bounded
  | clearAll => exact Nat.zero_le _
  | setTtlDays host ttlDays =>
    exact (descends_setTtlDays host ttlDays store).storedBytes_le.trans bounded

theorem storedBytes_afterAll (operations : List CarrierOperation)
    (bounded : store.carriers.storedBytes ≤ limits.maxStoredBytes) :
    (afterAll urlOrigin limits store operations).carriers.storedBytes ≤
      limits.maxStoredBytes := by
  induction operations generalizing store with
  | nil => exact bounded
  | cons operation operations ih => exact ih (storedBytes_after operation bounded)

end Bytes

/-! ## What the store gives out -/

section Answers

variable (urlOrigin : JsString → Option JsString) (limits : CarrierLimits)
  {record : ReasoningCarrierRecord}

/-- The row of a token is in the table after some calls: it was created for a binding
and has been there since, is complete, and has not expired when it is asked for. -/
structure Available (start : CarrierStore) (operations : List CarrierOperation)
    (host : CarrierHost) (token : JsString) (binding : ReasoningCarrierBinding)
    (row : CarrierRow) (input : ReasoningCarrierInput) : Prop where
  created : ∃ creating, CreatedIn urlOrigin limits start operations row creating input
  there : row ∈ (afterAll urlOrigin limits start operations).carriers.rows
  named : row.token = token
  bound : input.binding = binding
  complete : row.state = .complete
  live : host.cleaned < row.expiresAtMs ∧ host.checked < row.expiresAtMs

variable {urlOrigin limits} {host : CarrierHost} {token : JsString}
  {binding : ReasoningCarrierBinding} {store : CarrierStore}

theorem found_of_readRow {now : Int} {parsed : JsString × JsString} {requireComplete : Bool}
    (answered : readRow limits carriers now token parsed binding requireComplete = .ok record) :
    ∃ row, carriers.find? token = some row ∧ row.binding.read = binding := by
  unfold readRow at answered
  cases found : carriers.find? token with
  | none =>
    rw [found] at answered
    cases answered
  | some row =>
    refine ⟨row, rfl, ?_⟩
    by_contra other
    rw [found] at answered
    dsimp only [Option.map_some] at answered
    rw [if_pos (.inl other)] at answered
    cases answered

/-- Whatever is created in a run is read with the binding it was created for. -/
def ReadAsBound (operations : List CarrierOperation) : Prop :=
  ∀ host input, CarrierOperation.create host input ∈ operations →
    input.binding.read = input.binding

theorem CreatedIn.created {start : CarrierStore}
    (created : CreatedIn urlOrigin limits start operations row host input) :
    CarrierOperation.create host input ∈ operations := by
  obtain ⟨before, later, _, _, _, _, rfl, -⟩ := created
  exact List.mem_append_right _ List.mem_cons_self

/-- What `resolve` gives out was created for the binding it is asked for. -/
theorem available_of_resolve (readAsBound : ReadAsBound operations)
    (answered : (resolve urlOrigin limits host token binding
      (afterAll urlOrigin limits ⟨.empty, ttlMs⟩ operations)).1 = .ok record) :
    ∃ row input, Available urlOrigin limits ⟨.empty, ttlMs⟩ operations host token binding
      row input ∧
      record = recordOf input row := by
  unfold resolve resolveInternal at answered
  split at answered
  · cases answered
  split at answered
  · cases answered
  next parsed isParsed =>
  obtain ⟨row, found, same⟩ := found_of_readRow answered
  obtain ⟨member, named⟩ := Table.find?_eq_some.mp found
  obtain ⟨there, live⟩ := Table.mem_delete.mp member
  obtain ⟨creating, input, created⟩ := createdIn_of_mem operations there
  obtain ⟨payloadBytes, projectionBytes, ttlMs, insertionSeq, prepared, becomes⟩ := created.written
  have isToken : token = carrierToken input creating.newId := named.symm.trans becomes.token_eq
  rw [isToken, parseToken_carrierToken input prepared.isId] at isParsed
  rw [isToken] at answered found
  rw [← Except.ok.inj isParsed] at answered
  obtain ⟨bound, complete, stillLive, -, rfl⟩ :=
    (readRow_eq_ok_iff prepared becomes found).mp answered
  exact ⟨row, input, ⟨⟨creating, created⟩, there, named,
    (readAsBound creating input created.created).symm.trans bound, complete rfl,
    not_le.mp (of_decide_eq_false live), stillLive⟩, rfl⟩

/-- What `claim` gives out was created for the account and the wire protocol. -/
theorem available_of_claim (readAsBound : ReadAsBound operations)
    (answered : (claim host token accountId wireProtocol
      (afterAll urlOrigin limits ⟨.empty, ttlMs⟩ operations)).1 = .ok binding) :
    (binding.accountId = accountId ∧ binding.wireProtocol = wireProtocol) ∧ ∃ row input,
      Available urlOrigin limits ⟨.empty, ttlMs⟩ operations host token binding row input := by
  unfold claim at answered
  split at answered
  · cases answered
  dsimp only at answered
  split at answered
  · cases answered
  next read isRead =>
  obtain ⟨row, found, rfl⟩ := Option.map_eq_some_iff.mp isRead
  split at answered
  · cases answered
  next admitted =>
  obtain rfl := Except.ok.inj answered
  simp only [not_or, not_not, not_le, ne_eq] at admitted
  obtain ⟨account, wire, -, -, complete, stillLive⟩ := admitted
  obtain ⟨member, named⟩ := Table.find?_eq_some.mp found
  obtain ⟨there, live⟩ := Table.mem_delete.mp member
  obtain ⟨creating, input, created⟩ := createdIn_of_mem operations there
  obtain ⟨_, _, _, _, -, becomes⟩ := created.written
  have bound : row.binding.read = input.binding := by
    rw [becomes.binding_eq]
    exact readAsBound creating input created.created
  exact ⟨⟨account, wire⟩, row, input, ⟨⟨creating, created⟩, there, named, bound.symm, complete,
    not_le.mp (of_decide_eq_false live), stillLive⟩⟩

/-- `promote` promotes all of its tokens, or changes nothing. -/
theorem promote_cases (host : CarrierHost) (tokens : List JsString)
    (binding : ReasoningCarrierBinding) (store : CarrierStore) :
    ((promote urlOrigin host tokens binding store).1 = .ok () ∧ ∀ token ∈ tokens,
      CarrierTable.Granted binding (promote urlOrigin host tokens binding store).2.carriers token) ∨
    ((promote urlOrigin host tokens binding store).1 ≠ .ok () ∧
      (promote urlOrigin host tokens binding store).2 = store) := by
  unfold promote transaction
  cases valid : validateBinding urlOrigin binding with
  | error error => exact .inr ⟨by rintro ⟨⟩, rfl⟩
  | ok =>
    dsimp only
    cases promoted : tokens.eraseDups.foldlM (promoteToken binding)
        (expire store.carriers host.started) with
    | error error => exact .inr ⟨by rintro ⟨⟩, rfl⟩
    | ok carriers =>
      refine .inl ⟨rfl, fun token among => ?_⟩
      exact ensures_promoteTokens_granted binding _ _ carriers promoted token
        (List.mem_eraseDups.mpr among)

end Answers

/-! ## A carrier in an empty store -/

section Created

variable {urlOrigin : JsString → Option JsString} {limits : CarrierLimits} {host : CarrierHost}
  {input : ReasoningCarrierInput} {payloadBytes projectionBytes : List UInt8}

/-- A carrier that was created in an empty store is given out for the binding that is read. -/
theorem exists_resolve_create {asking : CarrierHost}
    (isPrepared : prepare urlOrigin limits host input = .ok (payloadBytes, projectionBytes))
    (valid : validateBinding urlOrigin input.binding.read = .ok ()) (readable : input.Readable)
    (complete : input.state = .complete) (live : host.cleaned < host.started + ttlMs ∧
      asking.cleaned < host.started + ttlMs ∧ asking.checked < host.started + ttlMs) :
    ∃ record, (resolve urlOrigin limits asking (carrierToken input host.newId) input.binding.read
      (create urlOrigin limits host input ⟨Table.empty, ttlMs⟩).2).1 = .ok record := by
  have prepared := prepared_of_prepare isPrepared
  have room : makeRoom limits host (payloadBytes.length + projectionBytes.length)
      ⟨Table.empty, ttlMs⟩ = .ok Table.empty :=
    evictOverflow_eq prepared.storedBytes
  rw [create_of_room isPrepared room]
  rcases add_cases Table.empty (newRow host ttlMs input payloadBytes projectionBytes
    (nextSeq Table.empty)) with ⟨⟨_, member, -⟩, -⟩ | ⟨free, -, added⟩
  · cases member
  rw [added]
  dsimp only
  rw [resolveInternal_eq prepared, resolve, resolveInternal, valid,
    parseToken_carrierToken input prepared.isId]
  have once := find?_inserted free live.1
  have again : (expire _ asking.cleaned).find? _ = some _ :=
    Table.find?_delete_of_false once (decide_eq_false (not_le.mpr live.2.1))
  exact ⟨_, (readRow_eq_ok_iff prepared (.refl _) again).mpr
    ⟨rfl, fun _ => complete, live.2.2, readable, rfl⟩⟩

end Created

/-- A chat state created for a model. -/
def chatCarrier (modelId : JsString) : ReasoningCarrierInput where
  binding := ⟨js "account", modelId, js "https://host", .chat, .responses, js "1"⟩
  sourceKind := .chatState
  state := .complete
  responseId := none
  payload := [(js "kind", .string (js "chat_state")), (js "state", .object [])]
  projection := []

def carrierHost : CarrierHost := ⟨0, 0, 0, js "00000000-0000-4000-8000-000000000000"⟩

def chatPayload : List UInt8 :=
  encodeUtf8 (js "\x7b\"kind\":\"chat_state\",\"state\":\x7b\x7d\x7d")

theorem readable_chatCarrier (modelId : JsString) : (chatCarrier modelId).Readable where
  payloadNesting := show (WireJson.object (chatCarrier []).payload).nesting ≤ 64 by decide
  projectionNesting := show (WireJson.object (chatCarrier []).projection).nesting ≤ 64 by decide
  validPayload := show validatePayload .chatState (chatCarrier []).payload = .ok () by decide

end CarrierStore

end GhcGateway.Conversion
