/-
# Creating a carrier

`create` commits its row, for which it may have evicted others, and then reads the row back. A
call that throws afterwards has left the row behind, so a call is atomic only if whatever the
reader refuses was refused before. A call that returns has stored what it was given.
-/

import GhcGateway.Conversion.CarrierOperations

namespace GhcGateway.Conversion

open Library CarrierTable

variable {row : CarrierRow}

/-! ## Making room -/

namespace CarrierTable

variable {carriers : CarrierTable} {limits : CarrierLimits} {incomingBytes : Nat}

/-- The rows that are evicted for so many bytes. -/
def evicted (limits : CarrierLimits) (carriers : CarrierTable) (incomingBytes : Nat) :
    List CarrierRow :=
  Eviction.oldestExceeding CarrierRow.storedBytes
    (carriers.storedBytes + incomingBytes - limits.maxStoredBytes : Int)
    (carriers.orderedBy CarrierRow.insertionSeq)

theorem mem_of_mem_evicted (isEvicted : row ∈ evicted limits carriers incomingBytes) :
    row ∈ carriers.rows :=
  (carriers.perm_orderedBy _).mem_iff.mp
    ((Eviction.oldestExceeding_prefix _ _ _).subset isEvicted)

theorem foldl_remove_eq (rows : List CarrierRow) (carriers : CarrierTable) :
    rows.foldl (fun carriers row => remove carriers row.token) carriers =
      carriers.delete fun row => decide (row.token ∈ rows.map CarrierRow.token) := by
  induction rows generalizing carriers with
  | nil =>
    symm
    apply Table.delete_eq_self
    simp
  | cons first rows ih =>
    rw [List.foldl_cons, ih, remove, Table.delete_delete]
    congr 1
    funext row
    simp

/-- There is room for what the store can hold at all: the evicted rows are gone, and no
other. -/
theorem evictOverflow_eq (fits : incomingBytes ≤ limits.maxStoredBytes) :
    evictOverflow limits carriers incomingBytes =
      .ok (carriers.delete fun row => decide (row ∈ evicted limits carriers incomingBytes)) := by
  have whole : Eviction.weighed CarrierRow.storedBytes
      (carriers.orderedBy CarrierRow.insertionSeq) = carriers.storedBytes :=
    Eviction.weighed_perm _ (carriers.perm_orderedBy _)
  have enough : (carriers.storedBytes + incomingBytes - limits.maxStoredBytes : Int) ≤
      Eviction.weighed CarrierRow.storedBytes (evicted limits carriers incomingBytes) := by
    apply Eviction.le_weighed_oldestExceeding
    rw [whole]
    omega
  unfold evictOverflow
  dsimp only
  rw [← evicted, if_pos (by omega), foldl_remove_eq]
  congr 1
  apply Table.ext
  apply List.filter_congr
  intro row member
  have byToken : row.token ∈ (evicted limits carriers incomingBytes).map CarrierRow.token ↔
      row ∈ evicted limits carriers incomingBytes := by
    rw [List.mem_map]
    constructor
    · rintro ⟨other, isEvicted, same⟩
      rwa [← Table.eq_of_key_eq (mem_of_mem_evicted isEvicted) member same]
    · intro isEvicted
      exact ⟨row, isEvicted, rfl⟩
  simp only [byToken]

theorem insertionSeq_lt_nextSeq (member : row ∈ carriers.rows) :
    row.insertionSeq < nextSeq carriers := by
  have bounded (numbers : List Nat) : ∀ start, start ≤ numbers.foldl max start ∧
      ∀ number ∈ numbers, number ≤ numbers.foldl max start := by
    induction numbers with
    | nil => simp
    | cons first numbers ih =>
      intro start
      rw [List.foldl_cons, List.forall_mem_cons]
      have rest := ih (max start first)
      exact ⟨le_trans (le_max_left _ _) rest.1, le_trans (le_max_right _ _) rest.1, rest.2⟩
  exact Nat.lt_succ_of_le ((bounded _ 0).2 _ (List.mem_map_of_mem member))

end CarrierTable

namespace CarrierStore

/-! ## Atomicity -/

section Atomic

variable (urlOrigin : JsString → Option JsString) (limits : CarrierLimits)

/-- Every later `resolve` of the token gives the input back, as long as the row was not deleted
and has not expired, and after a promotion if it was created partial. -/
def Delivers (token : JsString) (input : ReasoningCarrierInput) (store : CarrierStore) : Prop :=
  ∀ (operations : List CarrierOperation) (host : CarrierHost),
    SparesAll urlOrigin limits token store operations →
    (input.state = .complete ∨ PromotedWithin urlOrigin limits token store operations) →
    (∀ row, (afterAll urlOrigin limits store operations).carriers.find? token = some row →
      host.cleaned < row.expiresAtMs ∧ host.checked < row.expiresAtMs) →
    ∃ record, (resolve urlOrigin limits host token input.binding
        (afterAll urlOrigin limits store operations)).1 = .ok record ∧
      canonicalizeWireJson (.object record.payload) =
        canonicalizeWireJson (.object input.payload) ∧
      canonicalizeWireJson (.object record.projection) =
        canonicalizeWireJson (.object input.projection)

/-- A call leaves nothing behind: every row was there before it, and every row that was there
before it and has not expired at its readings of the clock still is. -/
structure LeavesNothing (host : CarrierHost) (before after : CarrierStore) : Prop where
  noRow : ∀ row ∈ after.carriers.rows, row ∈ before.carriers.rows
  noEviction : ∀ row ∈ before.carriers.rows, host.started < row.expiresAtMs →
    host.cleaned < row.expiresAtMs → row ∈ after.carriers.rows

theorem LeavesNothing.refl (host : CarrierHost) (store : CarrierStore) :
    LeavesNothing host store store :=
  ⟨fun _ => id, fun _ wasThere _ _ => wasThere⟩

/-- `create` either stores what it was given or leaves nothing behind. -/
def CreatesAtomically (host : CarrierHost) (input : ReasoningCarrierInput)
    (store : CarrierStore) : Prop :=
  match create urlOrigin limits host input store with
  | (.ok record, after) => Delivers urlOrigin limits record.token input after
  | (.error _, after) => LeavesNothing host store after

/-- What a prepared call comes to: its id is taken, or the reader finds the binding that was bound
and accepts the row, or the row has expired by then and nothing was evicted for it that has not. A
row that is the same as one before it leaves no trace either. -/
def Accepted (host : CarrierHost) (input : ReasoningCarrierInput) (store : CarrierStore)
    (payloadBytes projectionBytes : List UInt8) : Prop :=
  let live := expire store.carriers host.started
  let evicted := evicted limits live (payloadBytes.length + projectionBytes.length)
  let kept := live.delete fun row => decide (row ∈ evicted)
  let row := newRow host store.ttlMs input payloadBytes projectionBytes (nextSeq kept)
  (∃ other ∈ kept.rows, other.carrierId = row.carrierId ∨ other.token = row.token) ∨
    (input.binding.read = input.binding ∧ input.Readable ∧ host.cleaned < row.expiresAtMs ∧
      host.checked < row.expiresAtMs) ∨
    ((row.expiresAtMs ≤ host.cleaned ∨ row ∈ store.carriers.rows) ∧
      ∀ other ∈ evicted, other.expiresAtMs ≤ host.cleaned ∨ other = row)

/-- What decides whether `create` is atomic. -/
def AtomicWhen (host : CarrierHost) (input : ReasoningCarrierInput) (store : CarrierStore) : Prop :=
  ∀ payloadBytes projectionBytes,
    prepare urlOrigin limits host input = .ok (payloadBytes, projectionBytes) →
    Accepted limits host input store payloadBytes projectionBytes

end Atomic

section Proof

variable {urlOrigin : JsString → Option JsString} {limits : CarrierLimits} {host : CarrierHost}
variable {input : ReasoningCarrierInput} {store : CarrierStore}
variable {payloadBytes projectionBytes : List UInt8}
  {kept : CarrierTable} {insertionSeq : Nat} {ttlMs : Int}

/-- The token of a prepared input is asked for as any other. -/
theorem resolveInternal_eq
    (prepared : Prepared urlOrigin limits host input payloadBytes projectionBytes)
    (asking : CarrierHost) (requireComplete : Bool) (store : CarrierStore) :
    resolveInternal urlOrigin limits asking (carrierToken input host.newId) input.binding
        requireComplete store =
      (readRow limits (expire store.carriers asking.cleaned) asking.checked
        (carrierToken input host.newId)
        (js input.sourceKind.text, js input.binding.wireProtocol.text) input.binding
        requireComplete, store.cleanup asking.cleaned) := by
  rw [resolveInternal, prepared.binding]
  dsimp only
  rw [parseToken_carrierToken input prepared.isId]
  rfl

/-- What the reader accepts once, it accepts while the row is there. -/
theorem delivers_of_readable
    (prepared : Prepared urlOrigin limits host input payloadBytes projectionBytes)
    (same : input.binding.read = input.binding) (readable : input.Readable)
    (found : store.carriers.find? (carrierToken input host.newId) =
      some (newRow host ttlMs input payloadBytes projectionBytes insertionSeq)) :
    Delivers urlOrigin limits (carrierToken input host.newId) input store := by
  intro operations asking spares completed live
  obtain ⟨row, isRow, becomes, promoted⟩ := becomes_of_sparesAll found spares
  have complete : row.state = .complete := by
    cases completed with
    | inl created => exact becomes.complete created
    | inr within => exact promoted within
  obtain ⟨notCleaned, notExpired⟩ := live row isRow
  have kept : (expire (afterAll urlOrigin limits store operations).carriers
      asking.cleaned).find? (carrierToken input host.newId) = some row :=
    Table.find?_delete_of_false isRow (by simpa using notCleaned)
  refine ⟨recordOf input row, ?_, ?_, ?_⟩
  · rw [resolve, resolveInternal_eq prepared]
    exact (readRow_eq_ok_iff prepared becomes kept).mpr
      ⟨same, fun _ => complete, notExpired, readable, rfl⟩
  · have same := canonicalObject_canonicalMembers input.payload
    rw [prepared.payload] at same
    exact (canonicalObject_eq_ok.mp same).trans (canonicalObject_eq_ok.mp prepared.payload).symm
  · have same := canonicalObject_canonicalMembers input.projection
    rw [prepared.projection] at same
    exact (canonicalObject_eq_ok.mp same).trans (canonicalObject_eq_ok.mp prepared.projection).symm

/-- A row that has just been inserted is there unless it has expired. -/
theorem find?_inserted (free : kept.find? row.token = none) {now : Int}
    (live : now < row.expiresAtMs) :
    (expire (kept.insert row free) now).find? row.token = some row :=
  Table.find?_delete_of_false (Table.find?_insert_self free) (decide_eq_false (not_le.mpr live))

/-- When the row that was inserted is read back. -/
theorem read_inserted (prepared : Prepared urlOrigin limits host input payloadBytes projectionBytes)
    (free : kept.find? (newRow host ttlMs input payloadBytes projectionBytes insertionSeq).token =
      none) (record : ReasoningCarrierRecord) :
    readRow limits (expire (kept.insert _ free) host.cleaned) host.checked
        (carrierToken input host.newId)
        (js input.sourceKind.text, js input.binding.wireProtocol.text) input.binding
        (input.state = .complete) = .ok record ↔
      (input.binding.read = input.binding ∧ input.Readable ∧
          host.cleaned < host.started + ttlMs ∧ host.checked < host.started + ttlMs) ∧
        record = recordOf input
          (newRow host ttlMs input payloadBytes projectionBytes insertionSeq) := by
  by_cases live : host.cleaned < host.started + ttlMs
  · refine (readRow_eq_ok_iff prepared (.refl _) (find?_inserted free live)).trans ?_
    constructor
    · rintro ⟨same, -, notExpired, readable, isRecord⟩
      exact ⟨⟨same, readable, live, notExpired⟩, isRecord⟩
    · rintro ⟨⟨same, readable, -, notExpired⟩, isRecord⟩
      exact ⟨same, of_decide_eq_true, notExpired, readable, isRecord⟩
  · refine iff_of_false ?_ fun accepted => live accepted.1.2.2.1
    have gone : (expire (kept.insert _ free) host.cleaned).find?
        (carrierToken input host.newId) = none := by
      rw [Table.find?_eq_none]
      intro other member
      obtain ⟨there, notCleaned⟩ := Table.mem_delete.mp member
      rcases (Table.mem_insert free).mp there with old | rfl
      · exact Table.find?_eq_none.mp free other old
      · exact absurd (not_le.mp (of_decide_eq_false notCleaned)) live
    rw [readRow, gone]
    rintro ⟨⟩

/-- What a committed call leaves behind. -/
theorem leavesNothing_iff {evicted : List CarrierRow}
    (among : ∀ other ∈ evicted, other ∈ (expire store.carriers host.started).rows)
    (free : ((expire store.carriers host.started).delete fun other =>
      decide (other ∈ evicted)).find? row.token = none) :
    LeavesNothing host store
        (cleanup { store with carriers := ((expire store.carriers host.started).delete
          fun other => decide (other ∈ evicted)).insert row free } host.cleaned) ↔
      (row.expiresAtMs ≤ host.cleaned ∨ row ∈ store.carriers.rows) ∧
        ∀ other ∈ evicted, other.expiresAtMs ≤ host.cleaned ∨ other = row := by
  have isLive (other : CarrierRow) :
      other ∈ (expire store.carriers host.started).rows ↔
        other ∈ store.carriers.rows ∧ host.started < other.expiresAtMs := by
    simp [expire, Table.mem_delete]
  have isAfter (other : CarrierRow) :
      other ∈ (cleanup { store with carriers :=
          ((expire store.carriers host.started).delete fun other =>
            decide (other ∈ evicted)).insert row free } host.cleaned).carriers.rows ↔
        (((other ∈ store.carriers.rows ∧ host.started < other.expiresAtMs) ∧ other ∉ evicted) ∨
          other = row) ∧ host.cleaned < other.expiresAtMs := by
    simp only [cleanup, expire, Table.mem_delete, Table.mem_insert]
    simp
  constructor
  · intro nothing
    constructor
    · by_contra stays
      rw [not_or, not_le] at stays
      exact stays.2 (nothing.noRow row ((isAfter row).mpr ⟨.inr rfl, stays.1⟩))
    · intro other isEvicted
      by_contra stays
      rw [not_or, not_le] at stays
      obtain ⟨wasThere, notExpired⟩ := (isLive other).mp (among other isEvicted)
      rcases ((isAfter other).mp (nothing.noEviction other wasThere notExpired stays.1)).1 with
        kept | same
      · exact kept.2 isEvicted
      · exact stays.2 same
  · rintro ⟨noRow, noEviction⟩
    constructor
    · intro other isThere
      obtain ⟨old | rfl, notCleaned⟩ := (isAfter other).mp isThere
      · exact old.1.1
      · exact noRow.resolve_left (not_le.mpr notCleaned)
    · intro other wasThere notExpired notCleaned
      apply (isAfter other).mpr
      refine ⟨?_, notCleaned⟩
      by_cases isEvicted : other ∈ evicted
      · exact .inr ((noEviction other isEvicted).resolve_left (not_le.mpr notCleaned))
      · exact .inl ⟨⟨wasThere, notExpired⟩, isEvicted⟩

/-- A prepared call is atomic exactly if it is accepted. -/
theorem createsAtomically_of_prepared
    (isPrepared : prepare urlOrigin limits host input = .ok (payloadBytes, projectionBytes)) :
    CreatesAtomically urlOrigin limits host input store ↔
      Accepted limits host input store payloadBytes projectionBytes := by
  have prepared := prepared_of_prepare isPrepared
  have room : makeRoom limits host (payloadBytes.length + projectionBytes.length) store = _ :=
    evictOverflow_eq prepared.storedBytes
  have among : ∀ other ∈ evicted limits
      (expire store.carriers host.started)
      (payloadBytes.length + projectionBytes.length),
      other ∈ (expire store.carriers host.started).rows :=
    fun _ => mem_of_mem_evicted
  rw [CreatesAtomically, create_of_room isPrepared room, Accepted]
  generalize evicted limits (expire store.carriers host.started)
    (payloadBytes.length + projectionBytes.length) = evicted at *
  rcases add_cases ((expire store.carriers host.started).delete
      fun other => decide (other ∈ evicted)) (newRow host store.ttlMs input payloadBytes
        projectionBytes (nextSeq ((expire store.carriers
          host.started).delete fun other => decide (other ∈ evicted)))) with
    ⟨taken, failed⟩ | ⟨free, apart, added⟩
  · rw [failed]
    refine iff_of_true (.refl host store) (.inl ?_)
    obtain ⟨other, member, sameId | sameSeq | sameToken⟩ := taken
    · exact ⟨other, member, .inl sameId⟩
    · exact absurd sameSeq (Nat.ne_of_lt (insertionSeq_lt_nextSeq member))
    · exact ⟨other, member, .inr sameToken⟩
  · rw [added]
    dsimp only
    rw [resolveInternal_eq prepared, or_iff_right fun ⟨other, member, same⟩ =>
      apart ⟨other, member, same.imp id .inr⟩]
    have behind := leavesNothing_iff among free
    have readBack := read_inserted prepared free
    cases result : readRow limits (expire (Table.insert _ _ free) host.cleaned)
        host.checked (carrierToken input host.newId)
        (js input.sourceKind.text, js input.binding.wireProtocol.text) input.binding
        (decide (input.state = .complete)) with
    | error error =>
      refine behind.trans (or_iff_right ?_).symm
      intro accepted
      rw [(readBack _).mpr ⟨accepted, rfl⟩] at result
      cases result
    | ok record =>
      obtain ⟨accepted, rfl⟩ := (readBack record).mp result
      refine iff_of_true ?_ (.inl accepted)
      exact delivers_of_readable prepared accepted.1 accepted.2.1
        (find?_inserted free accepted.2.2.1)

end Proof

/-- A creation is atomic exactly if the binding is read as it was bound, the reader's checks were
the writer's and the row has not expired when it is read back, or nothing came of the
transaction. -/
theorem createsAtomically_iff (urlOrigin : JsString → Option JsString) (limits : CarrierLimits)
    (host : CarrierHost) (input : ReasoningCarrierInput) (store : CarrierStore) :
    CreatesAtomically urlOrigin limits host input store ↔
      AtomicWhen urlOrigin limits host input store := by
  cases isPrepared : prepare urlOrigin limits host input with
  | error error =>
    apply iff_of_true
    · rw [CreatesAtomically, create_of_not_prepared isPrepared]
      exact .refl host store
    · intro payloadBytes projectionBytes prepared
      rw [isPrepared] at prepared
      cases prepared
  | ok bytes =>
    refine (createsAtomically_of_prepared isPrepared).trans ⟨?_, ?_⟩
    · intro accepted payloadBytes projectionBytes prepared
      rw [isPrepared] at prepared
      cases prepared
      exact accepted
    · intro whenPrepared
      exact whenPrepared bytes.1 bytes.2 isPrepared

def emptyPayload : ReasoningCarrierInput where
  binding := ⟨js "account", js "model", js "https://host", .chat, .responses, js "1"⟩
  sourceKind := .chatState
  state := .complete
  responseId := none
  payload := []
  projection := []

/-- The row of a payload without a kind stays in the store, though the call throws. -/
theorem not_createsAtomically :
    ¬ CreatesAtomically some ⟨64, 64⟩ ⟨0, 0, 0, js "00000000-0000-4000-8000-000000000000"⟩
      emptyPayload ⟨Table.empty, 1000⟩ := by
  have prepared : prepare some ⟨64, 64⟩ ⟨0, 0, 0, js "00000000-0000-4000-8000-000000000000"⟩
      emptyPayload = .ok ([0x7B, 0x7D], [0x7B, 0x7D]) := by
    decide
  have unreadable : validatePayload .chatState [] ≠ .ok () := by decide
  rw [createsAtomically_of_prepared prepared]
  rintro (⟨other, member, -⟩ | ⟨-, readable, -⟩ | ⟨expired | same, -⟩)
  · cases member
  · exact unreadable readable.validPayload
  · exact absurd expired (by decide)
  · cases same

end CarrierStore

end GhcGateway.Conversion
