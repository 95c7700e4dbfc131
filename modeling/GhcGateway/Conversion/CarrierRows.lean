/-
# Reading a carrier back

The row that `create` inserts holds the canonical texts of the payload and the projection. The
reader parses them, with a bound on their depth, and checks what it has read. This module says
when a row is read back, and that what is read is what was written, up to the order of members.
-/

import GhcGateway.Conversion.ReasoningCarriers
import GhcGateway.Serialization.CanonicalJson

namespace GhcGateway

open Library JsonGrammar

/-! ## The nesting of a canonical form -/

namespace WireJson

theorem nestingItems_append (before after : List WireJson) :
    nestingItems (before ++ after) = max (nestingItems before) (nestingItems after) := by
  induction before with
  | nil => simp [nestingItems]
  | cons item before ih => rw [List.cons_append, nestingItems, nestingItems, ih, max_assoc]

theorem nestingMembers_append (before after : List (JsString × WireJson)) :
    nestingMembers (before ++ after) = max (nestingMembers before) (nestingMembers after) := by
  induction before with
  | nil => simp [nestingMembers]
  | cons member before ih => rw [List.cons_append, nestingMembers, nestingMembers, ih, max_assoc]

theorem nestingMembers_le_iff {members : List (JsString × WireJson)} {bound : Nat} :
    nestingMembers members ≤ bound ↔ ∀ member ∈ members, member.2.nesting ≤ bound := by
  induction members with
  | nil => simp [nestingMembers]
  | cons member members ih => simp [nestingMembers, ih]

/-- The order of members has no part in the nesting. -/
theorem Reordered.nesting_eq {left right : WireJson} (reordered : Reordered left right) :
    left.nesting = right.nesting := by
  induction reordered with
  | refl => rfl
  | @members left right rearranged =>
    rw [nesting, nesting, Nat.add_right_cancel_iff]
    apply Nat.le_antisymm
    · rw [nestingMembers_le_iff]
      intro member isMember
      exact nestingMembers_le_iff.mp le_rfl member (rearranged.mem isMember)
    · rw [nestingMembers_le_iff]
      intro member isMember
      exact nestingMembers_le_iff.mp le_rfl member (rearranged.symm.mem isMember)
  | item before after _ ih =>
    rw [nesting, nesting, nestingItems_append, nestingItems_append, nestingItems, nestingItems, ih]
  | member before after key _ ih =>
    rw [nesting, nesting, nestingMembers_append, nestingMembers_append, nestingMembers,
      nestingMembers, ih]
  | trans _ _ first second => exact first.trans second

end WireJson

namespace Conversion

variable {object : WireJsonObject} {row other : CarrierRow} {bytes : List UInt8}
  {carrierId : JsString}

/-! ## Tokens -/

theorem not_mem_carrierId (isId : isCarrierId carrierId = true) : (0x3A : UInt16) ∉ carrierId := by
  intro colon
  have whole : List.intercalate [0x2D] (carrierId.splitOn 0x2D) = carrierId :=
    List.intercalate_splitOn 0x2D
  unfold isCarrierId at isId
  split at isId
  case h_1 first second third fourth fifth parts =>
    have hex : ∀ unit ∈ first ++ second ++ third ++ fourth ++ fifth, isHexDigit unit = true := by
      simp only [Bool.and_eq_true] at isId
      exact List.all_eq_true.mp isId.1.1.2
    have notHex : isHexDigit 0x3A = false := by decide
    have among : (0x3A : UInt16) ∈ first ++ second ++ third ++ fourth ++ fifth := by
      rw [← whole, parts] at colon
      simpa [List.intercalate, List.intersperse] using colon
    rw [hex _ among] at notHex
    cases notHex
  case h_2 => cases isId

/-- The token of a carrier names its kind and its wire protocol. -/
theorem parseToken_carrierToken (input : ReasoningCarrierInput)
    (isId : isCarrierId carrierId = true) :
    parseToken (carrierToken input carrierId) =
      .ok (js input.sourceKind.text, js input.binding.wireProtocol.text) := by
  have kindSpelled : (0x3A : UInt16) ∉ js input.sourceKind.text ∧
      (spells (js input.sourceKind.text) "chat_state" ||
        spells (js input.sourceKind.text) "messages_block" ||
        spells (js input.sourceKind.text) "responses_item") = true := by
    cases input.sourceKind <;> decide
  have wireSpelled : (0x3A : UInt16) ∉ js input.binding.wireProtocol.text ∧
      (spells (js input.binding.wireProtocol.text) "chat" ||
        spells (js input.binding.wireProtocol.text) "messages" ||
        spells (js input.binding.wireProtocol.text) "responses") = true := by
    cases input.binding.wireProtocol <;> decide
  have scheme : (0x3A : UInt16) ∉ js "ghcg-rsn-v1" := by decide
  have schemeSpelled : spells (js "ghcg-rsn-v1") "ghcg-rsn-v1" = true := by decide
  have colon : js ":" = [0x3A] := by decide
  have schemeColon : js "ghcg-rsn-v1:" = js "ghcg-rsn-v1" ++ [0x3A] := by decide
  have joined : carrierToken input carrierId = List.intercalate [0x3A]
      [js "ghcg-rsn-v1", js input.sourceKind.text, js input.binding.wireProtocol.text,
        carrierId] := by
    simp [carrierToken, List.intercalate, List.intersperse, colon, schemeColon]
  have parts : (carrierToken input carrierId).splitOn 0x3A =
      [js "ghcg-rsn-v1", js input.sourceKind.text, js input.binding.wireProtocol.text,
        carrierId] := by
    rw [joined]
    apply List.splitOn_intercalate
    · simp [scheme, kindSpelled.1, wireSpelled.1, not_mem_carrierId isId]
    · simp
  rw [parseToken, parts]
  simp only [schemeSpelled, kindSpelled.2, wireSpelled.2, isId, Bool.and_self, if_true]

/-! ## Objects -/

def canonicalMembers (object : WireJsonObject) : WireJsonObject :=
  stableSort memberCodePoints (canonicalizeMembers object)

theorem canonicalizeValue_members (object : WireJsonObject) :
    canonicalizeValue (.object object) = .object (canonicalMembers object) :=
  canonicalizeValue_object object

theorem canonicalObject_eq_ok :
    canonicalObject object = .ok bytes ↔ canonicalizeWireJson (.object object) = .ok bytes := by
  rw [canonicalObject]
  cases canonicalizeWireJson (.object object) with
  | error error => simp
  | ok bytes => simp

theorem canonicalObject_canonicalMembers (object : WireJsonObject) :
    canonicalObject (canonicalMembers object) = canonicalObject object := by
  have same : canonicalizeValue (.object (canonicalMembers object)) =
      canonicalizeValue (.object object) := by
    rw [← canonicalizeValue_members]
    exact (reordered_canonicalizeValue (.object object)).canonicalizeValue_eq.symm
  rw [canonicalObject, canonicalObject, canonicalizeWireJson, canonicalizeWireJson, same]

theorem memberValues_canonicalMembers (object : WireJsonObject) (key : JsString) :
    memberValues (canonicalMembers object) key =
      (memberValues object key).map canonicalizeValue := by
  have sorted : Rearranged Prod.fst (canonicalizeMembers object) (canonicalMembers object) :=
    (rearranged_comp codePoints_injective).mp (rearranged_stableSort memberCodePoints _)
  have named : (canonicalMembers object).filter (fun member => member.1 = key) =
      (canonicalizeMembers object).filter fun member => member.1 = key := by
    convert (sorted key).symm
  rw [memberValues, memberValues, named, canonicalizeMembers_eq_map]
  simp [List.filter_map, Function.comp_def]

/-- The checks of a payload do not see the order of members. -/
theorem validatePayload_canonicalMembers (sourceKind : ReasoningCarrierSourceKind)
    (payload : WireJsonObject) :
    validatePayload sourceKind (canonicalMembers payload) = validatePayload sourceKind payload := by
  have kind : oneString (canonicalMembers payload) "kind" = oneString payload "kind" := by
    rw [oneString, oneString, memberValues_canonicalMembers]
    rcases memberValues payload (js "kind") with _ | ⟨value, _ | ⟨other, values⟩⟩
    · rfl
    · cases value with
      | _ => rfl
    · cases value with
      | _ => rfl
  rw [validatePayload, validatePayload, kind, memberValues_canonicalMembers]
  rcases memberValues payload (js "state") with _ | ⟨value, _ | ⟨other, values⟩⟩
  · rfl
  · cases value with
    | _ => rfl
  · cases value with
    | _ => rfl

/-- A column gives the text of a canonical form back as it is. -/
theorem columnText_canonicalObject (written : canonicalObject object = .ok bytes) :
    columnText (decodeText bytes) = decodeText bytes := by
  obtain ⟨text, rfl, spelled⟩ := serializeWireJson_eq_ok (canonicalObject_eq_ok.mp written)
  rw [decodeText_encode]
  exact keepsText_columnText text spelled.nulFree

/-- The text of a canonical form is parsed if it is not too deep. -/
theorem parseObject_canonicalObject {maxBytes : Nat} (written : canonicalObject object = .ok bytes)
    (fits : bytes.length ≤ maxBytes) (members : WireJsonObject) :
    parseObject (decodeText bytes) maxBytes = .ok members ↔
      members = canonicalMembers object ∧ (WireJson.object object).nesting ≤ 64 := by
  rw [canonicalObject_eq_ok] at written
  have bytesBack : encodeUtf8 (decodeText bytes) = bytes := by
    obtain ⟨text, rfl, -⟩ := serializeWireJson_eq_ok written
    rw [decodeText_encode, encodeUtf8_textUnits]
  have small : bytes.length ≤ max 1 maxBytes := le_max_of_le_right fits
  have parsed (value : WireJson) : parseWireJson bytes ⟨max 1 maxBytes, 64⟩ = .ok value ↔
      value = .object (canonicalMembers object) ∧ (WireJson.object object).nesting ≤ 64 := by
    rw [parseWireJson_canonicalizeWireJson written, canonicalizeValue_members,
      ← canonicalizeValue_members, ← (reordered_canonicalizeValue (.object object)).nesting_eq,
      canonicalizeValue_members]
    exact ⟨And.right, fun isParsed => ⟨small, isParsed⟩⟩
  rw [parseObject, bytesBack, if_neg (not_lt.mpr fits)]
  constructor
  · intro isOk
    split at isOk
    · cases isOk
    · next others isParsed =>
      obtain ⟨same, depth⟩ := (parsed _).mp isParsed
      cases same
      exact ⟨(Except.ok.inj isOk).symm, depth⟩
    · cases isOk
  · rintro ⟨rfl, depth⟩
    rw [(parsed _).mpr ⟨rfl, depth⟩]

/-! ## Rows -/

/-- What may become of a row: it may be completed, and expire at another time. -/
def CarrierRow.Becomes (row other : CarrierRow) : Prop :=
  ∃ state expiresAtMs, (row.state = .complete → state = .complete) ∧
    other = { row with state := state, expiresAtMs := expiresAtMs }

theorem CarrierRow.Becomes.refl (row : CarrierRow) : row.Becomes row :=
  ⟨row.state, row.expiresAtMs, id, rfl⟩

theorem CarrierRow.Becomes.trans {first second third : CarrierRow} (before : first.Becomes second)
    (after : second.Becomes third) : first.Becomes third := by
  obtain ⟨_, _, complete, rfl⟩ := before
  obtain ⟨state, expiresAtMs, stillComplete, rfl⟩ := after
  exact ⟨state, expiresAtMs, stillComplete ∘ complete, rfl⟩

theorem CarrierRow.Becomes.token_eq (becomes : row.Becomes other) : other.token = row.token := by
  obtain ⟨_, _, -, rfl⟩ := becomes
  rfl

theorem CarrierRow.Becomes.binding_eq (becomes : row.Becomes other) :
    other.binding = row.binding := by
  obtain ⟨_, _, -, rfl⟩ := becomes
  rfl

theorem CarrierRow.Becomes.complete (becomes : row.Becomes other)
    (complete : row.state = .complete) : other.state = .complete := by
  obtain ⟨_, _, stays, rfl⟩ := becomes
  exact stays complete

/-- What the reader asks of what was written. -/
structure ReasoningCarrierInput.Readable (input : ReasoningCarrierInput) : Prop where
  payloadNesting : (WireJson.object input.payload).nesting ≤ 64
  projectionNesting : (WireJson.object input.projection).nesting ≤ 64
  validPayload : validatePayload input.sourceKind input.payload = .ok ()

namespace CarrierStore

def recordOf (input : ReasoningCarrierInput) (row : CarrierRow) : ReasoningCarrierRecord where
  token := row.token
  sourceKind := row.sourceKind
  state := row.state
  responseId := row.responseId.map columnText
  payload := canonicalMembers input.payload
  projection := canonicalMembers input.projection
  storedBytes := row.storedBytes

section Prepared

variable {urlOrigin : JsString → Option JsString} {limits : CarrierLimits} {host : CarrierHost}
variable {input : ReasoningCarrierInput} {payloadBytes projectionBytes : List UInt8}

/-- What `create` has checked before its transaction. -/
structure Prepared (urlOrigin : JsString → Option JsString) (limits : CarrierLimits)
    (host : CarrierHost) (input : ReasoningCarrierInput)
    (payloadBytes projectionBytes : List UInt8) : Prop where
  binding : validateBinding urlOrigin input.binding = .ok ()
  slot : validateSourceSlot input.sourceKind input.binding.sourceProtocol
    input.binding.wireProtocol = .ok ()
  payload : canonicalObject input.payload = .ok payloadBytes
  projection : canonicalObject input.projection = .ok projectionBytes
  itemBytes : payloadBytes.length + projectionBytes.length ≤ limits.maxItemBytes
  storedBytes : payloadBytes.length + projectionBytes.length ≤ limits.maxStoredBytes
  isId : isCarrierId host.newId = true

theorem prepared_of_prepare
    (prepared : prepare urlOrigin limits host input = .ok (payloadBytes, projectionBytes)) :
    Prepared urlOrigin limits host input payloadBytes projectionBytes := by
  unfold prepare at prepared
  cases binding : validateBinding urlOrigin input.binding with
  | error error =>
    rw [binding] at prepared
    cases prepared
  | ok =>
    rw [binding] at prepared
    cases slot : validateSourceSlot input.sourceKind input.binding.sourceProtocol
        input.binding.wireProtocol with
    | error error =>
      rw [slot] at prepared
      cases prepared
    | ok =>
      rw [slot] at prepared
      cases payload : canonicalObject input.payload with
      | error error =>
        rw [payload] at prepared
        cases prepared
      | ok written =>
        rw [payload] at prepared
        cases projection : canonicalObject input.projection with
        | error error =>
          rw [projection] at prepared
          cases prepared
        | ok other =>
          rw [projection] at prepared
          change (if written.length + other.length ≤ 0 then Except.error CarrierError.unavailable
            else if limits.maxItemBytes < written.length + other.length ∨
              limits.maxStoredBytes < written.length + other.length then .error .capacity
            else if isCarrierId host.newId = false then .error .unavailable
            else .ok (written, other)) = _ at prepared
          split at prepared
          · cases prepared
          · split at prepared
            · cases prepared
            · next fits =>
              split at prepared
              · cases prepared
              · next isId =>
                cases prepared
                rw [not_or, not_lt, not_lt] at fits
                exact ⟨binding, slot, payload, projection, fits.1, fits.2, by simpa using isId⟩

/-- A row with what an input wrote is read back where it may be read at all: for the binding that
its columns give back. Then it is read as it was written. -/
theorem readRow_eq_ok_iff
    (prepared : Prepared urlOrigin limits host input payloadBytes projectionBytes) {ttlMs : Int}
    {insertionSeq : Nat}
    (becomes : (newRow host ttlMs input payloadBytes projectionBytes insertionSeq).Becomes row)
    {carriers : CarrierTable} (found : carriers.find? (carrierToken input host.newId) = some row)
    {now : Int} {binding : ReasoningCarrierBinding} {requireComplete : Bool}
    {record : ReasoningCarrierRecord} :
    readRow limits carriers now (carrierToken input host.newId)
        (js input.sourceKind.text, js input.binding.wireProtocol.text) binding
        requireComplete = .ok record ↔
      input.binding.read = binding ∧ (requireComplete = true → row.state = .complete) ∧
        now < row.expiresAtMs ∧ input.Readable ∧ record = recordOf input row := by
  obtain ⟨state, expiresAtMs, -, rfl⟩ := becomes
  have payloadBack := parseObject_canonicalObject prepared.payload
    (Nat.le_add_right payloadBytes.length projectionBytes.length)
  have projectionBack := parseObject_canonicalObject prepared.projection
    (Nat.le_add_left projectionBytes.length payloadBytes.length)
  have size : ¬ limits.maxItemBytes < payloadBytes.length + projectionBytes.length :=
    not_lt.mpr prepared.itemBytes
  rw [readRow, found]
  dsimp only [newRow, Option.map_some, CarrierRow.read]
  rw [columnText_canonicalObject prepared.payload, columnText_canonicalObject prepared.projection]
  have wire : input.binding.read.wireProtocol = input.binding.wireProtocol := rfl
  have source : input.binding.read.sourceProtocol = input.binding.sourceProtocol := rfl
  rw [wire, source]
  by_cases may : input.binding.read = binding ∧ (requireComplete = true → state = .complete) ∧
      now < expiresAtMs
  · have admitted : ¬ (input.binding.read ≠ binding ∨ js input.sourceKind.text ≠
        js input.sourceKind.text ∨ js input.binding.wireProtocol.text ≠
          js input.binding.wireProtocol.text ∨
        (requireComplete = true ∧ state ≠ .complete) ∨ expiresAtMs ≤ now) := by
      simp only [ne_eq, not_true_eq_false, false_or, not_or, not_and, not_not, not_le]
      exact may
    rw [if_neg admitted]
    cases payload : parseObject (decodeText payloadBytes)
        (payloadBytes.length + projectionBytes.length) with
    | error error =>
      refine iff_of_false (by rintro ⟨⟩) ?_
      rintro ⟨-, -, -, readable, -⟩
      rw [(payloadBack _).mpr ⟨rfl, readable.payloadNesting⟩] at payload
      cases payload
    | ok members =>
      obtain ⟨rfl, payloadNesting⟩ := (payloadBack members).mp payload
      cases projection : parseObject (decodeText projectionBytes)
          (payloadBytes.length + projectionBytes.length) with
      | error error =>
        refine iff_of_false (by rintro ⟨⟩) ?_
        rintro ⟨-, -, -, readable, -⟩
        rw [(projectionBack _).mpr ⟨rfl, readable.projectionNesting⟩] at projection
        cases projection
      | ok others =>
        obtain ⟨rfl, projectionNesting⟩ := (projectionBack others).mp projection
        simp only [bind, Except.bind, canonicalObject_canonicalMembers, prepared.payload,
          prepared.projection, prepared.slot, validatePayload_canonicalMembers]
        rw [if_neg (by simp [size])]
        cases valid : validatePayload input.sourceKind input.payload with
        | error error =>
          refine iff_of_false (by rintro ⟨⟩) ?_
          rintro ⟨-, -, -, readable, -⟩
          rw [readable.validPayload] at valid
          cases valid
        | ok =>
          constructor
          · intro isOk
            exact ⟨may.1, may.2.1, may.2.2, ⟨payloadNesting, projectionNesting, valid⟩,
              (Except.ok.inj isOk).symm⟩
          · rintro ⟨-, -, -, -, rfl⟩
            rfl
  · rw [if_pos]
    · refine iff_of_false (by rintro ⟨⟩) ?_
      rintro ⟨same, complete, live, -⟩
      exact may ⟨same, complete, live⟩
    · by_contra shut
      simp only [ne_eq, not_true_eq_false, false_or, not_or, not_and, not_not, not_le] at shut
      exact may shut

end Prepared

end CarrierStore

end Conversion

end GhcGateway
