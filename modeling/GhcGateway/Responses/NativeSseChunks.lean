/-
# Chunks of the native Responses event stream

The reader uses the text of a chunk as it arrives, and two things it does there depend
on where the stream is cut. The carriage return at the end of the text read so far is
turned into a line feed at once, so the line feed of a CRLF that comes after it counts as
a second line terminator. And a chunk that does not decode is given up as a whole, with
the records it completes. `ReaderState.Keeps` says of a run that neither happens. Such a
run reads the stream as if it had come in one piece (`readChunks_of_keeps`), since
draining records commutes with appending normalized text (`drain_append`).
-/

import GhcGateway.Responses.NativeSse

namespace GhcGateway.Responses

open Library Utf8Decoder

variable {text more rest : JsString} {boundary : Nat} {held : Bool}

/-! ## Line terminators -/

/-- Text without carriage returns. -/
def CrFree (text : JsString) : Prop := 0x0D ∉ text

/-- The cut between `text` and `more` falls inside a CRLF. -/
def CutsCrLf (text more : JsString) : Prop :=
  text.getLast? = some 0x0D ∧ more.head? = some 0x0A

theorem replaceCrLf_cons {unit : UInt16} (single : ¬ CutsCrLf [unit] rest) :
    replaceCrLf (unit :: rest) = unit :: replaceCrLf rest := by
  rw [replaceCrLf]
  rintro rest' rfl rfl
  exact single ⟨rfl, rfl⟩

theorem replaceCrLf_append (whole : ¬ CutsCrLf text more) :
    replaceCrLf (text ++ more) = replaceCrLf text ++ replaceCrLf more := by
  induction text using replaceCrLf.induct with
  | case1 rest ih =>
    simp only [List.cons_append, replaceCrLf]
    rw [ih]
    rintro ⟨last, head⟩
    refine whole ⟨?_, head⟩
    cases rest with
    | nil => simp at last
    | cons unit rest => simpa using last
  | case2 unit rest single ih =>
    have here : ¬ CutsCrLf [unit] rest := by
      rintro ⟨last, head⟩
      cases rest with
      | nil => simp at head
      | cons next rest =>
        simp only [List.getLast?_singleton, Option.some.injEq, List.head?_cons] at last head
        exact single rest last (by rw [head])
    have there : ¬ CutsCrLf [unit] (rest ++ more) := by
      rintro ⟨last, head⟩
      cases rest with
      | nil => exact whole ⟨last, head⟩
      | cons next rest => exact here ⟨last, head⟩
    rw [List.cons_append, replaceCrLf_cons there, replaceCrLf_cons here, List.cons_append, ih]
    rintro ⟨last, head⟩
    refine whole ⟨?_, head⟩
    cases rest with
    | nil => simp at last
    | cons next rest => simpa using last
  | case3 => rfl

/-- Normalization looks at most one unit back, and then only for a carriage
return. -/
theorem normalizeLineEndings_append (whole : ¬ CutsCrLf text more) :
    normalizeLineEndings (text ++ more) =
      normalizeLineEndings text ++ normalizeLineEndings more := by
  rw [normalizeLineEndings, replaceCrLf_append whole, replaceCr, List.map_append]
  rfl

/-- A text read after another one, without the line feed of a CRLF whose carriage return
was read before it. -/
def afterCut (held : Bool) (text : JsString) : JsString :=
  if held = true ∧ text.head? = some 0x0A then text.tail else text

/-- Whether the text read so far ends in a carriage return, once `text` is read too. -/
def endsInCr (held : Bool) (text : JsString) : Bool :=
  match text.getLast? with
  | none => held
  | some unit => unit = 0x0D

/-- Where the cut falls inside a CRLF, its line feed is left out behind it. -/
theorem normalizeLineEndings_append_afterCut (text more : JsString) :
    normalizeLineEndings (text ++ more) =
      normalizeLineEndings text ++
        normalizeLineEndings (afterCut (text.getLast? = some 0x0D) more) := by
  by_cases cuts : CutsCrLf text more
  · obtain ⟨front, rfl⟩ := List.getLast?_eq_some_iff.mp cuts.1
    obtain ⟨rest, rfl⟩ := List.head?_eq_some_iff.mp cuts.2
    have noCut : ∀ more, ¬ CutsCrLf front (0x0D :: more) :=
      fun more ⟨_, head⟩ => absurd head (by simp)
    rw [afterCut, if_pos ⟨decide_eq_true cuts.1, cuts.2⟩, List.tail_cons, List.append_assoc,
      normalizeLineEndings_append (noCut []), List.append_assoc]
    exact normalizeLineEndings_append (noCut (0x0A :: rest))
  · rw [afterCut, if_neg fun both => cuts ⟨of_decide_eq_true both.1, both.2⟩,
      normalizeLineEndings_append cuts]

/-- The same for a text that comes after others, unless it starts with such a line feed
itself. -/
theorem normalizeLineEndings_afterCut (whole : ¬ (held = true ∧ text.head? = some 0x0A))
    (more : JsString) :
    normalizeLineEndings (afterCut held (text ++ more)) =
      normalizeLineEndings text ++ normalizeLineEndings (afterCut (endsInCr held text) more) := by
  rcases List.eq_nil_or_concat text with rfl | ⟨front, unit, rfl⟩
  · rfl
  · have head : (front.concat unit ++ more).head? = (front.concat unit).head? := by
      cases front <;> rfl
    rw [afterCut, head, if_neg whole, normalizeLineEndings_append_afterCut, endsInCr]
    simp

theorem crFree_normalizeLineEndings (text : JsString) : CrFree (normalizeLineEndings text) := by
  intro member
  simp only [normalizeLineEndings, replaceCr, List.mem_map] at member
  obtain ⟨unit, -, replaced⟩ := member
  split at replaced
  · exact absurd replaced (by decide)
  · contradiction

theorem replaceCrLf_of_crFree (free : CrFree text) : replaceCrLf text = text := by
  induction text with
  | nil => rfl
  | cons unit rest ih =>
    have notCr : unit ≠ 0x0D := fun cr => free (cr ▸ List.mem_cons_self)
    rw [replaceCrLf_cons (by rintro ⟨last, -⟩; simp at last; exact notCr last),
      ih fun member => free (List.mem_cons_of_mem _ member)]

theorem normalizeLineEndings_of_crFree (free : CrFree text) : normalizeLineEndings text = text := by
  rw [normalizeLineEndings, replaceCrLf_of_crFree free, replaceCr]
  conv_rhs => rw [← List.map_id text]
  apply List.map_congr_left
  intro unit member
  have notCr : unit ≠ 0x0D := fun cr => free (cr ▸ member)
  exact if_neg notCr

theorem CrFree.drop (free : CrFree text) (count : Nat) : CrFree (text.drop count) :=
  fun member => free (List.mem_of_mem_drop member)

theorem CrFree.append (free : CrFree text) (freeMore : CrFree more) : CrFree (text ++ more) := by
  intro member
  rcases List.mem_append.mp member with left | right
  · exact free left
  · exact freeMore right

theorem CrFree.not_cuts (free : CrFree text) (more : JsString) : ¬ CutsCrLf text more :=
  fun cut => free (List.mem_of_getLast? cut.1)

/-! ## Blank lines -/

/-- A blank line is two line feeds at its index. -/
theorem boundaryIndex_eq_some (found : boundaryIndex text = some boundary) :
    text = text.take boundary ++ [0x0A, 0x0A] ++ text.drop (boundary + 2) := by
  induction text using boundaryIndex.induct generalizing boundary with
  | case1 rest =>
    simp only [boundaryIndex, Option.some.injEq] at found
    subst found
    rfl
  | case2 unit rest single ih =>
    have alone : ¬ (unit = 0x0A ∧ rest.head? = some 0x0A) := by
      rintro ⟨first, second⟩
      obtain ⟨tail, rfl⟩ := List.head?_eq_some_iff.mp second
      exact single tail first rfl
    rw [boundaryIndex_cons alone] at found
    obtain ⟨previous, foundRest, rfl⟩ := Option.map_eq_some_iff.mp found
    have := ih foundRest
    simp only [List.take_succ_cons, List.cons_append, List.drop_succ_cons]
    rw [← this]
  | case3 => simp [boundaryIndex] at found

theorem boundaryIndex_lt (found : boundaryIndex text = some boundary) :
    boundary + 2 ≤ text.length := by
  have := congrArg List.length (boundaryIndex_eq_some found)
  simp only [List.length_append, List.length_take, List.length_cons, List.length_nil,
    List.length_drop] at this
  omega

theorem boundaryIndex_append (found : boundaryIndex text = some boundary) (more : JsString) :
    boundaryIndex (text ++ more) = some boundary := by
  induction text using boundaryIndex.induct generalizing boundary with
  | case1 rest => exact found
  | case2 unit rest single ih =>
    have apart : ¬ (unit = 0x0A ∧ rest.head? = some 0x0A) := by
      rintro ⟨first, second⟩
      obtain ⟨tail, rfl⟩ := List.head?_eq_some_iff.mp second
      exact single tail first rfl
    rw [boundaryIndex_cons apart] at found
    obtain ⟨previous, foundRest, rfl⟩ := Option.map_eq_some_iff.mp found
    have nonempty : rest ≠ [] := by
      rintro rfl
      simp [boundaryIndex] at foundRest
    obtain ⟨next, tail, rfl⟩ := List.exists_cons_of_ne_nil nonempty
    rw [List.cons_append, boundaryIndex_cons (by simpa using apart), ih foundRest]
    rfl
  | case3 => simp [boundaryIndex] at found

/-- A blank line that appears only with more text needs that text: at most its
first line feed was there before. -/
theorem boundaryIndex_append_none (none : boundaryIndex text = none)
    (found : boundaryIndex (text ++ more) = some boundary) : text.length ≤ boundary + 1 := by
  induction text using boundaryIndex.induct generalizing boundary with
  | case1 rest => simp [boundaryIndex] at none
  | case2 unit rest single ih =>
    have apart : ¬ (unit = 0x0A ∧ rest.head? = some 0x0A) := by
      rintro ⟨first, second⟩
      obtain ⟨tail, rfl⟩ := List.head?_eq_some_iff.mp second
      exact single tail first rfl
    rw [boundaryIndex_cons apart, Option.map_eq_none_iff] at none
    cases rest with
    | nil => simp
    | cons next tail =>
      rw [List.cons_append, boundaryIndex_cons (by simpa using apart)] at found
      obtain ⟨previous, foundRest, rfl⟩ := Option.map_eq_some_iff.mp found
      have := ih none foundRest
      simp only [List.length_cons] at this ⊢
      omega
  | case3 => simp

/-! ## Draining -/

section Drain

variable (limit : Nat) {failure : GatewayFailure} {pending : JsString}

/-- The records a text completes, with fuel for every blank line it can hold. -/
def drain (text : JsString) : Generator ParsedSseEvent GatewayFailure JsString :=
  drainPending limit (text.length + 1) text

theorem drainPending_crFree {fuel : Nat} (free : CrFree text) :
    drainPending limit (fuel + 1) text =
      match boundaryIndex text with
      | none =>
        if limit < utf8ByteLength text then Generator.throw invalidUpstreamResponse
        else Generator.pure text
      | some boundary =>
        if limit < utf8ByteLength (text.take boundary ++ [0x0A, 0x0A]) then
          Generator.throw invalidUpstreamResponse
        else
          match parseSseRecord (text.take boundary) with
          | .error failure => Generator.throw failure
          | .ok record =>
            Generator.emit record.toList
              (drainPending limit fuel (text.drop (boundary + 2))) := by
  have normal := normalizeLineEndings_of_crFree free
  cases found : boundaryIndex text with
  | none => simp only [drainPending, normal, found]
  | some boundary =>
    cases parsed : parseSseRecord (text.take boundary) with
    | error failure => simp only [drainPending, normal, found, parsed]
    | ok record => simp only [drainPending, normal, found, parsed]

/-- Fuel beyond the length of the text makes no difference. -/
theorem drainPending_fuel {fuel other : Nat} {text : JsString} (free : CrFree text)
    (enough : text.length < fuel) (enoughOther : text.length < other) :
    drainPending limit fuel text = drainPending limit other text := by
  induction fuel generalizing other text with
  | zero => omega
  | succ fuel ih =>
    obtain ⟨other, rfl⟩ : ∃ n, other = n + 1 := ⟨other - 1, by omega⟩
    rw [drainPending_crFree limit free, drainPending_crFree limit free]
    cases found : boundaryIndex text with
    | none => rfl
    | some boundary =>
      have := boundaryIndex_lt found
      have rest : (text.drop (boundary + 2)).length = text.length - (boundary + 2) :=
        List.length_drop
      have same := @ih other (text.drop (boundary + 2)) (free.drop _) (by omega) (by omega)
      simp only [same]

theorem length_replaceCrLf_le (text : JsString) : (replaceCrLf text).length ≤ text.length := by
  induction text using replaceCrLf.induct with
  | case1 rest ih =>
    simp only [replaceCrLf, List.length_cons]
    omega
  | case2 unit rest single ih =>
    rw [replaceCrLf]
    · simp only [List.length_cons]
      omega
    · exact single
  | case3 => exact Nat.le_refl 0

/-- The reader's loop on any text is `drain` on the normalized one. -/
theorem drainPending_eq_drain (text : JsString) :
    drainPending limit (text.length + 1) text = drain limit (normalizeLineEndings text) := by
  have free := crFree_normalizeLineEndings text
  have shorter : (normalizeLineEndings text).length ≤ text.length := by
    rw [normalizeLineEndings, replaceCr, List.length_map]
    exact length_replaceCrLf_le text
  rw [drain, drainPending_fuel limit free (Nat.lt_succ_self _) (Nat.lt_succ_of_le shorter),
    drainPending_crFree limit free]
  rfl

/-- `drain` unfolded once. -/
theorem drain_eq (free : CrFree text) :
    drain limit text =
      match boundaryIndex text with
      | none =>
        if limit < utf8ByteLength text then Generator.throw invalidUpstreamResponse
        else Generator.pure text
      | some boundary =>
        if limit < utf8ByteLength (text.take boundary ++ [0x0A, 0x0A]) then
          Generator.throw invalidUpstreamResponse
        else
          match parseSseRecord (text.take boundary) with
          | .error failure => Generator.throw failure
          | .ok record =>
            Generator.emit record.toList (drain limit (text.drop (boundary + 2))) := by
  rw [drain, drainPending_crFree limit free]
  cases found : boundaryIndex text with
  | none => rfl
  | some boundary =>
    have := boundaryIndex_lt found
    have rest : (text.drop (boundary + 2)).length = text.length - (boundary + 2) :=
      List.length_drop
    simp only [drain]
    rw [drainPending_fuel limit (free.drop _) (by omega) (Nat.lt_succ_self _)]

/-- Text left pending holds no blank line and is within the limit. -/
structure Settled (pending : JsString) : Prop where
  free : CrFree pending
  noBoundary : boundaryIndex pending = none
  within : utf8ByteLength pending ≤ limit

theorem settled_nil : Settled limit [] := ⟨List.not_mem_nil, rfl, Nat.zero_le _⟩

variable {limit}

theorem Settled.drain_eq (settled : Settled limit pending) :
    drain limit pending = Generator.pure pending := by
  rw [Responses.drain_eq limit settled.free, settled.noBoundary]
  exact if_neg (Nat.not_lt.mpr settled.within)

/-- What `drain` returns is settled and is the end of the text it was given. -/
theorem settled_of_drain (free : CrFree text)
    (returned : (drain limit text).outcome = .ok pending) :
    Settled limit pending ∧ ∃ used, text = used ++ pending := by
  induction h : text.length using Nat.strong_induction_on generalizing text with
  | _ length ih =>
    subst h
    rw [drain_eq limit free] at returned
    cases found : boundaryIndex text with
    | none =>
      simp only [found] at returned
      split at returned
      · cases returned
      · next within =>
        cases returned
        exact ⟨⟨free, found, Nat.not_lt.mp within⟩, [], rfl⟩
    | some boundary =>
      simp only [found] at returned
      split at returned
      · cases returned
      · cases parsed : parseSseRecord (text.take boundary) with
        | error failure =>
          rw [parsed] at returned
          cases returned
        | ok record =>
          rw [parsed] at returned
          have := boundaryIndex_lt found
          have shorter : (text.drop (boundary + 2)).length < text.length := by
            rw [List.length_drop]
            omega
          obtain ⟨settled, used, rest⟩ := ih _ shorter (free.drop _) returned rfl
          refine ⟨settled, text.take (boundary + 2) ++ used, ?_⟩
          rw [List.append_assoc, ← rest, List.take_append_drop]

/-- Draining a text and then the rest of it is draining the whole. The limit is
no exception: pending text that is too long stays too long. -/
theorem drain_append (free : CrFree text) (freeMore : CrFree more) :
    drain limit (text ++ more) =
      (drain limit text).bind fun pending => drain limit (pending ++ more) := by
  induction h : text.length using Nat.strong_induction_on generalizing text with
  | _ length ih =>
    subst h
    rw [drain_eq limit (free.append freeMore), drain_eq limit free]
    cases found : boundaryIndex text with
    | some boundary =>
      have bound := boundaryIndex_lt found
      rw [boundaryIndex_append found]
      simp only
      rw [List.take_append_of_le_length (by omega), List.drop_append_of_le_length (by omega)]
      split
      · rfl
      · cases parseSseRecord (text.take boundary) with
        | error failure => rfl
        | ok record =>
          have shorter : (text.drop (boundary + 2)).length < text.length := by
            rw [List.length_drop]
            omega
          simp only
          rw [Generator.emit_bind, ih _ shorter (free.drop _) rfl]
    | none =>
      by_cases within : limit < utf8ByteLength text
      · simp only [if_pos within, Generator.throw_bind]
        cases foundMore : boundaryIndex (text ++ more) with
        | none =>
          have := utf8ByteLength_le_append text more
          exact if_pos (by omega)
        | some boundary =>
          have short := boundaryIndex_append_none found foundMore
          have raw : (text ++ more).take boundary ++ [0x0A, 0x0A] =
              text ++ ((text ++ more).take (boundary + 2)).drop text.length := by
            have whole := boundaryIndex_eq_some foundMore
            have front : (text ++ more).take (boundary + 2) =
                (text ++ more).take boundary ++ [0x0A, 0x0A] := by
              have len := boundaryIndex_lt foundMore
              conv_lhs => rw [whole]
              rw [List.take_append_of_le_length]
              · apply List.take_of_length_le
                simp
              · simp only [List.length_append, List.length_take, List.length_cons,
                  List.length_nil]
                simp only [List.length_append] at len
                omega
            rw [← front]
            conv_lhs => rw [← List.take_append_drop text.length
              ((text ++ more).take (boundary + 2))]
            rw [List.take_take, Nat.min_eq_left (by omega), List.take_left]
          have := utf8ByteLength_le_append text
              (((text ++ more).take (boundary + 2)).drop text.length)
          rw [← raw] at this
          exact if_pos (by omega)
      · simp only [if_neg within, Generator.pure_bind]
        rw [drain_eq limit (free.append freeMore)]

theorem parseSseRecord_error {raw : JsString} (failed : parseSseRecord raw = .error failure) :
    failure = invalidUpstreamResponse := by
  unfold parseSseRecord at failed
  dsimp only at failed
  split at failed
  · cases failed
  · split at failed
    · cases failed
      rfl
    · cases failed

/-- Draining fails in one way only. -/
theorem drain_error (free : CrFree text) (failed : (drain limit text).outcome = .error failure) :
    failure = invalidUpstreamResponse := by
  induction h : text.length using Nat.strong_induction_on generalizing text with
  | _ length ih =>
    subst h
    rw [drain_eq limit free] at failed
    cases found : boundaryIndex text with
    | none =>
      simp only [found] at failed
      split at failed
      · cases failed
        rfl
      · cases failed
    | some boundary =>
      simp only [found] at failed
      split at failed
      · cases failed
        rfl
      · cases parsed : parseSseRecord (text.take boundary) with
        | error other =>
          rw [parsed] at failed
          cases failed
          exact parseSseRecord_error parsed
        | ok record =>
          rw [parsed] at failed
          have := boundaryIndex_lt found
          have shorter : (text.drop (boundary + 2)).length < text.length := by
            rw [List.length_drop]
            omega
          exact ih _ shorter (free.drop _) failed rfl

end Drain

/-! ## Chunks -/

namespace ReaderState

variable {limit : Nat}
  {reader next : ReaderState} {chunk : List UInt8} {chunks before : List (List UInt8)}
  {decoder middle last : Utf8Decoder} {front : JsString}

/-- What holds of the reader between two chunks. -/
structure Ready (limit : Nat) (reader : ReaderState) : Prop where
  formed : reader.decoder.WellFormed
  settled : Settled limit reader.pending

theorem ready_initial : Ready limit initial :=
  ⟨wellFormed_initial, settled_nil limit⟩

/-- A chunk that decodes is drained as normalized text behind what is pending. -/
theorem readChunk_eq (ready : Ready limit reader)
    (decoded : reader.decoder.decode chunk = some (decoder, text)) :
    reader.readChunk limit chunk =
      (drain limit (reader.pending ++ normalizeLineEndings text)).bind fun pending =>
        Generator.pure ⟨decoder, pending⟩ := by
  have free := ready.settled.free
  rw [readChunk, decoded]
  simp only
  rw [drainPending_eq_drain, normalizeLineEndings_append (free.not_cuts text),
    normalizeLineEndings_of_crFree free]

/-- The reader after a chunk. -/
theorem readChunk_ok (ready : Ready limit reader)
    (read : (reader.readChunk limit chunk).outcome = .ok next) :
    Ready limit next ∧ ∃ text, reader.decoder.decode chunk = some (next.decoder, text) ∧
      (drain limit (reader.pending ++ normalizeLineEndings text)).outcome = .ok next.pending := by
  cases decoded : reader.decoder.decode chunk with
  | none =>
    rw [readChunk, decoded] at read
    cases read
  | some result =>
    obtain ⟨decoder, text⟩ := result
    rw [readChunk_eq ready decoded] at read
    cases drained : (drain limit (reader.pending ++ normalizeLineEndings text)).outcome with
    | error failure =>
      rw [Generator.bind, drained] at read
      cases read
    | ok pending =>
      rw [Generator.bind, drained] at read
      cases read
      have free := ready.settled.free.append (crFree_normalizeLineEndings text)
      exact ⟨⟨decode_wellFormed ready.formed decoded,
        (settled_of_drain free drained).1⟩,
        text, rfl, drained⟩

/-- A cut inside the decoded text is a cut inside the bytes. -/
theorem not_cuts_text (formed : decoder.WellFormed) {bytes more : List UInt8}
    (first : decoder.decode bytes = some (middle, text))
    (second : middle.decode more = some (last, rest))
    (whole : ¬ (bytes.getLast? = some 0x0D ∧ more.head? = some 0x0A)) : ¬ CutsCrLf text rest := by
  rintro ⟨lastUnit, headUnit⟩
  obtain ⟨idle, headByte⟩ := head_of_decode
    (decode_wellFormed formed first) second headUnit (by decide)
  have lastByte := last_of_decode formed first idle lastUnit (by decide)
  obtain ⟨byte, found, same⟩ := Option.map_eq_some_iff.mp headByte
  obtain ⟨byte', found', same'⟩ := Option.map_eq_some_iff.mp lastByte
  have toByte : ∀ (b : UInt8) (n : Nat), n < 256 → UInt16.ofNat b.toNat = UInt16.ofNat n →
      b = UInt8.ofNat n := by
    intro b n small eq
    apply UInt8.toNat.inj
    have := congrArg UInt16.toNat eq
    rw [UInt16.toNat_ofNat', UInt16.toNat_ofNat'] at this
    rw [UInt8.toNat_ofNat']
    have := b.toNat_lt
    omega
  refine whole ⟨?_, ?_⟩
  · rw [found', toByte byte' 0x0D (by omega) same']
    rfl
  · rw [found, toByte byte 0x0A (by omega) same]
    rfl

/-- Reading two chunks is reading one, unless the cut between them falls inside a
CRLF or the second does not decode. -/
theorem readChunk_append (ready : Ready limit reader) {more : List UInt8}
    (first : reader.decoder.decode chunk = some (middle, text))
    (second : middle.decode more = some (last, rest))
    (whole : ¬ (chunk.getLast? = some 0x0D ∧ more.head? = some 0x0A)) :
    reader.readChunk limit (chunk ++ more) =
      (reader.readChunk limit chunk).bind fun next => next.readChunk limit more := by
  have free := ready.settled.free.append (crFree_normalizeLineEndings text)
  have joined := normalizeLineEndings_append (not_cuts_text ready.formed first second whole)
  rw [readChunk_eq ready (decode_append_some first second), joined,
    ← List.append_assoc, drain_append free (crFree_normalizeLineEndings rest),
    readChunk_eq ready first, Generator.bind_assoc, Generator.bind_assoc]
  apply Generator.bind_congr
  intro pending drained
  have nextReady : Ready limit ⟨middle, pending⟩ :=
    ⟨decode_wellFormed ready.formed first, (settled_of_drain free drained).1⟩
  rw [Generator.pure_bind, readChunk_eq nextReady second]

/-- The rest of a stream read in one piece, as far as it decodes; `held` says whether the
text read so far ends in a carriage return. -/
def readWhole (limit : Nat) (held : Bool) (reader : ReaderState) (bytes : List UInt8) :
    Generator ParsedSseEvent GatewayFailure ReaderState :=
  let (decoder, text) := reader.decoder.decodePrefix bytes
  (drain limit (reader.pending ++ normalizeLineEndings (afterCut held text))).bind fun pending =>
    match decoder with
    | none => Generator.throw invalidUpstreamResponse
    | some decoder => Generator.pure ⟨decoder, pending⟩

/-- No chunk that the run reads starts with the line feed of a CRLF whose carriage return
was read before, and the chunk that does not decode, if the run comes to one, completes no
record in front of the place where decoding fails. -/
def Keeps (limit : Nat) : Bool → ReaderState → List (List UInt8) → Prop
  | _, _, [] => True
  | held, reader, chunk :: chunks =>
    match reader.decoder.decode chunk with
    | none =>
      (drain limit (reader.pending ++
        normalizeLineEndings (afterCut held (reader.decoder.decodePrefix chunk).2))).yielded = []
    | some (decoder, text) =>
      ¬ (held = true ∧ text.head? = some 0x0A) ∧
        match (drain limit (reader.pending ++ normalizeLineEndings text)).outcome with
        | .error _ => True
        | .ok pending => Keeps limit (endsInCr held text) ⟨decoder, pending⟩ chunks

instance decidableKeeps (limit : Nat) :
    (held : Bool) → (reader : ReaderState) → (chunks : List (List UInt8)) →
      Decidable (Keeps limit held reader chunks)
  | _, _, [] => inferInstanceAs (Decidable True)
  | held, reader, chunk :: chunks =>
    match decoded : reader.decoder.decode chunk with
    | none =>
      decidable_of_iff
        ((drain limit (reader.pending ++ normalizeLineEndings
          (afterCut held (reader.decoder.decodePrefix chunk).2))).yielded = [])
        (by rw [Keeps, decoded])
    | some (decoder, text) =>
      match drained : (drain limit (reader.pending ++ normalizeLineEndings text)).outcome with
      | .error _ =>
        decidable_of_iff (¬ (held = true ∧ text.head? = some 0x0A))
          (by rw [Keeps, decoded]; dsimp only; rw [drained, and_true])
      | .ok pending =>
        have := decidableKeeps limit (endsInCr held text) ⟨decoder, pending⟩ chunks
        decidable_of_iff (¬ (held = true ∧ text.head? = some 0x0A) ∧
            Keeps limit (endsInCr held text) ⟨decoder, pending⟩ chunks)
          (by rw [Keeps, decoded]; dsimp only; rw [drained])

/-- A run that keeps its records reads the stream as if it had come in one piece. -/
theorem readChunks_of_keeps (ready : Ready limit reader) (keeps : Keeps limit held reader chunks) :
    reader.readChunks limit chunks = reader.readWhole limit held chunks.flatten := by
  induction chunks generalizing held reader with
  | nil =>
    have nothing : normalizeLineEndings (afterCut held []) = [] := by cases held <;> rfl
    rw [List.flatten_nil, readWhole, Utf8Decoder.decodePrefix]
    dsimp only
    rw [nothing, List.append_nil, ready.settled.drain_eq]
    rfl
  | cons chunk chunks ih =>
    rw [readChunks, List.flatten_cons, readWhole]
    cases decoded : reader.decoder.decode chunk with
    | none =>
      rw [Keeps, decoded] at keeps
      rw [readChunk, decoded, decodePrefix_append_none decoded]
      dsimp only at keeps ⊢
      rw [decodePrefix_of_decode_none decoded]
      have free := ready.settled.free.append
        (crFree_normalizeLineEndings (afterCut held (reader.decoder.decodePrefix chunk).2))
      cases drained : (drain limit (reader.pending ++ normalizeLineEndings
          (afterCut held (reader.decoder.decodePrefix chunk).2))).outcome with
      | error failure =>
        rw [Generator.bind_of_error drained, keeps, drain_error free drained]
        rfl
      | ok pending =>
        rw [Generator.bind_of_ok drained, keeps]
        rfl
    | some result =>
      obtain ⟨decoder, text⟩ := result
      rw [Keeps, decoded] at keeps
      obtain ⟨whole, keeps⟩ := keeps
      have free := ready.settled.free.append (crFree_normalizeLineEndings text)
      rw [readChunk_eq ready decoded, decodePrefix_append decoded]
      dsimp only
      rw [normalizeLineEndings_afterCut whole, ← List.append_assoc,
        drain_append free (crFree_normalizeLineEndings _), Generator.bind_assoc,
        Generator.bind_assoc]
      apply Generator.bind_congr
      intro pending drained
      rw [drained] at keeps
      rw [Generator.pure_bind, ih ⟨decode_wellFormed ready.formed decoded,
        (settled_of_drain free drained).1⟩ keeps, readWhole]

theorem readChunks_append (reader : ReaderState) (chunks more : List (List UInt8)) :
    reader.readChunks limit (chunks ++ more) =
      (reader.readChunks limit chunks).bind fun next => next.readChunks limit more := by
  induction chunks generalizing reader with
  | nil => rfl
  | cons chunk chunks ih =>
    rw [List.cons_append, readChunks, readChunks, Generator.bind_assoc]
    apply Generator.bind_congr
    intro next _
    exact ih next

theorem readChunks_singleton (reader : ReaderState) (chunk : List UInt8) :
    reader.readChunks limit [chunk] = reader.readChunk limit chunk :=
  Generator.bind_pure _

/-- The reader stays ready over a whole run. -/
theorem readChunks_ok (ready : Ready limit reader)
    (read : (reader.readChunks limit chunks).outcome = .ok next) : Ready limit next := by
  induction chunks generalizing reader with
  | nil =>
    cases read
    exact ready
  | cons chunk chunks ih =>
    rw [readChunks] at read
    cases first : (reader.readChunk limit chunk).outcome with
    | error failure =>
      rw [Generator.bind, first] at read
      cases read
    | ok middle =>
      rw [Generator.bind, first] at read
      exact ih (readChunk_ok ready first).1 read

/-- Where a chunk ends in a carriage return, what is pending after it is empty or
ends in a line feed, with no character left open. -/
theorem pending_of_last_cr (ready : Ready limit reader)
    (read : (reader.readChunk limit chunk).outcome = .ok next) (last : chunk.getLast? = some 0x0D) :
    next.decoder.bytesNeeded = 0 ∧
      (next.pending = [] ∨ ∃ front, next.pending = front ++ [0x0A]) := by
  obtain ⟨nextReady, text, decoded, drained⟩ := readChunk_ok ready read
  obtain ⟨idle, lastUnit⟩ :=
    idle_of_last_ascii ready.formed decoded last (by decide)
  refine ⟨idle, ?_⟩
  obtain ⟨front, rfl⟩ := List.getLast?_eq_some_iff.mp lastUnit
  have normal : normalizeLineEndings (front ++ [0x0D]) = normalizeLineEndings front ++ [0x0A] :=
    normalizeLineEndings_append fun ⟨_, head⟩ => absurd head (by decide)
  have free := ready.settled.free.append (crFree_normalizeLineEndings (front ++ [0x0D]))
  obtain ⟨-, used, whole⟩ := settled_of_drain free drained
  rcases List.eq_nil_or_concat next.pending with empty | ⟨pending, unit, ends⟩
  · exact .inl empty
  · refine .inr ⟨pending, ?_⟩
    have lasts := congrArg List.getLast? whole
    rw [normal, ends, List.concat_eq_append] at lasts
    simp only [← List.append_assoc, List.getLast?_append, List.getLast?_singleton,
      Option.some_or, Option.some.injEq] at lasts
    rw [ends, List.concat_eq_append, lasts]

theorem bind_outcome_ok {α β : Type} {first : Generator ParsedSseEvent GatewayFailure α}
    {value : α} (returned : first.outcome = .ok value)
    (next : α → Generator ParsedSseEvent GatewayFailure β) :
    (first.bind next).yielded = first.yielded ++ (next value).yielded ∧
      (first.bind next).outcome = (next value).outcome := by
  rw [Generator.bind, returned]
  exact ⟨rfl, rfl⟩

/-- A blank line is there as soon as a second line feed follows the last one. -/
theorem boundaryIndex_second_lf (none : boundaryIndex (front ++ [0x0A]) = none) :
    boundaryIndex (front ++ [0x0A, 0x0A]) = some front.length := by
  induction front with
  | nil => rfl
  | cons unit front ih =>
    have apart : ¬ (unit = 0x0A ∧ (front ++ [0x0A]).head? = some 0x0A) := by
      rintro ⟨rfl, second⟩
      cases front with
      | nil => simp [boundaryIndex] at none
      | cons next front =>
        simp only [List.cons_append, List.head?_cons, Option.some.injEq] at second
        subst second
        simp [boundaryIndex] at none
    have apart' : ¬ (unit = 0x0A ∧ (front ++ [0x0A, 0x0A]).head? = some 0x0A) := by
      cases front with
      | nil => simpa using apart
      | cons next front => simpa using apart
    rw [List.cons_append, boundaryIndex_cons apart, Option.map_eq_none_iff] at none
    rw [List.cons_append, boundaryIndex_cons apart', ih none]
    rfl

/-- A line feed on its own behind a text that ends in one: the blank line is
taken as a boundary, so reading cannot end as truncated there. -/
theorem drain_second_lf (settled : Settled limit (front ++ [0x0A])) :
    (drain limit (front ++ [0x0A] ++ [0x0A])).outcome = .error invalidUpstreamResponse ∨
      (drain limit (front ++ [0x0A] ++ [0x0A])).outcome = .ok [] := by
  have free : CrFree (front ++ [0x0A] ++ [0x0A]) := settled.free.append (by simp [CrFree])
  have found : boundaryIndex (front ++ [0x0A] ++ [0x0A]) = some front.length := by
    rw [List.append_assoc]
    exact boundaryIndex_second_lf settled.noBoundary
  rw [drain_eq limit free, found]
  simp only
  split
  · exact .inl rfl
  · cases parsed : parseSseRecord ((front ++ [0x0A] ++ [0x0A]).take front.length) with
    | error failure => exact .inl (congrArg Except.error (parseSseRecord_error parsed))
    | ok record =>
      have rest : (front ++ [0x0A] ++ [0x0A]).drop (front.length + 2) = [] := by
        apply List.drop_eq_nil_of_le
        simp
      right
      simp only
      rw [rest, (settled_nil limit).drain_eq]
      rfl

/-- The line feed of a CRLF read with its carriage return adds nothing. -/
theorem readChunk_with_lf (ready : Ready limit reader)
    (read : (reader.readChunk limit chunk).outcome = .ok next) (last : chunk.getLast? = some 0x0D) :
    (reader.readChunk limit (chunk ++ [0x0A])).outcome =
      .ok ⟨Utf8Decoder.initial, next.pending⟩ := by
  obtain ⟨-, text, decoded, drained⟩ := readChunk_ok ready read
  obtain ⟨idle, lastUnit⟩ :=
    idle_of_last_ascii ready.formed decoded last (by decide)
  obtain ⟨front, rfl⟩ := List.getLast?_eq_some_iff.mp lastUnit
  have ascii : (0x0A : UInt8) ≤ 0x7F := by decide
  have second := decode_ascii idle ascii
  have noCut : ∀ more, ¬ CutsCrLf front (0x0D :: more) :=
    fun more ⟨_, head⟩ => absurd head (by simp)
  have joined : normalizeLineEndings (front ++ [0x0D] ++ [0x0A]) =
      normalizeLineEndings (front ++ [0x0D]) := by
    rw [List.append_assoc]
    have one := normalizeLineEndings_append (noCut [])
    have two := normalizeLineEndings_append (noCut [0x0A])
    exact two.trans one.symm
  rw [readChunk_eq ready (decode_append_some decoded second)]
  exact (bind_outcome_ok (joined.symm ▸ drained) _).2

theorem parseResponsesSse_two (before : List (List UInt8)) (chunk next : List UInt8)
    (after : List (List UInt8)) :
    parseResponsesSse limit (before ++ chunk :: next :: after) =
      (initial.readChunks limit before).bind fun reader =>
        ((reader.readChunk limit chunk).bind fun middle => middle.readChunk limit next).bind
          fun last => (last.readChunks limit after).bind finish := by
  rw [parseResponsesSse, readChunks_append, Generator.bind_assoc]
  apply Generator.bind_congr
  intro reader _
  rw [readChunks, Generator.bind_assoc, Generator.bind_assoc]
  apply Generator.bind_congr
  intro middle _
  rw [readChunks, Generator.bind_assoc]

theorem parseResponsesSse_one (before : List (List UInt8)) (chunk : List UInt8)
    (after : List (List UInt8)) :
    parseResponsesSse limit (before ++ chunk :: after) =
      (initial.readChunks limit before).bind fun reader =>
        (reader.readChunk limit chunk).bind
          fun last => (last.readChunks limit after).bind finish := by
  rw [parseResponsesSse, readChunks_append, Generator.bind_assoc]
  apply Generator.bind_congr
  intro reader _
  rw [readChunks, Generator.bind_assoc]

/-- A run that is alive after a last chunk was alive before it. -/
theorem readChunks_concat_ok
    (alive : (initial.readChunks limit (before ++ [chunk])).outcome = .ok reader) :
    ∃ previous, (initial.readChunks limit before).outcome = .ok previous ∧
      Ready limit previous ∧ (previous.readChunk limit chunk).outcome = .ok reader ∧
      (initial.readChunks limit (before ++ [chunk])).yielded =
        (initial.readChunks limit before).yielded ++ (previous.readChunk limit chunk).yielded := by
  rw [readChunks_append] at alive ⊢
  cases first : (initial.readChunks limit before).outcome with
  | error failure =>
    rw [Generator.bind, first] at alive
    cases alive
  | ok previous =>
    obtain ⟨yields, outcome⟩ := bind_outcome_ok first fun next => next.readChunks limit [chunk]
    rw [outcome, readChunks_singleton] at alive
    rw [yields, readChunks_singleton]
    exact ⟨previous, rfl, readChunks_ok ready_initial first, alive, rfl⟩

/-- Cutting right after a carriage return is a bad cut: with a line feed next,
reading ends differently. -/
theorem parseResponsesSse_cut_cr
    (alive : (initial.readChunks limit (before ++ [chunk])).outcome = .ok reader)
    (last : chunk.getLast? = some 0x0D) :
    reader.decoder.bytesNeeded = 0 ∧
      parseResponsesSse limit (before ++ [chunk, [0x0A]]) ≠
        parseResponsesSse limit (before ++ [chunk ++ [0x0A]]) := by
  obtain ⟨previous, reached, ready, read, -⟩ := readChunks_concat_ok alive
  obtain ⟨idle, ends⟩ := pending_of_last_cr ready read last
  have readerReady := (readChunk_ok ready read).1
  refine ⟨idle, fun same => ?_⟩
  rw [parseResponsesSse_two, parseResponsesSse_one] at same
  have outcomes := congrArg Generator.outcome same
  rw [(bind_outcome_ok reached _).2, (bind_outcome_ok reached _).2, Generator.bind_assoc,
    (bind_outcome_ok read _).2,
    (bind_outcome_ok (readChunk_with_lf ready read last) _).2,
    readChunk_eq readerReady (decode_ascii idle (by decide))] at outcomes
  have lf : normalizeLineEndings [UInt16.ofNat (0x0A : UInt8).toNat] = [0x0A] := by decide
  rw [lf] at outcomes
  rcases ends with empty | ⟨front, ends⟩
  · -- merged reading ends well; the cut one has a line feed left over
    rw [empty, List.nil_append, drain_eq limit (by simp [CrFree])] at outcomes
    simp only [boundaryIndex, Option.map_none] at outcomes
    split at outcomes
    · cases outcomes
    · cases outcomes
  · -- merged reading ends inside a record; the cut one has seen a boundary
    have merged : ((readChunks limit ⟨Utf8Decoder.initial, reader.pending⟩ []).bind
        finish).outcome =
        .error upstreamStreamTruncated := by
      rw [ends]
      simp [readChunks, finish, Utf8Decoder.finish, Utf8Decoder.initial, Generator.throw]
    rw [merged, ends] at outcomes
    rcases drain_second_lf (ends ▸ readerReady.settled) with failed | drained
    · rw [Generator.bind_assoc, Generator.bind, failed] at outcomes
      cases outcomes
    · rw [Generator.bind_assoc, (bind_outcome_ok drained _).2] at outcomes
      cases outcomes

end ReaderState

open ReaderState

/-- A byte stream gives the same records and ends the same way however it is cut, as long
as neither run of the reader meets the line feed of a CRLF it has cut nor loses the records
of a chunk that does not decode. Neither condition can be dropped: joining a chunk with the
next one never matters exactly if the chunk does not end in a carriage return, and joining
it with a chunk that does not decode loses the records it completes. -/
theorem parseResponsesSse_chunk_invariant {σ : Type}
    (beforeEvent : σ → WireJsonObject → Except GatewayFailure σ) (host : σ)
    (eventLimitBytes : Nat) :
    (∀ chunks others : List (List UInt8), chunks.flatten = others.flatten →
      Keeps eventLimitBytes false ReaderState.initial chunks →
      Keeps eventLimitBytes false ReaderState.initial others →
      parseResponsesSse eventLimitBytes chunks = parseResponsesSse eventLimitBytes others ∧
        normalizeNativeResponsesStream beforeEvent eventLimitBytes host chunks =
          normalizeNativeResponsesStream beforeEvent eventLimitBytes host others) ∧
    ∀ (before : List (List UInt8)) (chunk : List UInt8) (reader : ReaderState),
      (ReaderState.initial.readChunks eventLimitBytes (before ++ [chunk])).outcome = .ok reader →
      ((∀ (next : List UInt8) (after : List (List UInt8)), (reader.decoder.decode next).isSome →
          parseResponsesSse eventLimitBytes (before ++ chunk :: next :: after) =
            parseResponsesSse eventLimitBytes (before ++ (chunk ++ next) :: after)) ↔
        chunk.getLast? ≠ some 0x0D) ∧
      ∀ (next : List UInt8) (after : List (List UInt8)), reader.decoder.decode next = none →
        (parseResponsesSse eventLimitBytes (before ++ chunk :: next :: after) =
            parseResponsesSse eventLimitBytes (before ++ (chunk ++ next) :: after) ↔
          (ReaderState.initial.readChunks eventLimitBytes (before ++ [chunk])).yielded =
            (ReaderState.initial.readChunks eventLimitBytes before).yielded) := by
  refine ⟨?_, ?_⟩
  · intro chunks others same keeps keepsOthers
    have records : parseResponsesSse eventLimitBytes chunks =
        parseResponsesSse eventLimitBytes others := by
      rw [parseResponsesSse, parseResponsesSse, readChunks_of_keeps ready_initial keeps,
        readChunks_of_keeps ready_initial keepsOthers, same]
    exact ⟨records, by rw [normalizeNativeResponsesStream, normalizeNativeResponsesStream, records]⟩
  · intro before chunk reader alive
    obtain ⟨previous, reached, ready, read, yields⟩ := readChunks_concat_ok alive
    obtain ⟨-, text, decoded, -⟩ := readChunk_ok ready read
    refine ⟨⟨?_, ?_⟩, ?_⟩
    · intro joins last
      obtain ⟨idle, differs⟩ := parseResponsesSse_cut_cr alive last
      refine differs (joins [0x0A] [] ?_)
      rw [decode_ascii idle (by decide)]
      rfl
    · intro notCr next after decodes
      obtain ⟨⟨lastDecoder, rest⟩, decodedNext⟩ := Option.isSome_iff_exists.mp decodes
      rw [parseResponsesSse_two, parseResponsesSse_one]
      apply Generator.bind_congr
      intro previous' reached'
      obtain rfl : previous = previous' := by
        rw [reached, Except.ok.injEq] at reached'
        exact reached'
      rw [readChunk_append ready decoded decodedNext fun cut => notCr cut.1]
    · intro next after broken
      have brokenBoth : previous.decoder.decode (chunk ++ next) = none := by
        rw [decode_append, decoded]
        simp [broken]
      have failsNext : reader.readChunk eventLimitBytes next =
          Generator.throw invalidUpstreamResponse := by
        rw [readChunk, broken]
      have failsBoth : previous.readChunk eventLimitBytes (chunk ++ next) =
          Generator.throw invalidUpstreamResponse := by
        rw [readChunk, brokenBoth]
      have cut : parseResponsesSse eventLimitBytes (before ++ chunk :: next :: after) =
          ⟨(ReaderState.initial.readChunks eventLimitBytes before).yielded ++
            (previous.readChunk eventLimitBytes chunk).yielded,
            .error invalidUpstreamResponse⟩ := by
        rw [parseResponsesSse_two, Generator.bind, reached]
        simp only [Generator.bind, read, failsNext, Generator.throw, List.append_nil]
      have joined : parseResponsesSse eventLimitBytes (before ++ (chunk ++ next) :: after) =
          ⟨(ReaderState.initial.readChunks eventLimitBytes before).yielded,
            .error invalidUpstreamResponse⟩ := by
        rw [parseResponsesSse_one, Generator.bind, reached]
        simp only [Generator.bind, failsBoth, Generator.throw, List.append_nil]
      rw [cut, joined, yields, Generator.mk.injEq]
      exact and_iff_left rfl

/-- Two records, the first cut in a character and between two CRLFs, and a byte that does
not decode behind them. -/
theorem parseResponsesSse_chunk_invariant_example :
    parseResponsesSse 64 [encodeUtf8 (js "data: ") ++ [0xC3], 0xA9 :: encodeUtf8 (js "\r\n"),
        encodeUtf8 (js "\r\ndata: y\n\n"), [0x3A, 0xFF]] =
      parseResponsesSse 64 [encodeUtf8 (js "data: ") ++
        [0xC3, 0xA9] ++ encodeUtf8 (js "\r\n\r\ndata: y\n\n"), [0x3A], [0xFF]] :=
  ((parseResponsesSse_chunk_invariant (fun (host : Unit) _ => .ok host) () 64).1 _ _ rfl
    (by decide) (by decide)).1

/-- The CRLF after the first data line cut in two: one record becomes two. -/
theorem parseResponsesSse_cut_crLf :
    [encodeUtf8 (js "data: x\r"), encodeUtf8 (js "\ndata: y\n\n")].flatten =
        [encodeUtf8 (js "data: x\r\ndata: y\n\n")].flatten ∧
      (parseResponsesSse 64
          [encodeUtf8 (js "data: x\r"), encodeUtf8 (js "\ndata: y\n\n")]).yielded =
        [⟨none, js "x"⟩, ⟨none, js "y"⟩] ∧
      (parseResponsesSse 64 [encodeUtf8 (js "data: x\r\ndata: y\n\n")]).yielded =
        [⟨none, js "x\ny"⟩] := by
  decide

end GhcGateway.Responses
