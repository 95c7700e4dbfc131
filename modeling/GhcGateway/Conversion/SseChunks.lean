/-
# Chunks of an event stream

Where the chunks of a stream are cut mostly does not matter to the reader: it
holds back a carriage return at the end of a chunk, and its decoder holds back
the bytes of a character. Two things do matter. A chunk that decodes to nothing
makes the reader give up the carriage return it holds, so a line feed after it
ends a second line; and a chunk that cannot be read takes the records it has
completed with it.

`SseReader.Keeps` says of a run that neither happens. Such a run reads the stream
as if it had come in one piece (`readChunks_of_keeps`), which rests on
`SseLines.consume_append`: consuming commutes with appending text.
-/

import GhcGateway.Conversion.Sse

namespace GhcGateway.Conversion

open Library SseLines TextDecoder SseLines

variable {lines : SseLines} {decoder : TextDecoder} {text : JsString}

namespace SseLines

open SseReader

variable {eventLimitBytes : Nat} {content terminator more value rest : JsString} {next : SseLines}

/-! ## Consuming in parts -/

theorem reserve_eq_ok (reserved : lines.reserve eventLimitBytes value = .ok next) :
    next = { lines with recordBytes := lines.recordBytes + utf8ByteLength value } ∧
      next.recordBytes ≤ eventLimitBytes := by
  unfold reserve at reserved
  dsimp only at reserved
  split at reserved
  · cases reserved
  · next within =>
    simp only [Except.ok.injEq] at reserved
    rw [← reserved]
    exact ⟨rfl, Nat.le_of_not_lt within⟩

theorem extendLine_append (whole : ¬ JsString.CutsPair content more) :
    lines.extendLine eventLimitBytes (content ++ more) =
      (lines.extendLine eventLimitBytes content).bind
        (extendLine eventLimitBytes · more) := by
  unfold extendLine reserve
  dsimp only
  rw [utf8ByteLength_append whole, ← Nat.add_assoc, ← List.append_assoc]
  by_cases tooLong : eventLimitBytes < lines.recordBytes + utf8ByteLength content
  · rw [if_pos tooLong, if_pos (Nat.lt_add_right _ tooLong)]
    rfl
  · rw [if_neg tooLong]
    rfl

theorem extendLine_eq_ok
    (extended : (lines.extendLine eventLimitBytes content).outcome = .ok next) :
    next.pendingCr = lines.pendingCr ∧ next.recordBytes ≤ eventLimitBytes := by
  obtain ⟨rfl, within⟩ := reserve_eq_ok extended
  exact ⟨rfl, within⟩

theorem endLine_eq_ok (ended : (lines.endLine eventLimitBytes terminator).outcome = .ok next) :
    next.pendingCr = lines.pendingCr ∧ next.recordBytes ≤ eventLimitBytes := by
  unfold endLine at ended
  cases reserved : lines.reserve eventLimitBytes terminator with
  | error error =>
    rw [reserved] at ended
    cases ended
  | ok middle =>
    obtain ⟨rfl, within⟩ := reserve_eq_ok reserved
    rw [reserved] at ended
    simp only [Generator.bind, Generator.ofExcept, finishLine] at ended
    split at ended
    · cases ended
      exact ⟨rfl, within⟩
    · cases ended
      exact ⟨rfl, Nat.zero_le _⟩

theorem endLine_of_line (content : lines.line ≠ [])
    (room : lines.recordBytes + utf8ByteLength terminator ≤ eventLimitBytes) :
    lines.endLine eventLimitBytes terminator = Generator.pure
      ⟨[], lines.recordLines ++ [lines.line], lines.recordBytes + utf8ByteLength terminator,
        lines.pendingCr⟩ := by
  rw [endLine, reserve, if_neg (Nat.not_lt.mpr room)]
  exact if_pos content

theorem endLine_of_blank (blank : lines.line = [])
    (room : lines.recordBytes + utf8ByteLength terminator ≤ eventLimitBytes) :
    lines.endLine eventLimitBytes terminator =
      ⟨(parseRecordLines lines.recordLines).toList, .ok ⟨[], [], 0, lines.pendingCr⟩⟩ := by
  rw [endLine, reserve, if_neg (Nat.not_lt.mpr room)]
  simp [Generator.ofExcept, Generator.bind, finishLine, blank, Generator.emit, Generator.pure]

/-- The text of a line that `content` holds back can be moved to the line
first. -/
theorem consumeUnits_content (whole : ¬ JsString.CutsPair content (more ++ rest)) :
    lines.consumeUnits eventLimitBytes (content ++ more) rest =
      (lines.extendLine eventLimitBytes content).bind
        (consumeUnits eventLimitBytes · more rest) := by
  have wholeLine : ¬ JsString.CutsPair content more := by
    rintro ⟨last, unit, head, low⟩
    exact whole ⟨last, unit, by rw [List.head?_append, head]; rfl, low⟩
  induction rest generalizing more with
  | nil => exact extendLine_append wholeLine
  | cons unit rest ih =>
    by_cases lf : unit = 0x0A
    · subst lf
      simp only [consumeUnits, extendLine_append wholeLine, Generator.bind_assoc]
    by_cases cr : unit = 0x0D
    · subst cr
      cases rest with
      | nil => simp only [consumeUnits, extendLine_append wholeLine, Generator.bind_assoc]
      | cons next rest =>
        by_cases crLf : next = 0x0A
        · subst crLf
          simp only [consumeUnits, extendLine_append wholeLine, Generator.bind_assoc]
        · have alone : (next :: rest).head? ≠ some 0x0A := by simpa using crLf
          simp only [consumeUnits_cr (List.cons_ne_nil next rest) alone,
            extendLine_append wholeLine, Generator.bind_assoc]
    · have moved : ¬ JsString.CutsPair content ((more ++ [unit]) ++ rest) := by
        rwa [List.append_assoc]
      have movedLine : ¬ JsString.CutsPair content (more ++ [unit]) := by
        rintro ⟨last, first, head, low⟩
        exact moved ⟨last, first, by rw [List.head?_append, head]; rfl, low⟩
      simp only [consumeUnits_unit lf cr, List.append_assoc]
      exact ih moved movedLine

theorem consume_of_not_pendingCr (clear : lines.pendingCr = false) (value : JsString) :
    lines.consume eventLimitBytes value = lines.consumeUnits eventLimitBytes [] value := by
  rw [consume, clear]
  rfl

theorem cutsPair_of_suffix {before : JsString} (cut : JsString.CutsPair text more) :
    JsString.CutsPair (before ++ text) more := by
  obtain ⟨⟨unit, last, high⟩, head⟩ := cut
  exact ⟨⟨unit, by rw [List.getLast?_append, last]; rfl, high⟩, head⟩

theorem extendLine_nil (within : lines.recordBytes ≤ eventLimitBytes) :
    lines.extendLine eventLimitBytes [] = Generator.pure lines := by
  simp only [extendLine, reserve, utf8ByteLength, Nat.add_zero, List.append_nil]
  rw [if_neg (Nat.not_lt.mpr within)]
  rfl

/-- The carriage return held back, resolved by text that follows. -/
theorem consume_of_pendingCr_lf (clear : lines.pendingCr = false) (rest : JsString) :
    consume eventLimitBytes { lines with pendingCr := true } (0x0A :: rest) =
      (lines.endLine eventLimitBytes [0x0D, 0x0A]).bind fun lines =>
        lines.consumeUnits eventLimitBytes [] rest := by
  have same : ({ lines with pendingCr := false } : SseLines) = lines := by rw [← clear]
  rw [consume, if_pos rfl]
  dsimp only
  rw [same]
  rfl

theorem consume_of_pendingCr (clear : lines.pendingCr = false) (alone : value.head? ≠ some 0x0A) :
    consume eventLimitBytes { lines with pendingCr := true } value =
      (lines.endLine eventLimitBytes [0x0D]).bind fun lines =>
        lines.consumeUnits eventLimitBytes [] value := by
  have same : ({ lines with pendingCr := false } : SseLines) = lines := by rw [← clear]
  rw [consume, if_pos rfl]
  dsimp only
  split
  · next rest => exact absurd rfl alone
  · rw [same]

/-- A line end in the middle of the text. -/
theorem endLine_append (clear : lines.pendingCr = false)
    (after : ∀ next : SseLines, next.pendingCr = false →
      next.consumeUnits eventLimitBytes [] (rest ++ more) =
        (next.consumeUnits eventLimitBytes [] rest).bind
          (consume eventLimitBytes · more)) :
    ((lines.extendLine eventLimitBytes content).bind fun lines =>
        (lines.endLine eventLimitBytes terminator).bind fun lines =>
          lines.consumeUnits eventLimitBytes [] (rest ++ more)) =
      ((lines.extendLine eventLimitBytes content).bind fun lines =>
        (lines.endLine eventLimitBytes terminator).bind fun lines =>
          lines.consumeUnits eventLimitBytes [] rest).bind
            (consume eventLimitBytes · more) := by
  rw [Generator.bind_assoc]
  apply Generator.bind_congr
  intro extended extending
  rw [Generator.bind_assoc]
  apply Generator.bind_congr
  intro ended ending
  apply after
  rw [(endLine_eq_ok ending).1, (extendLine_eq_ok extending).1, clear]

/-- Consuming commutes with appending text that does not start inside a surrogate
pair. -/
theorem consumeUnits_append (clear : lines.pendingCr = false) (nonempty : more ≠ [])
    (whole : ¬ JsString.CutsPair (content ++ text) more) :
    lines.consumeUnits eventLimitBytes content (text ++ more) =
      (lines.consumeUnits eventLimitBytes content text).bind
        (consume eventLimitBytes · more) := by
  induction lines, content, text using consumeUnits.induct with
  | case1 lines content =>
    rw [List.append_nil] at whole
    have moved : lines.consumeUnits eventLimitBytes (content ++ []) more =
        (lines.extendLine eventLimitBytes content).bind
          (consumeUnits eventLimitBytes · [] more) :=
      consumeUnits_content whole
    rw [List.append_nil] at moved
    rw [List.nil_append, moved, consumeUnits]
    refine Generator.bind_congr fun next extended => ?_
    exact (consume_of_not_pendingCr ((extendLine_eq_ok extended).1.trans clear) more).symm
  | case2 lines content rest ih =>
    rw [List.cons_append, consumeUnits, consumeUnits]
    apply endLine_append clear
    intro next clearNext
    apply ih next clearNext
    intro cut
    apply whole
    rw [List.append_cons]
    exact cutsPair_of_suffix cut
  | case3 lines content =>
    -- the carriage return is held back, and `more` decides what it was
    rw [consumeUnits, Generator.bind_assoc]
    obtain ⟨unit, rest, rfl⟩ := List.exists_cons_of_ne_nil nonempty
    by_cases lf : unit = 0x0A
    · subst lf
      rw [List.singleton_append, consumeUnits]
      apply Generator.bind_congr
      intro next extended
      obtain ⟨same, within⟩ := extendLine_eq_ok extended
      have held : ({ next with pendingCr := true } : SseLines).recordBytes ≤ eventLimitBytes :=
        within
      rw [extendLine_nil held, Generator.pure_bind, consume_of_pendingCr_lf (same.trans clear)]
    · have alone : (unit :: rest).head? ≠ some 0x0A := by simpa using lf
      rw [List.singleton_append, consumeUnits_cr nonempty alone]
      apply Generator.bind_congr
      intro next extended
      obtain ⟨same, within⟩ := extendLine_eq_ok extended
      have held : ({ next with pendingCr := true } : SseLines).recordBytes ≤ eventLimitBytes :=
        within
      rw [extendLine_nil held, Generator.pure_bind, consume_of_pendingCr (same.trans clear) alone]
  | case4 lines content rest ih =>
    rw [List.cons_append, List.cons_append, consumeUnits, consumeUnits]
    apply endLine_append clear
    intro next clearNext
    apply ih next clearNext
    intro cut
    apply whole
    rw [List.append_cons, List.append_cons]
    exact cutsPair_of_suffix cut
  | case5 lines content rest notLast single ih =>
    have alone : rest.head? ≠ some 0x0A := by
      intro head
      obtain ⟨tail, rfl⟩ := List.head?_eq_some_iff.mp head
      exact single tail rfl
    have aloneAppended : (rest ++ more).head? ≠ some 0x0A := by
      rwa [List.head?_append_of_ne_nil _ notLast]
    have appended : rest ++ more ≠ [] := List.append_ne_nil_of_left_ne_nil notLast more
    rw [List.cons_append, consumeUnits_cr appended aloneAppended, consumeUnits_cr notLast alone]
    apply endLine_append clear
    intro next clearNext
    apply ih next clearNext
    intro cut
    apply whole
    rw [List.append_cons]
    exact cutsPair_of_suffix cut
  | case6 lines content unit rest notLf _ _ notCr ih =>
    rw [List.cons_append, consumeUnits_unit notLf notCr, consumeUnits_unit notLf notCr]
    apply ih clear
    rwa [List.append_assoc]

/-- The same with a carriage return held from before, which the first part
resolves unless it is empty. -/
theorem consume_append {lines : SseLines} {text more : JsString}
    (resolved : lines.pendingCr = true → text ≠ []) (nonempty : more ≠ [])
    (whole : ¬ JsString.CutsPair text more) :
    lines.consume eventLimitBytes (text ++ more) =
      (lines.consume eventLimitBytes text).bind (consume eventLimitBytes · more) := by
  cases held : lines.pendingCr with
  | false =>
    rw [consume_of_not_pendingCr held, consume_of_not_pendingCr held]
    exact consumeUnits_append held nonempty whole
  | true =>
    obtain ⟨unit, rest, rfl⟩ := List.exists_cons_of_ne_nil (resolved held)
    have cleared : lines = { ({ lines with pendingCr := false } : SseLines) with pendingCr :=
        true } := by
      rw [← held]
    have wholeRest : ¬ JsString.CutsPair ([] ++ rest) more := by
      intro cut
      apply whole
      rw [← List.singleton_append]
      exact cutsPair_of_suffix cut
    by_cases lf : unit = 0x0A
    · subst lf
      rw [cleared, List.cons_append, consume_of_pendingCr_lf rfl, consume_of_pendingCr_lf rfl,
        Generator.bind_assoc]
      apply Generator.bind_congr
      intro next ended
      exact consumeUnits_append (endLine_eq_ok ended).1 nonempty wholeRest
    · have alone : (unit :: rest).head? ≠ some 0x0A := by simpa using lf
      have aloneAppended : (unit :: rest ++ more).head? ≠ some 0x0A := by simpa using lf
      rw [cleared, consume_of_pendingCr rfl aloneAppended, consume_of_pendingCr rfl alone,
        Generator.bind_assoc]
      apply Generator.bind_congr
      intro next ended
      exact consumeUnits_append (endLine_eq_ok ended).1 nonempty whole

/-- What is kept never exceeds the limit. -/
theorem consumeUnits_within
    (consumed : (lines.consumeUnits eventLimitBytes content text).outcome = .ok next) :
    next.recordBytes ≤ eventLimitBytes := by
  induction lines, content, text using consumeUnits.induct with
  | case1 lines content => exact (extendLine_eq_ok consumed).2
  | case2 lines content rest ih =>
    rw [consumeUnits, Generator.outcome_bind_eq_ok] at consumed
    obtain ⟨extended, -, consumed⟩ := consumed
    obtain ⟨ended, -, consumed⟩ := Generator.outcome_bind_eq_ok.mp consumed
    exact ih ended consumed
  | case3 lines content =>
    rw [consumeUnits, Generator.outcome_bind_eq_ok] at consumed
    obtain ⟨extended, -, consumed⟩ := consumed
    exact (extendLine_eq_ok consumed).2
  | case4 lines content rest ih =>
    rw [consumeUnits, Generator.outcome_bind_eq_ok] at consumed
    obtain ⟨extended, -, consumed⟩ := consumed
    obtain ⟨ended, -, consumed⟩ := Generator.outcome_bind_eq_ok.mp consumed
    exact ih ended consumed
  | case5 lines content rest notLast single ih =>
    have alone : rest.head? ≠ some 0x0A := by
      intro head
      obtain ⟨tail, rfl⟩ := List.head?_eq_some_iff.mp head
      exact single tail rfl
    rw [consumeUnits_cr notLast alone, Generator.outcome_bind_eq_ok] at consumed
    obtain ⟨extended, -, consumed⟩ := consumed
    obtain ⟨ended, -, consumed⟩ := Generator.outcome_bind_eq_ok.mp consumed
    exact ih ended consumed
  | case6 lines content unit rest notLf _ _ notCr ih =>
    rw [consumeUnits_unit notLf notCr] at consumed
    exact ih consumed

theorem consume_within (consumed : (lines.consume eventLimitBytes text).outcome = .ok next) :
    next.recordBytes ≤ eventLimitBytes := by
  unfold consume at consumed
  split at consumed
  · dsimp only at consumed
    split at consumed
    · obtain ⟨ended, -, consumed⟩ := Generator.outcome_bind_eq_ok.mp consumed
      exact consumeUnits_within consumed
    · obtain ⟨ended, -, consumed⟩ := Generator.outcome_bind_eq_ok.mp consumed
      exact consumeUnits_within consumed
  · exact consumeUnits_within consumed

/-- An empty text is harmless while no carriage return is held. -/
theorem consume_nil (clear : lines.pendingCr = false)
    (within : lines.recordBytes ≤ eventLimitBytes) :
    lines.consume eventLimitBytes [] = Generator.pure lines := by
  rw [consume_of_not_pendingCr clear, consumeUnits, extendLine_nil within]

end SseLines

/-! ## Decoding in parts -/

namespace TextDecoder

variable {bytes : List UInt8} {next : TextDecoder}

/-- The text in front of the first byte that throws, and the decoder at the end
if there is no such byte. -/
def decodePrefix (decoder : TextDecoder) (bytes : List UInt8) : Option TextDecoder × JsString :=
  let (utf8, units) := decoder.utf8.decodePrefix bytes
  let (bomSeen, text) := dropBom decoder.bomSeen units
  (utf8.map fun utf8 => ⟨utf8, bomSeen⟩, text)

/-- What the decoder is after some bytes. -/
structure WellFormed (decoder : TextDecoder) : Prop where
  formed : decoder.utf8.WellFormed
  scalar : decoder.utf8.Scalar

theorem wellFormed_initial : WellFormed initial :=
  ⟨Utf8Decoder.wellFormed_initial, Utf8Decoder.scalar_initial⟩

theorem dropBom_append (bomSeen : Bool) (units more : JsString) :
    dropBom bomSeen (units ++ more) =
      ((dropBom (dropBom bomSeen units).1 more).1,
        (dropBom bomSeen units).2 ++ (dropBom (dropBom bomSeen units).1 more).2) := by
  cases bomSeen with
  | true => rfl
  | false =>
    cases units with
    | nil => rfl
    | cons unit rest =>
      by_cases mark : unit = 0xFEFF
      · simp [dropBom, mark]
      · simp [dropBom, mark]

theorem last_of_dropBom {bomSeen : Bool} {units : JsString} {unit : UInt16}
    (last : (dropBom bomSeen units).2.getLast? = some unit) : units.getLast? = some unit := by
  unfold dropBom at last
  split at last
  · exact last
  · split at last
    · exact last
    · next first rest =>
      dsimp only at last
      split at last
      · rw [List.getLast?_cons, last]
        rfl
      · exact last

theorem decode_eq_some (decoded : decoder.decode bytes = some (next, text)) :
    ∃ units, decoder.utf8.decode bytes = some (next.utf8, units) ∧
      dropBom decoder.bomSeen units = (next.bomSeen, text) := by
  unfold decode at decoded
  split at decoded
  · cases decoded
  · next utf8 units decodedUnits =>
    simp only [Option.some.injEq, Prod.mk.injEq] at decoded
    obtain ⟨rfl, rfl⟩ := decoded
    exact ⟨units, decodedUnits, rfl⟩

theorem decode_wellFormed (formed : decoder.WellFormed)
    (decoded : decoder.decode bytes = some (next, text)) :
    next.WellFormed ∧ ∀ more, ¬ JsString.CutsPair text more := by
  obtain ⟨units, decodedUnits, dropped⟩ := decode_eq_some decoded
  obtain ⟨scalar, whole⟩ := Utf8Decoder.last_decode formed.formed formed.scalar decodedUnits
  refine ⟨⟨Utf8Decoder.decode_wellFormed formed.formed decodedUnits, scalar⟩, ?_⟩
  rintro more ⟨⟨unit, last, high⟩, -⟩
  have lastUnits : (dropBom decoder.bomSeen units).2.getLast? = some unit := by rw [dropped, last]
  rw [whole unit (last_of_dropBom lastUnits)] at high
  cases high

theorem decodePrefix_append (decoded : decoder.decode bytes = some (next, text))
    (more : List UInt8) :
    decoder.decodePrefix (bytes ++ more) =
      ((next.decodePrefix more).1, text ++ (next.decodePrefix more).2) := by
  obtain ⟨units, decodedUnits, dropped⟩ := decode_eq_some decoded
  simp only [decodePrefix, Utf8Decoder.decodePrefix_append decodedUnits, dropBom_append, dropped]

theorem decodePrefix_append_none (broken : decoder.decode bytes = none) (more : List UInt8) :
    decoder.decodePrefix (bytes ++ more) = (none, (decoder.decodePrefix bytes).2) := by
  have brokenUnits : decoder.utf8.decode bytes = none := by
    unfold decode at broken
    split at broken
    · assumption
    · cases broken
  simp only [decodePrefix, Utf8Decoder.decodePrefix_append_none brokenUnits,
    Utf8Decoder.decodePrefix_of_decode_none brokenUnits, Option.map_none]

theorem decodePrefix_of_decode (decoded : decoder.decode bytes = some (next, text)) :
    decoder.decodePrefix bytes = (some next, text) := by
  obtain ⟨units, decodedUnits, dropped⟩ := decode_eq_some decoded
  simp only [decodePrefix, Utf8Decoder.decodePrefix_of_decode decodedUnits, dropped,
    Option.map_some]

theorem decode_nil (decoder : TextDecoder) : decoder.decode [] = some (decoder, []) := by
  obtain ⟨utf8, bomSeen⟩ := decoder
  cases bomSeen <;> rfl

theorem decode_append (decoded : decoder.decode bytes = some (next, text)) (more : List UInt8) :
    decoder.decode (bytes ++ more) =
      (next.decode more).map fun result => (result.1, text ++ result.2) := by
  obtain ⟨units, decodedUnits, dropped⟩ := decode_eq_some decoded
  unfold decode
  rw [Utf8Decoder.decode_append, decodedUnits]
  cases last : next.utf8.decode more with
  | none => simp [last]
  | some result => simp [last, dropBom_append, dropped]

end TextDecoder

/-! ## Reading in parts -/

namespace SseReader

variable {eventLimitBytes : Nat}
  {reader next middle : SseReader} {chunk : List UInt8} {before chunks : List (List UInt8)}
  {error : SseReaderError}

/-- What holds of the reader between two chunks. -/
structure Ready (eventLimitBytes : Nat) (reader : SseReader) : Prop where
  formed : reader.decoder.WellFormed
  within : reader.lines.recordBytes ≤ eventLimitBytes

theorem ready_initial : Ready eventLimitBytes initial :=
  ⟨wellFormed_initial, Nat.zero_le _⟩

/-- The rest of a stream read in one piece, as far as it decodes; every record it
completes is yielded. -/
def readWhole (eventLimitBytes : Nat) (reader : SseReader) (bytes : List UInt8) :
    SseStep SseReader :=
  let (decoder, text) := reader.decoder.decodePrefix bytes
  (if text = [] then Generator.pure reader.lines
    else reader.lines.consume eventLimitBytes text).bind fun lines =>
      match decoder with
      | none => Generator.throw (.decode .invalidUtf8)
      | some decoder => Generator.pure ⟨decoder, lines⟩

/-- No chunk of the run decodes to nothing while a carriage return is held, and
the chunk that cannot be read, if there is one, completes no record in front of
the place where reading it fails; where it is the decoding that fails, the text in
front is within the limit. -/
def Keeps (eventLimitBytes : Nat) : SseReader → List (List UInt8) → Prop
  | _, [] => True
  | reader, chunk :: chunks =>
    match reader.decoder.decode chunk with
    | none =>
      let text := (reader.decoder.decodePrefix chunk).2
      text = [] ∨
        (reader.lines.consume eventLimitBytes text).yielded = [] ∧
          (reader.lines.consume eventLimitBytes text).outcome.isOk
    | some (decoder, text) =>
      (reader.lines.pendingCr = true → text ≠ []) ∧
        match (reader.lines.consume eventLimitBytes text).outcome with
        | .error _ => (reader.lines.consume eventLimitBytes text).yielded = []
        | .ok lines => Keeps eventLimitBytes ⟨decoder, lines⟩ chunks

instance decidableKeeps (eventLimitBytes : Nat) :
    (reader : SseReader) → (chunks : List (List UInt8)) →
      Decidable (Keeps eventLimitBytes reader chunks)
  | _, [] => inferInstanceAs (Decidable True)
  | reader, chunk :: chunks =>
    match decoded : reader.decoder.decode chunk with
    | none =>
      decidable_of_iff
        ((reader.decoder.decodePrefix chunk).2 = [] ∨
          (reader.lines.consume eventLimitBytes (reader.decoder.decodePrefix chunk).2).yielded =
              [] ∧
            (reader.lines.consume eventLimitBytes
              (reader.decoder.decodePrefix chunk).2).outcome.isOk)
        (by rw [Keeps, decoded])
    | some (decoder, text) =>
      match consumed : (reader.lines.consume eventLimitBytes text).outcome with
      | .error _ =>
        decidable_of_iff
          ((reader.lines.pendingCr = true → text ≠ []) ∧
            (reader.lines.consume eventLimitBytes text).yielded = [])
          (by rw [Keeps, decoded]; dsimp only; rw [consumed])
      | .ok lines =>
        have := decidableKeeps eventLimitBytes ⟨decoder, lines⟩ chunks
        decidable_of_iff
          ((reader.lines.pendingCr = true → text ≠ []) ∧
            Keeps eventLimitBytes ⟨decoder, lines⟩ chunks)
          (by rw [Keeps, decoded]; dsimp only; rw [consumed])

theorem readChunk_of_consume (decoded : reader.decoder.decode chunk = some (decoder, text))
    (consumed : (reader.lines.consume eventLimitBytes text).outcome = .ok lines) :
    reader.readChunk eventLimitBytes chunk =
      ⟨(reader.lines.consume eventLimitBytes text).yielded, .ok ⟨decoder, lines⟩⟩ := by
  rw [readChunk, decoded]
  simp only [deliver, consumed]
  rw [Generator.bind_of_ok consumed]
  simp [Generator.emit, Generator.pure]

theorem readChunk_of_error (decoded : reader.decoder.decode chunk = some (decoder, text))
    (failed : (reader.lines.consume eventLimitBytes text).outcome = .error error) :
    reader.readChunk eventLimitBytes chunk = Generator.throw error := by
  rw [readChunk, decoded]
  simp only [deliver, failed]
  rfl

/-- One chunk that is read, and what follows from it. -/
theorem readChunk_eq_ok (read : (reader.readChunk eventLimitBytes chunk).outcome = .ok next) :
    ∃ text, reader.decoder.decode chunk = some (next.decoder, text) ∧
      (reader.lines.consume eventLimitBytes text).outcome = .ok next.lines := by
  cases decoded : reader.decoder.decode chunk with
  | none =>
    rw [readChunk, decoded] at read
    cases read
  | some result =>
    obtain ⟨decoder, text⟩ := result
    cases consumed : (reader.lines.consume eventLimitBytes text).outcome with
    | error error =>
      rw [readChunk_of_error decoded consumed] at read
      cases read
    | ok lines =>
      rw [readChunk_of_consume decoded consumed] at read
      cases read
      exact ⟨text, rfl, consumed⟩

theorem Ready.readChunk (ready : Ready eventLimitBytes reader)
    (read : (reader.readChunk eventLimitBytes chunk).outcome = .ok next) :
    Ready eventLimitBytes next := by
  obtain ⟨text, decoded, consumed⟩ := readChunk_eq_ok read
  exact ⟨(decode_wellFormed ready.formed decoded).1, consume_within consumed⟩

theorem Ready.readChunks (ready : Ready eventLimitBytes reader)
    (read : (reader.readChunks eventLimitBytes chunks).outcome = .ok next) :
    Ready eventLimitBytes next := by
  induction chunks generalizing reader with
  | nil =>
    cases read
    exact ready
  | cons chunk chunks ih =>
    obtain ⟨middle, first, rest⟩ := Generator.outcome_bind_eq_ok.mp read
    exact ih (ready.readChunk first) rest

/-- Reading on in one piece after a chunk that was read. -/
theorem readWhole_append (ready : Ready eventLimitBytes reader)
    (decoded : reader.decoder.decode chunk = some (decoder, text))
    (resolved : reader.lines.pendingCr = true → text ≠ [])
    (consumed : (reader.lines.consume eventLimitBytes text).outcome = .ok lines)
    (more : List UInt8) :
    reader.readWhole eventLimitBytes (chunk ++ more) =
      Generator.emit (reader.lines.consume eventLimitBytes text).yielded
        (readWhole eventLimitBytes ⟨decoder, lines⟩ more) := by
  have whole := (decode_wellFormed ready.formed decoded).2
  rw [readWhole, decodePrefix_append decoded, readWhole]
  dsimp only
  by_cases nothing : (decoder.decodePrefix more).2 = []
  · -- nothing follows: the text is the chunk's
    rw [nothing, List.append_nil, if_pos rfl]
    by_cases empty : text = []
    · have clear : reader.lines.pendingCr = false :=
        Bool.eq_false_iff.mpr fun held => resolved held empty
      rw [empty, consume_nil clear ready.within] at consumed
      cases consumed
      rw [if_pos empty, empty, consume_nil clear ready.within]
      rfl
    · rw [if_neg empty, Generator.bind_of_ok consumed, Generator.pure_bind]
  · rw [if_neg (List.append_ne_nil_of_right_ne_nil _ nothing), if_neg nothing,
      consume_append resolved nothing (whole _), Generator.bind_assoc,
      Generator.bind_of_ok consumed]

/-- A run that keeps its records reads the stream as if it had come in one
piece. -/
theorem readChunks_of_keeps (ready : Ready eventLimitBytes reader)
    (keeps : Keeps eventLimitBytes reader chunks) :
    reader.readChunks eventLimitBytes chunks =
      reader.readWhole eventLimitBytes chunks.flatten := by
  induction chunks generalizing reader with
  | nil =>
    rw [List.flatten_nil, readWhole, decodePrefix_of_decode (decode_nil _)]
    rfl
  | cons chunk chunks ih =>
    rw [readChunks, List.flatten_cons]
    cases decoded : reader.decoder.decode chunk with
    | none =>
      rw [Keeps, decoded] at keeps
      dsimp only at keeps
      rw [readChunk, decoded, readWhole, decodePrefix_append_none decoded]
      dsimp only
      split
      · rfl
      · next said =>
        obtain ⟨nothing, reads⟩ := keeps.resolve_left said
        cases consumed : (reader.lines.consume eventLimitBytes
            (reader.decoder.decodePrefix chunk).2).outcome with
        | error error =>
          rw [consumed] at reads
          cases reads
        | ok lines =>
          rw [Generator.bind_of_ok consumed, nothing]
          rfl
    | some result =>
      obtain ⟨decoder, text⟩ := result
      rw [Keeps, decoded] at keeps
      obtain ⟨resolved, keeps⟩ := keeps
      cases consumed : (reader.lines.consume eventLimitBytes text).outcome with
      | ok lines =>
        rw [consumed] at keeps
        rw [readWhole_append ready decoded resolved consumed, readChunk_of_consume decoded consumed,
          Generator.bind_of_ok rfl, ih _ keeps]
        exact ⟨(decode_wellFormed ready.formed decoded).1,
          consume_within consumed⟩
      | error error =>
        rw [consumed] at keeps
        dsimp only at keeps
        have said : text ≠ [] := by
          rintro rfl
          have clear : reader.lines.pendingCr = false :=
            Bool.eq_false_iff.mpr fun held => resolved held rfl
          rw [consume_nil clear ready.within] at consumed
          cases consumed
        have whole := (decode_wellFormed ready.formed decoded).2
        rw [readChunk_of_error decoded consumed, readWhole,
          decodePrefix_append decoded]
        dsimp only
        rw [if_neg (List.append_ne_nil_of_left_ne_nil said _)]
        by_cases nothing : (decoder.decodePrefix chunks.flatten).2 = []
        · rw [nothing, List.append_nil, Generator.bind_of_error consumed, keeps]
          rfl
        · rw [consume_append resolved nothing (whole _), Generator.bind_assoc,
            Generator.bind_of_error consumed, keeps]
          rfl

theorem readChunk_eq_error
    (failed : (reader.readChunk eventLimitBytes chunk).outcome = .error error) :
    reader.readChunk eventLimitBytes chunk = Generator.throw error := by
  cases decoded : reader.decoder.decode chunk with
  | none =>
    rw [readChunk, decoded] at failed ⊢
    cases failed
    rfl
  | some result =>
    obtain ⟨decoder, text⟩ := result
    cases consumed : (reader.lines.consume eventLimitBytes text).outcome with
    | error other =>
      rw [readChunk_of_error decoded consumed] at failed ⊢
      cases failed
      rfl
    | ok lines =>
      rw [readChunk_of_consume decoded consumed] at failed
      cases failed

/-! ## Cuts -/

theorem readChunks_append (reader : SseReader) (chunks more : List (List UInt8)) :
    reader.readChunks eventLimitBytes (chunks ++ more) =
      (reader.readChunks eventLimitBytes chunks).bind
        (readChunks eventLimitBytes · more) := by
  induction chunks generalizing reader with
  | nil => rfl
  | cons chunk chunks ih =>
    rw [List.cons_append, readChunks, readChunks, Generator.bind_assoc]
    apply Generator.bind_congr
    intro next _
    exact ih next

/-- Two runs that share their beginning differ only in what follows it. -/
theorem decodeSseRecords_append
    (reached : (initial.readChunks eventLimitBytes before).outcome = .ok reader)
    (chunks : List (List UInt8)) :
    decodeSseRecords eventLimitBytes (before ++ chunks) =
      Generator.emit (initial.readChunks eventLimitBytes before).yielded
        ((reader.readChunks eventLimitBytes chunks).bind (finish eventLimitBytes)) := by
  rw [decodeSseRecords, readChunks_append, Generator.bind_assoc, Generator.bind_of_ok reached]

/-- Two chunks read as one: if the second cannot be read, the records of the first
are lost. -/
theorem readChunk_append {next : List UInt8} (ready : Ready eventLimitBytes reader)
    (read : (reader.readChunk eventLimitBytes chunk).outcome = .ok middle)
    (resolved : reader.lines.pendingCr = true →
      ∀ decoder, reader.decoder.decode chunk ≠ some (decoder, []))
    (speaks : ∀ decoder, middle.decoder.decode next ≠ some (decoder, [])) :
    reader.readChunk eventLimitBytes (chunk ++ next) =
      match (middle.readChunk eventLimitBytes next).outcome with
      | .error error => Generator.throw error
      | .ok _ =>
        Generator.emit (reader.readChunk eventLimitBytes chunk).yielded
          (middle.readChunk eventLimitBytes next) := by
  obtain ⟨text, decoded, consumed⟩ := readChunk_eq_ok read
  have both := decode_append decoded next
  cases decodedNext : middle.decoder.decode next with
  | none =>
    rw [decodedNext] at both
    have broken : middle.readChunk eventLimitBytes next =
        Generator.throw (.decode .invalidUtf8) := by
      rw [readChunk, decodedNext]
    rw [broken, readChunk, both]
    rfl
  | some result =>
    obtain ⟨decoder, more⟩ := result
    rw [decodedNext] at both
    have nonempty : more ≠ [] := fun empty => speaks decoder (by rw [decodedNext, empty])
    have appended := @consume_append eventLimitBytes _ _ _
      (fun held empty => resolved held middle.decoder (by rw [decoded, empty])) nonempty
      ((decode_wellFormed ready.formed decoded).2 more)
    rw [Generator.bind_of_ok consumed] at appended
    cases consumedNext : (middle.lines.consume eventLimitBytes more).outcome with
    | error error =>
      rw [readChunk_of_error decodedNext consumedNext]
      apply readChunk_of_error both
      rw [appended]
      exact consumedNext
    | ok lines =>
      rw [readChunk_of_consume decodedNext consumedNext, readChunk_of_consume decoded consumed]
      have consumedBoth : (reader.lines.consume eventLimitBytes (text ++ more)).outcome =
          .ok lines := by
        rw [appended]
        exact consumedNext
      rw [readChunk_of_consume both consumedBoth, appended]
      rfl

/-- Joining a chunk with the next one never matters exactly if the next one can be
read or the chunk completes no record. -/
theorem decodeSseRecords_join_iff {next : List UInt8}
    (reached : (initial.readChunks eventLimitBytes before).outcome = .ok reader)
    (read : (reader.readChunk eventLimitBytes chunk).outcome = .ok middle)
    (resolved : reader.lines.pendingCr = true →
      ∀ decoder, reader.decoder.decode chunk ≠ some (decoder, []))
    (speaks : ∀ decoder, middle.decoder.decode next ≠ some (decoder, [])) :
    (∀ after, decodeSseRecords eventLimitBytes (before ++ (chunk ++ next) :: after) =
        decodeSseRecords eventLimitBytes (before ++ chunk :: next :: after)) ↔
      (∃ last, (middle.readChunk eventLimitBytes next).outcome = .ok last) ∨
        (reader.readChunk eventLimitBytes chunk).yielded = [] := by
  have joined := readChunk_append (ready_initial.readChunks reached) read resolved speaks
  simp only [decodeSseRecords_append reached, Generator.emit_inj, readChunks,
    Generator.bind_of_ok read]
  cases readNext : (middle.readChunk eventLimitBytes next).outcome with
  | ok last =>
    rw [readNext] at joined
    rw [joined]
    refine iff_of_true (fun after => ?_) (Or.inl ⟨last, rfl⟩)
    rw [Generator.emit_bind]
  | error error =>
    rw [readNext] at joined
    rw [joined, readChunk_eq_error readNext]
    simp [Generator.emit, Generator.bind, Generator.throw]

/-- An empty chunk is harmless while no carriage return is held. -/
theorem decodeSseRecords_empty
    (reached : (initial.readChunks eventLimitBytes before).outcome = .ok reader)
    (clear : reader.lines.pendingCr = false) (after : List (List UInt8)) :
    decodeSseRecords eventLimitBytes (before ++ [] :: after) =
      decodeSseRecords eventLimitBytes (before ++ after) := by
  have ready : Ready eventLimitBytes reader := ready_initial.readChunks reached
  rw [decodeSseRecords_append reached, decodeSseRecords_append reached, Generator.emit_inj,
    readChunks, readChunk, decode_nil]
  dsimp only
  rw [consume_nil clear ready.within]
  rfl

/-- A line feed read between two characters. -/
theorem decode_lf (idle : decoder.utf8.bytesNeeded = 0) :
    ∃ next, next.utf8.bytesNeeded = 0 ∧ decoder.decode [0x0A] = some (next, [0x0A]) := by
  have ascii : decoder.utf8.decode [0x0A] = some (Utf8Decoder.initial, [0x0A]) :=
    Utf8Decoder.decode_ascii idle (by decide)
  refine ⟨⟨Utf8Decoder.initial, true⟩, rfl, ?_⟩
  rw [TextDecoder.decode, ascii]
  cases h : decoder.bomSeen <;> rfl

/-- The end of the stream between two characters and with no carriage return
held. -/
theorem finish_of_clear (idle : reader.decoder.utf8.bytesNeeded = 0)
    (clear : reader.lines.pendingCr = false) (within : reader.lines.recordBytes ≤ eventLimitBytes) :
    reader.finish eventLimitBytes =
      if reader.lines.recordLines.any (fun value => value.trim ≠ []) ∨
          reader.lines.line.trim ≠ [] then
        Generator.throw (.gateway Responses.upstreamStreamTruncated)
      else Generator.pure () := by
  rw [finish, TextDecoder.finish, Utf8Decoder.finish, if_pos idle]
  dsimp only
  rw [consume_nil clear within, Generator.pure_bind, clear, if_neg (by decide)]
  rfl

/-- An empty chunk ends the line that a carriage return held ends. -/
theorem readChunk_empty (held : reader.lines.pendingCr = true) (content : reader.lines.line ≠ [])
    (room : reader.lines.recordBytes + 1 ≤ eventLimitBytes) :
    reader.readChunk eventLimitBytes [] = Generator.pure
      ⟨reader.decoder, [], reader.lines.recordLines ++ [reader.lines.line],
        reader.lines.recordBytes + 1, false⟩ := by
  obtain ⟨decoder, line, recordLines, recordBytes, pendingCr⟩ := reader
  cases held
  have consumed : consume eventLimitBytes ⟨line, recordLines, recordBytes, true⟩ [] =
      Generator.pure ⟨[], recordLines ++ [line], recordBytes + 1, false⟩ := by
    have ended : endLine eventLimitBytes ⟨line, recordLines, recordBytes, false⟩ [0x0D] =
        Generator.pure ⟨[], recordLines ++ [line], recordBytes + 1, false⟩ :=
      endLine_of_line content room
    rw [consume, if_pos rfl]
    dsimp only
    rw [ended, Generator.pure_bind, consumeUnits]
    exact extendLine_nil room
  rw [readChunk, decode_nil]
  dsimp only
  rw [consumed]
  rfl

/-- A line feed ends it together with the carriage return. -/
theorem readChunk_lf (held : reader.lines.pendingCr = true) (content : reader.lines.line ≠ [])
    (decoded : reader.decoder.decode [0x0A] = some (decoder, [0x0A]))
    (room : reader.lines.recordBytes + 2 ≤ eventLimitBytes) :
    reader.readChunk eventLimitBytes [0x0A] = Generator.pure
      ⟨decoder, [], reader.lines.recordLines ++ [reader.lines.line],
        reader.lines.recordBytes + 2, false⟩ := by
  obtain ⟨previous, line, recordLines, recordBytes, pendingCr⟩ := reader
  cases held
  have consumed : consume eventLimitBytes ⟨line, recordLines, recordBytes, true⟩ [0x0A] =
      Generator.pure ⟨[], recordLines ++ [line], recordBytes + 2, false⟩ := by
    have ended : endLine eventLimitBytes ⟨line, recordLines, recordBytes, false⟩
        [0x0D, 0x0A] = Generator.pure ⟨[], recordLines ++ [line], recordBytes + 2, false⟩ :=
      endLine_of_line content room
    rw [consume, if_pos rfl]
    show (endLine eventLimitBytes ⟨line, recordLines, recordBytes, false⟩
      [0x0D, 0x0A]).bind _ = _
    rw [ended, Generator.pure_bind, consumeUnits]
    exact extendLine_nil room
  rw [readChunk, decoded]
  dsimp only
  rw [consumed]
  rfl

/-- A line feed with no line in front of it ends the record. -/
theorem readChunk_blank {previous : TextDecoder} {recordLines : List JsString} {recordBytes : Nat}
    (decoded : previous.decode [0x0A] = some (decoder, [0x0A]))
    (room : recordBytes + 1 ≤ eventLimitBytes) :
    readChunk eventLimitBytes ⟨previous, [], recordLines, recordBytes, false⟩ [0x0A] =
      ⟨(parseRecordLines recordLines).toList, .ok ⟨decoder, [], [], 0, false⟩⟩ := by
  have consumed : consume eventLimitBytes ⟨[], recordLines, recordBytes, false⟩ [0x0A] =
      ⟨(parseRecordLines recordLines).toList, .ok ⟨[], [], 0, false⟩⟩ := by
    rw [consume_of_not_pendingCr rfl, consumeUnits,
      extendLine_nil (Nat.le_of_succ_le room), Generator.pure_bind,
      endLine_of_blank rfl room, Generator.bind_of_ok rfl, consumeUnits,
      extendLine_nil (Nat.zero_le _)]
    simp [Generator.emit, Generator.pure]
  rw [readChunk_of_consume decoded (by rw [consumed]), consumed]

/-- Where a carriage return is held, an empty chunk in front of its line feed ends
the record. -/
theorem decodeSseRecords_empty_ne
    (reached : (initial.readChunks eventLimitBytes before).outcome = .ok reader)
    (idle : reader.decoder.utf8.bytesNeeded = 0) (held : reader.lines.pendingCr = true)
    (content : reader.lines.line.trim ≠ [])
    (room : reader.lines.recordBytes + 2 ≤ eventLimitBytes) :
    decodeSseRecords eventLimitBytes (before ++ [[], [0x0A]]) ≠
      decodeSseRecords eventLimitBytes (before ++ [[0x0A]]) := by
  obtain ⟨decoder, idleNext, decoded⟩ := decode_lf idle
  have nonempty : reader.lines.line ≠ [] := fun empty => content (by rw [empty]; rfl)
  rw [decodeSseRecords_append reached, decodeSseRecords_append reached, Ne, Generator.emit_inj]
  intro same
  -- with the empty chunk the stream ends between two records, without it inside one
  have apart : ((reader.readChunks eventLimitBytes [[], [0x0A]]).bind
      (finish eventLimitBytes)).outcome = .ok () := by
    rw [readChunks, readChunk_empty held nonempty (by omega), Generator.pure_bind,
      readChunks, readChunk_blank decoded room, Generator.bind_assoc,
      Generator.bind_of_ok rfl, readChunks, Generator.pure_bind,
      finish_of_clear idleNext rfl (Nat.zero_le _)]
    rfl
  have together : ((reader.readChunks eventLimitBytes [[0x0A]]).bind
      (finish eventLimitBytes)).outcome = .error (.gateway Responses.upstreamStreamTruncated) := by
    rw [readChunks, readChunk_lf held nonempty decoded room, Generator.pure_bind,
      readChunks, Generator.pure_bind, finish_of_clear idleNext rfl room,
      if_pos (by simp [content])]
    rfl
  rw [same, together] at apart
  cases apart

end SseReader

open SseReader

/-- A stream gives the same records and ends the same way however it is cut, as
long as neither run of the reader meets an empty text with a carriage return held
nor loses the records of a chunk it cannot read. Neither condition can be dropped:
joining a chunk with the next one never matters exactly if the next one can be
read or the chunk completes no record, and an empty chunk is harmless without a
carriage return held but splits a record in front of its line feed. -/
theorem decodeSseRecords_chunk_invariant (eventLimitBytes : Nat) :
    (∀ chunks others : List (List UInt8), chunks.flatten = others.flatten →
      Keeps eventLimitBytes initial chunks → Keeps eventLimitBytes initial others →
      decodeSseRecords eventLimitBytes chunks = decodeSseRecords eventLimitBytes others) ∧
    ∀ (before : List (List UInt8)) (reader : SseReader),
      (initial.readChunks eventLimitBytes before).outcome = .ok reader →
      (∀ (chunk next : List UInt8) (middle : SseReader),
        (reader.readChunk eventLimitBytes chunk).outcome = .ok middle →
        (reader.lines.pendingCr = true →
          ∀ decoder, reader.decoder.decode chunk ≠ some (decoder, [])) →
        (∀ decoder, middle.decoder.decode next ≠ some (decoder, [])) →
        ((∀ after, decodeSseRecords eventLimitBytes (before ++ (chunk ++ next) :: after) =
            decodeSseRecords eventLimitBytes (before ++ chunk :: next :: after)) ↔
          (∃ last, (middle.readChunk eventLimitBytes next).outcome = .ok last) ∨
            (reader.readChunk eventLimitBytes chunk).yielded = [])) ∧
      (reader.lines.pendingCr = false →
        ∀ after, decodeSseRecords eventLimitBytes (before ++ [] :: after) =
          decodeSseRecords eventLimitBytes (before ++ after)) ∧
      (reader.lines.pendingCr = true → reader.decoder.utf8.bytesNeeded = 0 →
        reader.lines.line.trim ≠ [] → reader.lines.recordBytes + 2 ≤ eventLimitBytes →
        decodeSseRecords eventLimitBytes (before ++ [[], [0x0A]]) ≠
          decodeSseRecords eventLimitBytes (before ++ [[0x0A]])) := by
  refine ⟨?_, fun before reader reached => ⟨?_, ?_, ?_⟩⟩
  · intro chunks others same keeps keepsOthers
    rw [decodeSseRecords, decodeSseRecords, readChunks_of_keeps ready_initial keeps,
      readChunks_of_keeps ready_initial keepsOthers, same]
  · intro chunk next middle read resolved speaks
    exact decodeSseRecords_join_iff reached read resolved speaks
  · intro clear after
    exact decodeSseRecords_empty reached clear after
  · intro held idle content room
    exact decodeSseRecords_empty_ne reached idle held content room

/-- Two records, cut inside a character and inside a CRLF. -/
theorem decodeSseRecords_chunk_invariant_example :
    decodeSseRecords 64 [encodeUtf8 (js "data: ") ++ [0xC3], [0xA9, 0x0D],
        encodeUtf8 (js "\n\r\ndata: y\n\n")] =
      decodeSseRecords 64 [encodeUtf8 (js "data: ") ++
        [0xC3, 0xA9] ++ encodeUtf8 (js "\r\n\r\ndata: y\n\n")] :=
  (decodeSseRecords_chunk_invariant 64).1 _ _ rfl (by decide) (by decide)

/-- An empty chunk between the halves of a CRLF: one record becomes two. -/
theorem decodeSseRecords_cut_crLf :
    [encodeUtf8 (js "data: x\r"), [], encodeUtf8 (js "\ndata: y\n\n")].flatten =
        [encodeUtf8 (js "data: x\r\ndata: y\n\n")].flatten ∧
      (decodeSseRecords 64
          [encodeUtf8 (js "data: x\r"), [], encodeUtf8 (js "\ndata: y\n\n")]).yielded =
        [⟨none, js "x"⟩, ⟨none, js "y"⟩] ∧
      (decodeSseRecords 64 [encodeUtf8 (js "data: x\r\ndata: y\n\n")]).yielded =
        [⟨none, js "x\ny"⟩] := by
  decide

end GhcGateway.Conversion
