/-
# Chunks of the native Messages event stream

The observer reads the lines of a chunk at once. Read byte by byte, with the carriage
return at the end of a chunk kept in mind, it does the same (`consume_eq_readBytes`), so
where the stream is cut does not matter as long as reading goes well. What is given on is
a prefix of the stream in any case.
-/

import GhcGateway.Messages.NativeMessages

namespace GhcGateway.Messages

open Library

open Conversion (SemanticUsage)

namespace NativeMessagesObserver

variable {limit : Nat} {observer next : NativeMessagesObserver}
  {bytes more : List UInt8} {records : List (List UInt8)}
  {following second first : NativeMessagesObserver → Observed} {byte : UInt8}
  {effect : RecordEffect} {failure : GatewayFailure}

/-! ## Byte by byte -/

/-- A byte where no carriage return is pending, and what follows. -/
def takeByte (limit : Nat) (byte : UInt8) (next : NativeMessagesObserver → Observed)
    (observer : NativeMessagesObserver) : Observed :=
  match observer.append limit [byte] with
  | .error failure => .error failure
  | .ok ended =>
    if byte = 0x0A then { ended with lineEmpty := true }.emitWhere ended.lineEmpty next
    else if byte = 0x0D then
      next { ended with lineEmpty := true, pendingCr := true, completeOnPendingCr :=
        ended.lineEmpty }
    else next { ended with lineEmpty := false }

/-- The observer without the carriage return that was pending. -/
def settle (observer : NativeMessagesObserver) : NativeMessagesObserver :=
  { observer with pendingCr := false, completeOnPendingCr := false }

def readByte (limit : Nat) (byte : UInt8) (next : NativeMessagesObserver → Observed)
    (observer : NativeMessagesObserver) : Observed :=
  if observer.pendingCr then
    if byte = 0x0A then
      match observer.settle.append limit [0x0A] with
      | .error failure => .error failure
      | .ok both => both.emitWhere observer.completeOnPendingCr next
    else observer.settle.emitWhere observer.completeOnPendingCr (takeByte limit byte next)
  else takeByte limit byte next observer

/-- The bytes one after the other, up to the end of the message. -/
def readBytes (limit : Nat) : List UInt8 → NativeMessagesObserver → Observed
  | [], observer => .ok (observer, [])
  | byte :: bytes, observer => readByte limit byte (readBytes limit bytes) observer

/-- No carriage return is pending. -/
structure Settled (observer : NativeMessagesObserver) : Prop where
  pendingCr : observer.pendingCr = false
  completeOnPendingCr : observer.completeOnPendingCr = false

theorem settled_settle (observer : NativeMessagesObserver) : observer.settle.Settled := ⟨rfl, rfl⟩

theorem Settled.settle_eq (settled : observer.Settled) : observer.settle = observer := by
  obtain ⟨one, two⟩ := settled
  cases observer
  cases one
  cases two
  rfl

theorem readByte_of_settled (settled : observer.Settled) (byte : UInt8)
    (next : NativeMessagesObserver → Observed) :
    readByte limit byte next observer = takeByte limit byte next observer := by
  rw [readByte, settled.pendingCr]
  rfl

theorem append_ok (appended : observer.append limit bytes = .ok next) :
    next = { observer with pending := observer.pending ++ bytes } := by
  rw [append] at appended
  split at appended
  · cases appended
  · exact (Except.ok.inj appended).symm

theorem Settled.append (settled : observer.Settled)
    (appended : observer.append limit bytes = .ok next) : next.Settled := by
  rw [append_ok appended]
  exact ⟨settled.pendingCr, settled.completeOnPendingCr⟩

theorem Settled.finishLine (settled : observer.Settled) (lineEmpty : Bool) :
    ({ observer with lineEmpty } : NativeMessagesObserver).Settled :=
  ⟨settled.pendingCr, settled.completeOnPendingCr⟩

/-- What follows a record starts from the observer after it, which has not stopped. -/
theorem emitRecord_congr (same : ∀ effect, (observer.apply effect).terminal = false →
      first (observer.apply effect) = second (observer.apply effect)) :
    observer.emitRecord first = observer.emitRecord second := by
  unfold emitRecord
  cases recordEffect observer.pending with
  | error failure => rfl
  | ok effect =>
    dsimp only
    split
    · rfl
    case isFalse goesOn => rw [same effect (Bool.eq_false_iff.mpr goesOn)]

theorem Settled.emitWhere_congr (settled : observer.Settled) (complete : Bool)
    (same : ∀ other : NativeMessagesObserver, other.Settled → first other = second other) :
    observer.emitWhere complete first = observer.emitWhere complete second := by
  unfold emitWhere
  cases complete with
  | true =>
    refine emitRecord_congr fun effect _ => same _ ?_
    exact ⟨settled.pendingCr, settled.completeOnPendingCr⟩
  | false => exact same observer settled

theorem isPlain_iff : isPlain byte = true ↔ byte ≠ 0x0A ∧ byte ≠ 0x0D := by
  rw [isPlain, Bool.and_eq_true, decide_eq_true_eq, decide_eq_true_eq]

/-- A line read byte by byte is appended as a whole. -/
theorem readBytes_line {line : List UInt8} (plain : ∀ byte ∈ line, isPlain byte = true)
    (rest : List UInt8) (settled : observer.Settled) :
    readBytes limit (line ++ rest) observer =
      match observer.appendLine limit line with
      | .error failure => .error failure
      | .ok next => readBytes limit rest next := by
  induction line generalizing observer with
  | nil => rfl
  | cons byte line ih =>
    have isPlain := isPlain_iff.mp (plain byte List.mem_cons_self)
    have others : ∀ other ∈ line, NativeMessagesObserver.isPlain other = true :=
      fun other member => plain other (List.mem_cons_of_mem byte member)
    have ⟨notLf, notCr⟩ := isPlain
    rw [List.cons_append, readBytes, readByte_of_settled settled, takeByte]
    rw [appendLine, if_neg (List.cons_ne_nil byte line)]
    have longer : (observer.pending ++ [byte]).length ≤
        (observer.pending ++ byte :: line).length := by
      simp
    cases one : observer.append limit [byte] with
    | error failure =>
      rw [append] at one
      split at one
      case isTrue full =>
        obtain rfl := Except.error.inj one
        rw [append, if_pos (Nat.lt_of_lt_of_le full longer)]
      case isFalse => cases one
    | ok ended =>
      have settled := settled.append one
      have isEnded := append_ok one
      dsimp only
      rw [if_neg notLf, if_neg notCr, ih others (settled.finishLine false), appendLine,
        append, append,
        isEnded]
      cases line with
      | nil =>
        rw [append] at one
        split at one
        · cases one
        case isFalse fits =>
          rw [if_pos rfl, if_neg fits]
      | cons second line =>
        rw [if_neg (List.cons_ne_nil second line), List.append_assoc, List.singleton_append]
        by_cases full : limit < (observer.pending ++ byte :: second :: line).length
        · rw [if_pos full, if_pos full]
        · rw [if_neg full, if_neg full]

theorem dropWhile_head {rest : List UInt8} (found : bytes.dropWhile isPlain = byte :: rest) :
    byte = 0x0A ∨ byte = 0x0D := by
  have stops := List.head?_dropWhile_not isPlain bytes
  rw [found] at stops
  have stops : isPlain byte = false := by simpa using stops
  by_contra neither
  rw [not_or] at neither
  rw [isPlain_iff.mpr neither] at stops
  cases stops

/-- The lines of a chunk read byte by byte. -/
theorem consumeLines_eq (fuel : Nat) : ∀ {observer : NativeMessagesObserver} {bytes : List UInt8},
    observer.Settled → bytes.length < fuel →
      consumeLines limit fuel observer bytes = readBytes limit bytes observer := by
  induction fuel with
  | zero => exact fun _ small => absurd small (Nat.not_lt_zero _)
  | succ fuel ih =>
    intro observer bytes settled small
    have plain : ∀ byte ∈ bytes.takeWhile isPlain, isPlain byte = true :=
      fun byte member => List.mem_takeWhile_imp member
    have whole : bytes = bytes.takeWhile isPlain ++ bytes.dropWhile isPlain :=
      List.takeWhile_append_dropWhile.symm
    have smaller : (bytes.dropWhile isPlain).length ≤ fuel :=
      (List.length_dropWhile_le _ _).trans (Nat.le_of_lt_succ small)
    rw [consumeLines]
    conv_rhs => rw [whole, readBytes_line plain _ settled]
    cases line : observer.appendLine limit (bytes.takeWhile isPlain) with
    | error failure => rfl
    | ok begun =>
      have settled : begun.Settled := by
        rw [appendLine] at line
        split at line
        · exact Except.ok.inj line ▸ settled
        · cases appended : observer.append limit (bytes.takeWhile isPlain) with
          | error failure =>
            rw [appended] at line
            cases line
          | ok appendedTo =>
            rw [appended] at line
            obtain rfl := Except.ok.inj line
            exact (settled.append appended).finishLine false
      cases found : bytes.dropWhile isPlain with
      | nil => rfl
      | cons character rest =>
        rw [found, List.length_cons] at smaller
        dsimp only
        rw [readBytes, readByte_of_settled settled, takeByte]
        cases one : begun.append limit [character] with
        | error failure => rfl
        | ok ended =>
          have settled := settled.append one
          dsimp only
          rcases dropWhile_head found with rfl | rfl
          · rw [if_neg (by decide), if_pos rfl]
            exact (settled.finishLine true).emitWhere_congr _ fun other isSettled =>
              ih isSettled smaller
          · rw [if_pos rfl, if_neg (by decide), if_pos rfl]
            -- the carriage return is settled by the byte after it, if there is one
            have finished := settled.finishLine true
            split
            case h_1 => rfl
            case h_2 more =>
              rw [readBytes, readByte, if_pos rfl, if_pos rfl]
              show (match append limit { ended with lineEmpty := true } [0x0A] with
                | .error failure => .error failure
                | .ok both => both.emitWhere ended.lineEmpty fun other =>
                    consumeLines limit fuel other more : Observed) =
                match append limit (settle { ended with
                  lineEmpty := true, pendingCr := true, completeOnPendingCr := ended.lineEmpty })
                    [0x0A] with
                | .error failure => .error failure
                | .ok both => both.emitWhere ended.lineEmpty (readBytes limit more)
              have same : settle { ended with
                  lineEmpty := true, pendingCr := true, completeOnPendingCr := ended.lineEmpty } =
                  { ended with lineEmpty := true } := finished.settle_eq
              rw [same]
              cases two : append limit { ended with lineEmpty := true } [0x0A] with
              | error failure => rfl
              | ok both =>
                refine (finished.append two).emitWhere_congr _ fun other isSettled =>
                  ih isSettled ?_
                exact Nat.lt_of_succ_lt smaller
            case h_3 notEmpty notLf =>
              cases rest with
              | nil => exact absurd rfl notEmpty
              | cons second more =>
                have notLf : second ≠ 0x0A := fun isLf => notLf more (isLf ▸ rfl)
                rw [readBytes, readByte, if_pos rfl, if_neg notLf]
                have same : settle { ended with
                    lineEmpty := true, pendingCr := true, completeOnPendingCr := ended.lineEmpty } =
                    { ended with lineEmpty := true } := finished.settle_eq
                rw [same]
                refine finished.emitWhere_congr _ fun other isSettled => ?_
                rw [ih isSettled smaller, readBytes, readByte_of_settled isSettled]

theorem consumeAll_eq (settled : observer.Settled) :
    consumeAll limit bytes observer = readBytes limit bytes observer :=
  consumeLines_eq _ settled (Nat.lt_succ_self _)

/-- A carriage return that is not pending completes nothing. -/
def Tidy (observer : NativeMessagesObserver) : Prop :=
  observer.pendingCr = false → observer.completeOnPendingCr = false

theorem settleCr_eq (pending : observer.pendingCr = true) (nonempty : bytes ≠ []) :
    settleCr limit observer bytes = readBytes limit bytes observer := by
  cases bytes with
  | nil => exact absurd rfl nonempty
  | cons byte rest =>
    rw [readBytes, readByte, if_pos pending]
    by_cases isLf : byte = 0x0A
    · subst isLf
      rw [if_pos rfl]
      show (match observer.settle.append limit [0x0A] with
        | .error failure => .error failure
        | .ok both => both.emitWhere observer.completeOnPendingCr (consumeAll limit rest) :
          Observed) = _
      cases one : observer.settle.append limit [0x0A] with
      | error failure => rfl
      | ok both =>
        refine ((settled_settle observer).append one).emitWhere_congr _ fun other isSettled => ?_
        exact consumeAll_eq isSettled
    · have settles : settleCr limit observer (byte :: rest) =
          observer.settle.emitWhere observer.completeOnPendingCr
            (consumeAll limit (byte :: rest)) := by
        unfold settleCr
        dsimp only
        split
        case h_1 same => exact absurd (List.cons.inj same).1 isLf
        case h_2 => rfl
      rw [if_neg isLf, settles]
      refine (settled_settle observer).emitWhere_congr _ fun other isSettled => ?_
      rw [consumeAll_eq isSettled, readBytes, readByte_of_settled isSettled]

/-- A chunk is decoded and then read byte by byte; an empty one only where no carriage
return is pending. -/
theorem consume_eq_readBytes (tidy : observer.Tidy)
    (whole : bytes ≠ [] ∨ observer.pendingCr = false) :
    observer.consume limit bytes =
      match observer.utf8Validator.decode bytes with
      | none => .error invalid
      | some (utf8Validator, _) => readBytes limit bytes { observer with utf8Validator } := by
  unfold consume
  cases observer.utf8Validator.decode bytes with
  | none => rfl
  | some decoded =>
    dsimp only
    by_cases pending : observer.pendingCr = true
    · have nonempty := whole.resolve_right fun settled => by
        rw [pending] at settled
        cases settled
      rw [if_pos pending]
      exact settleCr_eq pending nonempty
    · rw [if_neg pending]
      have settled := Bool.eq_false_iff.mpr pending
      exact consumeAll_eq ⟨settled, tidy settled⟩

/-! ## One part after the other -/

/-- A second part is read where the first one has not stopped. -/
def andThen (first : Observed) (second : NativeMessagesObserver → Observed) : Observed :=
  match first with
  | .error failure => .error failure
  | .ok (next, records) =>
    if next.terminal then .ok (next, records)
    else
      match second next with
      | .error failure => .error failure
      | .ok (last, more) => .ok (last, records ++ more)

theorem andThen_nil (goesOn : observer.terminal = false)
    (second : NativeMessagesObserver → Observed) :
    andThen (.ok (observer, [])) second = second observer := by
  unfold andThen
  dsimp only
  rw [if_neg (by rw [goesOn]; exact Bool.false_ne_true)]
  cases second observer with
  | error failure => rfl
  | ok result => rfl

theorem emitRecord_andThen (first second : NativeMessagesObserver → Observed) :
    andThen (observer.emitRecord first) second =
      observer.emitRecord fun next => andThen (first next) second := by
  unfold emitRecord
  cases recordEffect observer.pending with
  | error failure => rfl
  | ok effect =>
    dsimp only
    by_cases stops : (observer.apply effect).terminal = true
    · rw [if_pos stops, if_pos stops, andThen, if_pos stops]
    · rw [if_neg stops, if_neg stops]
      cases first (observer.apply effect) with
      | error failure => rfl
      | ok result =>
        obtain ⟨next, records⟩ := result
        dsimp only [andThen]
        split
        · rfl
        · cases second next with
          | error failure => rfl
          | ok last => rfl

theorem emitWhere_andThen (complete : Bool) (first second : NativeMessagesObserver → Observed) :
    andThen (observer.emitWhere complete first) second =
      observer.emitWhere complete fun next => andThen (first next) second := by
  unfold emitWhere
  cases complete with
  | true => exact emitRecord_andThen first second
  | false => rfl

theorem takeByte_andThen (byte : UInt8) (first second : NativeMessagesObserver → Observed) :
    andThen (takeByte limit byte first observer) second =
      takeByte limit byte (fun next => andThen (first next) second) observer := by
  unfold takeByte
  cases observer.append limit [byte] with
  | error failure => rfl
  | ok ended =>
    dsimp only
    split
    · exact emitWhere_andThen _ first second
    · split <;> rfl

theorem readByte_andThen (byte : UInt8) (first second : NativeMessagesObserver → Observed) :
    andThen (readByte limit byte first observer) second =
      readByte limit byte (fun next => andThen (first next) second) observer := by
  unfold readByte
  split
  · split
    · cases observer.settle.append limit [0x0A] with
      | error failure => rfl
      | ok both => exact emitWhere_andThen _ first second
    · rw [emitWhere_andThen]
      congr 1
      funext next
      exact takeByte_andThen byte first second
  · exact takeByte_andThen byte first second

/-- What follows a byte starts from an observer that has not stopped. -/
theorem emitWhere_congr_running (goesOn : observer.terminal = false) (complete : Bool)
    (same : ∀ next : NativeMessagesObserver, next.terminal = false → first next = second next) :
    observer.emitWhere complete first = observer.emitWhere complete second := by
  unfold emitWhere
  cases complete with
  | true => exact emitRecord_congr fun effect running => same _ running
  | false => exact same observer goesOn

theorem takeByte_congr (goesOn : observer.terminal = false) (byte : UInt8)
    (same : ∀ next : NativeMessagesObserver, next.terminal = false → first next = second next) :
    takeByte limit byte first observer = takeByte limit byte second observer := by
  unfold takeByte
  cases one : observer.append limit [byte] with
  | error failure => rfl
  | ok ended =>
    have running : ended.terminal = false := append_ok one ▸ goesOn
    dsimp only
    split
    · refine emitWhere_congr_running ?_ _ same
      exact running
    · split
      · exact same _ running
      · exact same _ running

theorem readByte_congr (goesOn : observer.terminal = false) (byte : UInt8)
    (same : ∀ next : NativeMessagesObserver, next.terminal = false → first next = second next) :
    readByte limit byte first observer = readByte limit byte second observer := by
  unfold readByte
  split
  · split
    · cases one : observer.settle.append limit [0x0A] with
      | error failure => rfl
      | ok both =>
        have running : both.terminal = false := append_ok one ▸ goesOn
        exact emitWhere_congr_running running _ same
    · refine emitWhere_congr_running ?_ _ fun next running => takeByte_congr running byte same
      exact goesOn
  · exact takeByte_congr goesOn byte same

/-- Bytes are read one part after the other. -/
theorem readBytes_append (bytes more : List UInt8) : ∀ {observer : NativeMessagesObserver},
    observer.terminal = false →
      readBytes limit (bytes ++ more) observer =
        andThen (readBytes limit bytes observer) (readBytes limit more) := by
  induction bytes with
  | nil => exact fun goesOn => (andThen_nil goesOn _).symm
  | cons byte bytes ih =>
    intro observer goesOn
    rw [List.cons_append, readBytes, readBytes, readByte_andThen]
    exact readByte_congr goesOn byte fun next running => ih running

/-! ## The decoder -/

def decodedTo (decoder : Utf8Decoder) (observer : NativeMessagesObserver) :
    NativeMessagesObserver :=
  { observer with utf8Validator := decoder }

def resultTo (decoder : Utf8Decoder) (result : Observed) : Observed :=
  match result with
  | .error failure => .error failure
  | .ok (next, records) => .ok (next.decodedTo decoder, records)

section Decoder

variable (decoder : Utf8Decoder) {first second : NativeMessagesObserver → Observed}

theorem append_decodedTo (bytes : List UInt8) :
    (observer.decodedTo decoder).append limit bytes =
      match observer.append limit bytes with
      | .error failure => .error failure
      | .ok next => .ok (next.decodedTo decoder) := by
  unfold append
  by_cases full : limit < (observer.pending ++ bytes).length
  · rw [if_pos full]
    exact if_pos full
  · rw [if_neg full]
    exact if_neg full

theorem emitWhere_decodedTo (complete : Bool)
    (same : ∀ next : NativeMessagesObserver,
      first (next.decodedTo decoder) = resultTo decoder (second next)) :
    (observer.decodedTo decoder).emitWhere complete first =
      resultTo decoder (observer.emitWhere complete second) := by
  unfold emitWhere
  cases complete with
  | false => exact same observer
  | true =>
    rw [if_pos rfl, if_pos rfl]
    unfold emitRecord
    have pending : (observer.decodedTo decoder).pending = observer.pending := rfl
    rw [pending]
    cases recordEffect observer.pending with
    | error failure => rfl
    | ok effect =>
      have applied : (observer.decodedTo decoder).apply effect =
          (observer.apply effect).decodedTo decoder := rfl
      have sameEnd : ((observer.apply effect).decodedTo decoder).terminal =
          (observer.apply effect).terminal := rfl
      dsimp only
      rw [applied, sameEnd]
      split
      · rfl
      · rw [same]
        cases second (observer.apply effect) with
        | error failure => rfl
        | ok result => rfl

theorem takeByte_decodedTo (byte : UInt8)
    (same : ∀ next : NativeMessagesObserver,
      first (next.decodedTo decoder) = resultTo decoder (second next)) :
    takeByte limit byte first (observer.decodedTo decoder) =
      resultTo decoder (takeByte limit byte second observer) := by
  unfold takeByte
  rw [append_decodedTo]
  cases observer.append limit [byte] with
  | error failure => rfl
  | ok ended =>
    dsimp only
    split
    · exact @emitWhere_decodedTo { ended with lineEmpty := true } decoder first second _ same
    · split
      · exact same { ended with
          lineEmpty := true, pendingCr := true, completeOnPendingCr := ended.lineEmpty }
      · exact same { ended with lineEmpty := false }

theorem readBytes_decodedTo (bytes : List UInt8) : ∀ observer : NativeMessagesObserver,
    readBytes limit bytes (observer.decodedTo decoder) =
      resultTo decoder (readBytes limit bytes observer) := by
  induction bytes with
  | nil => exact fun _ => rfl
  | cons byte bytes ih =>
    intro observer
    rw [readBytes, readBytes, readByte, readByte]
    show (if observer.pendingCr then
        if byte = 0x0A then
          match (observer.settle.decodedTo decoder).append limit [0x0A] with
          | .error failure => .error failure
          | .ok both => both.emitWhere observer.completeOnPendingCr (readBytes limit bytes)
        else
          (observer.settle.decodedTo decoder).emitWhere observer.completeOnPendingCr
            (takeByte limit byte (readBytes limit bytes))
      else takeByte limit byte (readBytes limit bytes) (observer.decodedTo decoder)) = _
    split
    · split
      · rw [append_decodedTo]
        cases observer.settle.append limit [0x0A] with
        | error failure => rfl
        | ok both => exact emitWhere_decodedTo decoder _ ih
      · exact emitWhere_decodedTo decoder _ fun next => takeByte_decodedTo decoder byte ih
    · exact takeByte_decodedTo decoder byte ih

end Decoder

/-! ## What is read -/

/-- Some bytes are read, as a chunk would be; no bytes change nothing. -/
def Reads (limit : Nat) (observer : NativeMessagesObserver) (bytes : List UInt8)
    (next : NativeMessagesObserver) (records : List (List UInt8)) : Prop :=
  ∃ decoder text last, observer.utf8Validator.decode bytes = some (decoder, text) ∧
    readBytes limit bytes observer = .ok (last, records) ∧ next = last.decodedTo decoder

theorem reads_nil : Reads limit observer [] observer [] :=
  ⟨observer.utf8Validator, [], observer, rfl, rfl, rfl⟩

theorem Reads.of_nil (reads : Reads limit observer [] next records) :
    next = observer ∧ records = [] := by
  obtain ⟨decoder, text, last, decoded, read, rfl⟩ := reads
  obtain ⟨rfl, -⟩ := Prod.mk.inj (Option.some.inj decoded)
  obtain ⟨rfl, rfl⟩ := Prod.mk.inj (Except.ok.inj read)
  exact ⟨rfl, rfl⟩

theorem consume_eq_ok (tidy : observer.Tidy) (whole : bytes ≠ [] ∨ observer.pendingCr = false) :
    observer.consume limit bytes = .ok (next, records) ↔
      Reads limit observer bytes next records := by
  rw [consume_eq_readBytes tidy whole]
  constructor
  · intro returned
    cases decoded : observer.utf8Validator.decode bytes with
    | none =>
      rw [decoded] at returned
      cases returned
    | some result =>
      obtain ⟨decoder, text⟩ := result
      rw [decoded] at returned
      have returned : readBytes limit bytes (observer.decodedTo decoder) = .ok (next, records) :=
        returned
      rw [readBytes_decodedTo] at returned
      cases read : readBytes limit bytes observer with
      | error failure =>
        rw [read] at returned
        cases returned
      | ok last =>
        rw [read] at returned
        obtain ⟨rfl, rfl⟩ := Prod.mk.inj (Except.ok.inj returned)
        exact ⟨decoder, text, last.1, decoded, read, rfl⟩
  · rintro ⟨decoder, text, last, decoded, read, rfl⟩
    rw [decoded]
    show readBytes limit bytes (observer.decodedTo decoder) = _
    rw [readBytes_decodedTo, read]
    rfl

/-! ## Where the records are cut -/

def stopsMessage (record : List UInt8) : Bool :=
  match recordEffect record with
  | .ok effect => effect.stops
  | .error _ => false

/-- From `observer` some bytes lead to `last` with some records: these and what is pending
are the bytes, up to the record that stops the message. -/
structure Cut (bytes : List UInt8) (observer last : NativeMessagesObserver)
    (records : List (List UInt8)) : Prop where
  whole : ∃ rest, observer.pending ++ bytes = records.flatten ++ last.pending ++ rest ∧
    (last.terminal = false → rest = [])
  stops : last.terminal = true → ∃ front final, records = front ++ [final] ∧
    stopsMessage final = true ∧ ∀ record ∈ front, stopsMessage record = false
  goesOn : last.terminal = false → ∀ record ∈ records, stopsMessage record = false
  quiet : records = [] → last.semantic = observer.semantic ∧ last.terminal = false
  semantic : observer.semantic = true → last.semantic = true
  told : last.terminal = true → last.semantic = true
  tidy : observer.Tidy → last.Tidy

/-- A computation cuts the bytes wherever it leads. -/
def Cuts (bytes : List UInt8) (observer : NativeMessagesObserver) (result : Observed) : Prop :=
  ∀ last records, result = .ok (last, records) → Cut bytes observer last records

theorem cuts_here (goesOn : observer.terminal = false) : Cuts [] observer (.ok (observer, [])) := by
  intro last records same
  obtain ⟨rfl, rfl⟩ := Prod.mk.inj (Except.ok.inj same)
  exact {
    whole := ⟨[], by rw [List.flatten_nil, List.nil_append, List.append_nil], fun _ => rfl⟩
    stops := fun stops => by
      rw [goesOn] at stops
      cases stops
    goesOn := fun _ _ member => nomatch member
    quiet := fun _ => ⟨rfl, goesOn⟩
    semantic := id
    told := fun stops => by
      rw [goesOn] at stops
      cases stops
    tidy := id }

theorem cuts_error : Cuts bytes observer (.error failure) := fun _ _ same => nomatch same

/-- The first bytes are taken without a record. -/
theorem Cuts.shift {bytes taken : List UInt8} {result : Observed}
    (pending : next.pending = observer.pending ++ taken)
    (semantic : next.semantic = observer.semantic) (tidy : observer.Tidy → next.Tidy)
    (cuts : Cuts bytes next result) : Cuts (taken ++ bytes) observer result := by
  intro last records same
  have cut := cuts last records same
  obtain ⟨rest, whole, isRest⟩ := cut.whole
  exact { cut with
    whole := ⟨rest, by rw [← whole, pending, List.append_assoc], isRest⟩
    quiet := fun none => semantic ▸ cut.quiet none
    semantic := fun told => cut.semantic (semantic.trans told)
    tidy := fun isTidy => cut.tidy (tidy isTidy) }

theorem observePayload_told {payload : WireJsonObject}
    (observed : observePayload payload = .ok effect) (stops : effect.stops = true) :
    effect.semantic = true := by
  unfold observePayload at observed
  split at observed
  case h_1 =>
    split at observed
    · cases observed
    split at observed
    · cases observed
      rfl
    split at observed
    · cases observed
      rfl
    split at observed
    · cases observed
      rfl
    split at observed
    · cases observed
      rfl
    · cases observed
      cases stops
  case h_2 => cases observed

theorem observeLines_told {lines : List JsString} (observed : observeLines lines = .ok effect)
    (stops : effect.stops = true) : effect.semantic = true := by
  unfold observeLines at observed
  split at observed
  · cases observed
  dsimp only at observed
  split at observed
  · cases observed
    cases stops
  split at observed
  · exact observePayload_told observed stops
  · cases observed

/-- A record that stops the message is about it. -/
theorem recordEffect_told {record : List UInt8} (observed : recordEffect record = .ok effect)
    (stops : effect.stops = true) : effect.semantic = true := by
  unfold recordEffect at observed
  split at observed
  · cases observed
  · exact observeLines_told observed stops

theorem cuts_emitRecord (goesOn : observer.terminal = false)
    (cuts : ∀ next : NativeMessagesObserver, next.terminal = false →
      Cuts bytes next (following next)) : Cuts bytes observer (observer.emitRecord following) := by
  intro last records same
  unfold emitRecord at same
  cases observed : recordEffect observer.pending with
  | error failure =>
    rw [observed] at same
    cases same
  | ok effect =>
    rw [observed] at same
    dsimp only at same
    have stopsIs : stopsMessage observer.pending = effect.stops := by
      rw [stopsMessage, observed]
    have terminalIs : (observer.apply effect).terminal = effect.stops := by
      show (observer.terminal || effect.stops) = effect.stops
      rw [goesOn, Bool.false_or]
    split at same
    case isTrue stopped =>
      obtain ⟨rfl, rfl⟩ := Prod.mk.inj (Except.ok.inj same)
      rw [terminalIs] at stopped
      exact {
        whole := ⟨bytes, by simp [NativeMessagesObserver.apply], fun running => by
          rw [terminalIs, stopped] at running
          cases running⟩
        stops := fun _ => ⟨[], observer.pending, rfl, stopsIs.trans stopped,
          fun _ member => nomatch member⟩
        goesOn := fun running => by
          rw [terminalIs, stopped] at running
          cases running
        quiet := fun none => nomatch none
        semantic := fun told => by
          show (observer.semantic || effect.semantic) = true
          rw [told, Bool.true_or]
        told := fun _ => by
          show (observer.semantic || effect.semantic) = true
          rw [recordEffect_told observed stopped, Bool.or_true]
        tidy := id }
    case isFalse running =>
      have running := Bool.eq_false_iff.mpr running
      cases followed : following (observer.apply effect) with
      | error failure =>
        rw [followed] at same
        cases same
      | ok result =>
        rw [followed] at same
        obtain ⟨rfl, rfl⟩ := Prod.mk.inj (Except.ok.inj same)
        have cut := cuts _ running _ _ followed
        rw [terminalIs] at running
        have notStop : stopsMessage observer.pending = false := stopsIs.trans running
        obtain ⟨rest, whole, isRest⟩ := cut.whole
        have whole : bytes = result.2.flatten ++ result.1.pending ++ rest := whole
        exact {
          whole := ⟨rest, by rw [List.flatten_cons, whole]; simp only [List.append_assoc], isRest⟩
          stops := fun stopped => by
            obtain ⟨front, final, isSplit, isStop, others⟩ := cut.stops stopped
            refine ⟨observer.pending :: front, final, by rw [isSplit, List.cons_append], isStop, ?_⟩
            intro record member
            rcases List.mem_cons.mp member with rfl | isOther
            · exact notStop
            · exact others record isOther
          goesOn := fun stillRunning record member => by
            rcases List.mem_cons.mp member with rfl | isOther
            · exact notStop
            · exact cut.goesOn stillRunning record isOther
          quiet := fun none => nomatch none
          semantic := fun told => cut.semantic <| by
            show (observer.semantic || effect.semantic) = true
            rw [told, Bool.true_or]
          told := cut.told
          tidy := cut.tidy }

theorem cuts_emitWhere (goesOn : observer.terminal = false) (complete : Bool)
    (cuts : ∀ next : NativeMessagesObserver, next.terminal = false →
      Cuts bytes next (following next)) :
    Cuts bytes observer (observer.emitWhere complete following) := by
  unfold emitWhere
  cases complete with
  | true => exact cuts_emitRecord goesOn cuts
  | false => exact cuts observer goesOn

theorem cuts_takeByte (goesOn : observer.terminal = false)
    (cuts : ∀ next : NativeMessagesObserver, next.terminal = false →
      Cuts bytes next (following next)) :
    Cuts (byte :: bytes) observer (takeByte limit byte following observer) := by
  unfold takeByte
  cases one : observer.append limit [byte] with
  | error failure => exact cuts_error
  | ok ended =>
    obtain rfl := append_ok one
    dsimp only
    split
    · refine @Cuts.shift observer _ bytes [byte] _ ?_ ?_ ?_ (cuts_emitWhere ?_ _ cuts)
      · rfl
      · rfl
      · exact id
      · exact goesOn
    · split
      · refine @Cuts.shift observer _ bytes [byte] _ ?_ ?_ ?_ (cuts _ ?_)
        · rfl
        · rfl
        · exact fun _ none => nomatch none
        · exact goesOn
      · refine @Cuts.shift observer _ bytes [byte] _ ?_ ?_ ?_ (cuts _ ?_)
        · rfl
        · rfl
        · exact id
        · exact goesOn

theorem cuts_readBytes (bytes : List UInt8) : ∀ {observer : NativeMessagesObserver},
    observer.terminal = false → Cuts bytes observer (readBytes limit bytes observer) := by
  induction bytes with
  | nil => exact fun goesOn => cuts_here goesOn
  | cons byte bytes ih =>
    intro observer goesOn
    have settles : observer.Tidy → observer.settle.Tidy := fun _ _ => rfl
    rw [readBytes, readByte]
    split
    · split
      case isTrue isLf =>
        subst isLf
        cases one : observer.settle.append limit [0x0A] with
        | error failure => exact cuts_error
        | ok both =>
          have isBoth := append_ok one
          have running : both.terminal = false := isBoth ▸ goesOn
          refine @Cuts.shift observer both bytes [0x0A] _ ?_ ?_ ?_
            (cuts_emitWhere running _ fun next running => ih running)
          · rw [isBoth]
            rfl
          · rw [isBoth]
            rfl
          · rw [isBoth]
            exact settles
      case isFalse =>
        have running : observer.settle.terminal = false := goesOn
        refine @Cuts.shift observer observer.settle (byte :: bytes) [] _ ?_ ?_ settles
          (cuts_emitWhere running _ fun next running => cuts_takeByte running fun _ => ih)
        · exact (List.append_nil _).symm
        · rfl
    · exact cuts_takeByte goesOn fun _ => ih

theorem Cut.decodedTo (cut : Cut bytes observer next records) (decoder : Utf8Decoder) :
    Cut bytes observer (next.decodedTo decoder) records :=
  ⟨cut.whole, cut.stops, cut.goesOn, cut.quiet, cut.semantic, cut.told, cut.tidy⟩

theorem Cut.quiet_before (cut : Cut bytes observer next records) (quiet : next.semantic = false) :
    observer.semantic = false ∧ next.terminal = false := by
  constructor
  · by_contra told
    rw [cut.semantic (Bool.eq_true_of_not_eq_false told)] at quiet
    cases quiet
  · by_contra stopped
    rw [cut.told (Bool.eq_true_of_not_eq_false stopped)] at quiet
    cases quiet

theorem Reads.cut (reads : Reads limit observer bytes next records)
    (goesOn : observer.terminal = false) : Cut bytes observer next records := by
  obtain ⟨decoder, text, last, -, read, rfl⟩ := reads
  exact (cuts_readBytes bytes goesOn last records read).decodedTo decoder

/-- What a chunk leads to, an empty one after a carriage return included. -/
theorem cut_consume (tidy : observer.Tidy) (goesOn : observer.terminal = false)
    (consumed : observer.consume limit bytes = .ok (next, records)) :
    Cut bytes observer next records := by
  by_cases whole : bytes ≠ [] ∨ observer.pendingCr = false
  · exact ((consume_eq_ok tidy whole).mp consumed).cut goesOn
  rw [not_or, not_not, Bool.not_eq_false] at whole
  obtain ⟨rfl, pending⟩ := whole
  have running : observer.settle.terminal = false := goesOn
  have here : ∀ other : NativeMessagesObserver, other.terminal = false →
      Cuts [] other (consumeAll limit [] other) := fun _ still => cuts_here still
  have cuts := cuts_emitWhere running observer.completeOnPendingCr here
  have same : observer.consume limit [] =
      observer.settle.emitWhere observer.completeOnPendingCr (consumeAll limit []) := by
    unfold consume
    show (if observer.pendingCr then settleCr limit observer [] else consumeAll limit [] observer) =
        _
    rw [if_pos pending]
    rfl
  rw [same] at consumed
  have cut := cuts next records consumed
  exact ⟨cut.whole, cut.stops, cut.goesOn, cut.quiet, cut.semantic, cut.told,
    fun _ => cut.tidy fun _ => rfl⟩

/-- The end of the stream is the end of the message, or it fails. -/
theorem cut_finish (goesOn : observer.terminal = false) {usage : SemanticUsage}
    (finished : observer.finish = .ok (usage, records)) :
    ∃ last, Cut [] observer last records ∧ last.terminal = true := by
  unfold finish at finished
  split at finished
  · cases finished
  cases ended : observer.finishRecord with
  | error failure =>
    rw [ended] at finished
    cases finished
  | ok result =>
    obtain ⟨last, others⟩ := result
    rw [ended] at finished
    dsimp only at finished
    have cuts : Cuts [] observer observer.finishRecord := by
      unfold finishRecord
      dsimp only
      split
      · have running : observer.settle.terminal = false := goesOn
        exact @Cuts.shift observer observer.settle [] [] _ (List.append_nil _).symm rfl
          (fun _ _ => rfl) (cuts_emitWhere running _ fun _ still => cuts_here still)
      · exact cuts_here goesOn
    split at finished
    · cases finished
    split at finished
    · cases finished
    split at finished
    · cases finished
    case isFalse stopped =>
      rw [Bool.not_eq_true', Bool.not_eq_false] at stopped
      obtain ⟨-, rfl⟩ := Prod.mk.inj (Except.ok.inj finished)
      exact ⟨last, cuts last others ended, stopped⟩

/-! ## Reading part by part -/

theorem Reads.append {others : List (List UInt8)} {last : NativeMessagesObserver}
    (goesOn : observer.terminal = false) (first : Reads limit observer bytes next records)
    (running : next.terminal = false) (second : Reads limit next more last others) :
    Reads limit observer (bytes ++ more) last (records ++ others) := by
  obtain ⟨decoder, text, middle, decoded, read, rfl⟩ := first
  obtain ⟨final, rest, ended, decodedRest, readRest, rfl⟩ := second
  have decodedRest : decoder.decode more = some (final, rest) := decodedRest
  rw [readBytes_decodedTo] at readRest
  cases plain : readBytes limit more middle with
  | error failure =>
    rw [plain] at readRest
    cases readRest
  | ok result =>
    rw [plain] at readRest
    obtain ⟨rfl, rfl⟩ := Prod.mk.inj (Except.ok.inj readRest)
    refine ⟨final, text ++ rest, result.1, ?_, ?_, rfl⟩
    · rw [Utf8Decoder.decode_append, decoded]
      simp [decodedRest]
    · have running : ¬ middle.terminal = true := Bool.eq_false_iff.mp running
      rw [readBytes_append _ _ goesOn, read, andThen, if_neg running, plain]

/-- Either the message stops in the first part, or the second part is read after it. -/
theorem Reads.split (goesOn : observer.terminal = false)
    (reads : Reads limit observer (bytes ++ more) next records) :
    ∃ middle first, Reads limit observer bytes middle first ∧
      (middle.terminal = true ∧ records = first ∧ next.terminal = true ∧
          next.usage = middle.usage ∨
        middle.terminal = false ∧ ∃ second, Reads limit middle more next second ∧
          records = first ++ second) := by
  obtain ⟨decoder, text, last, decoded, read, rfl⟩ := reads
  rw [Utf8Decoder.decode_append] at decoded
  cases decodedFirst : observer.utf8Validator.decode bytes with
  | none =>
    rw [decodedFirst] at decoded
    cases decoded
  | some result =>
    obtain ⟨between, front⟩ := result
    rw [decodedFirst, Option.bind_eq_bind, Option.bind_some] at decoded
    dsimp only at decoded
    cases decodedRest : between.decode more with
    | none =>
      rw [decodedRest] at decoded
      cases decoded
    | some result =>
      obtain ⟨final, back⟩ := result
      rw [decodedRest] at decoded
      obtain ⟨rfl, -⟩ := Prod.mk.inj (Option.some.inj decoded)
      rw [readBytes_append _ _ goesOn] at read
      cases readFirst : readBytes limit bytes observer with
      | error failure =>
        rw [readFirst] at read
        cases read
      | ok result =>
        obtain ⟨middle, first⟩ := result
        rw [readFirst, andThen] at read
        refine ⟨middle.decodedTo between, first,
          ⟨between, front, middle, decodedFirst, readFirst, rfl⟩,
          ?_⟩
        split at read
        case isTrue stopped =>
          obtain ⟨rfl, rfl⟩ := Prod.mk.inj (Except.ok.inj read)
          exact .inl ⟨stopped, rfl, stopped, rfl⟩
        case isFalse running =>
          refine .inr ⟨Bool.eq_false_iff.mpr running, ?_⟩
          cases readSecond : readBytes limit more middle with
          | error failure =>
            rw [readSecond] at read
            cases read
          | ok result =>
            rw [readSecond] at read
            obtain ⟨rfl, rfl⟩ := Prod.mk.inj (Except.ok.inj read)
            refine ⟨result.2, ⟨final, back, result.1.decodedTo between, decodedRest, ?_, rfl⟩, rfl⟩
            rw [readBytes_decodedTo, readSecond]
            rfl

/-! ## No record is empty -/

/-- What the carriage return at the end of a chunk completes is not empty. -/
def Filled (observer : NativeMessagesObserver) : Prop :=
  observer.completeOnPendingCr = true → observer.pending ≠ []

/-- A computation gives no empty record wherever it leads. -/
def Full (result : Observed) : Prop :=
  ∀ last records, result = .ok (last, records) → last.Filled ∧ ∀ record ∈ records, record ≠ []

theorem full_here (filled : observer.Filled) : Full (.ok (observer, [])) := by
  intro last records same
  obtain ⟨rfl, rfl⟩ := Prod.mk.inj (Except.ok.inj same)
  exact ⟨filled, fun _ member => nomatch member⟩

theorem full_error : Full (.error failure) := fun _ _ same => nomatch same

theorem filled_of_settled (settled : observer.completeOnPendingCr = false) : observer.Filled := by
  intro complete
  rw [settled] at complete
  cases complete

theorem full_emitRecord (settled : observer.completeOnPendingCr = false)
    (pending : observer.pending ≠ [])
    (full : ∀ next : NativeMessagesObserver, next.completeOnPendingCr = false →
      Full (following next)) : Full (observer.emitRecord following) := by
  unfold emitRecord
  split
  · exact full_error
  case h_2 effect _ =>
    have settled : (observer.apply effect).completeOnPendingCr = false := settled
    split
    · intro last records same
      obtain ⟨rfl, rfl⟩ := Prod.mk.inj (Except.ok.inj same)
      exact ⟨filled_of_settled settled, fun record member => List.mem_singleton.mp member ▸ pending⟩
    · cases followed : following (observer.apply effect) with
      | error failure => exact full_error
      | ok result =>
        intro last records same
        obtain ⟨rfl, rfl⟩ := Prod.mk.inj (Except.ok.inj same)
        obtain ⟨filled, others⟩ := full _ settled _ _ followed
        refine ⟨filled, fun record member => ?_⟩
        rcases List.mem_cons.mp member with rfl | isOther
        · exact pending
        · exact others record isOther

theorem full_emitWhere {complete : Bool} (settled : observer.completeOnPendingCr = false)
    (pending : complete = true → observer.pending ≠ [])
    (full : ∀ next : NativeMessagesObserver, next.completeOnPendingCr = false →
      Full (following next)) : Full (observer.emitWhere complete following) := by
  unfold emitWhere
  cases complete with
  | true => exact full_emitRecord settled (pending rfl) full
  | false => exact full observer settled

theorem full_takeByte (settled : observer.completeOnPendingCr = false) :
    Full (takeByte limit byte (readBytes limit []) observer) := by
  unfold takeByte
  cases one : observer.append limit [byte] with
  | error failure => exact full_error
  | ok ended =>
    obtain rfl := append_ok one
    have pending : observer.pending ++ [byte] ≠ [] :=
      List.append_ne_nil_of_right_ne_nil _ (List.cons_ne_nil _ _)
    dsimp only
    split
    · refine full_emitWhere ?_ ?_ fun _ other => full_here (filled_of_settled other)
      · exact settled
      · exact fun _ => pending
    · split
      · exact full_here fun _ => pending
      · exact full_here (filled_of_settled settled)

theorem full_readByte (tidy : observer.Tidy) (filled : observer.Filled) :
    Full (readByte limit byte (readBytes limit []) observer) := by
  unfold readByte
  split
  · split
    · cases one : observer.settle.append limit [0x0A] with
      | error failure => exact full_error
      | ok both =>
        obtain rfl := append_ok one
        refine full_emitWhere ?_ ?_ fun _ other => full_here (filled_of_settled other)
        · rfl
        · exact fun _ => List.append_ne_nil_of_right_ne_nil _ (List.cons_ne_nil _ _)
    · refine full_emitWhere ?_ ?_ fun _ other => full_takeByte other
      · rfl
      · exact filled
  case isFalse quiet => exact full_takeByte (tidy (Bool.eq_false_iff.mpr quiet))

/-- A byte completes no empty record. -/
theorem Reads.full (reads : Reads limit observer [byte] next records) (tidy : observer.Tidy)
    (filled : observer.Filled) : next.Filled ∧ ∀ record ∈ records, record ≠ [] := by
  obtain ⟨decoder, text, last, -, read, rfl⟩ := reads
  exact full_readByte tidy filled last records read

theorem full_finishRecord (filled : observer.Filled) : Full observer.finishRecord := by
  unfold finishRecord
  dsimp only
  split
  · refine full_emitWhere ?_ ?_ fun _ other => full_here (filled_of_settled other)
    · rfl
    · exact filled
  · exact full_here filled

end NativeMessagesObserver

end GhcGateway.Messages
