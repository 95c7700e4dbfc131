/-
# What the native Messages stream gives on

The emissions are brought to one loop (`resume`), whose state is the observer, the bytes
read so far and the records kept back. Whatever the chunks are, what is given on is a
prefix of the upstream that ends with a record. Chunks that are read whole
(`WholeChunks`) give what the bytes one by one would give.
-/

import GhcGateway.Messages.NativeMessagesChunks

namespace GhcGateway.Messages

open Library

open Conversion (SemanticUsage)
open NativeMessagesObserver

variable {limits : StreamLimits} {observer next : NativeMessagesObserver}
  {records kept chunks : List (List UInt8)} {count : Nat} {chunk bytes : List UInt8}
  {failure : GatewayFailure} {byte : UInt8}

/-! ## One loop -/

def close (observer : NativeMessagesObserver) : Emissions :=
  match observer.finish with
  | .error failure => Generator.throw failure
  | .ok (usage, records) => Generator.emit records (Generator.pure usage)

/-- A chunk may be read: the message has begun, or the chunk is not too long. -/
def Within (limits : StreamLimits) (observer : NativeMessagesObserver) (count : Nat)
    (chunk : List UInt8) : Prop :=
  observer.semantic = true ∨ count + chunk.length ≤ limits.accumulatorBytes

instance (count : Nat) (chunk : List UInt8) : Decidable (Within limits observer count chunk) := by
  unfold Within
  infer_instance

/-- The emissions after `count` bytes, with some records kept back. -/
def resume (limits : StreamLimits) (observer : NativeMessagesObserver) (count : Nat)
    (kept : List (List UInt8)) : List (List UInt8) → Emissions
  | [] => if observer.semantic then close observer else Generator.throw truncated
  | chunk :: chunks =>
    if Within limits observer count chunk then
      match observer.consume limits.eventLimitBytes chunk with
      | .error failure => Generator.throw failure
      | .ok (next, records) =>
        if next.semantic then
          Generator.emit (kept ++ records)
            (if next.terminal then Generator.pure next.usage
            else resume limits next (count + chunk.length) [] chunks)
        else resume limits next (count + chunk.length) (kept ++ records) chunks
    else Generator.throw invalid

/-- What follows the reading of some bytes. -/
def follow (limits : StreamLimits) (next : NativeMessagesObserver) (count : Nat)
    (records chunks : List (List UInt8)) : Emissions :=
  if next.semantic then
    Generator.emit records
      (if next.terminal then Generator.pure next.usage else resume limits next count [] chunks)
  else resume limits next count records chunks

theorem resume_of_ok (within : Within limits observer count chunk)
    (consumed : observer.consume limits.eventLimitBytes chunk = .ok (next, records)) :
    resume limits observer count kept (chunk :: chunks) =
      follow limits next (count + chunk.length) (kept ++ records) chunks := by
  rw [resume, if_pos within, consumed]
  rfl

theorem resume_of_error (within : Within limits observer count chunk)
    (failed : observer.consume limits.eventLimitBytes chunk = .error failure) :
    resume limits observer count kept (chunk :: chunks) = Generator.throw failure := by
  rw [resume, if_pos within, failed]

theorem resume_of_long (long : ¬ Within limits observer count chunk) :
    resume limits observer count kept (chunk :: chunks) = Generator.throw invalid := by
  rw [resume, if_neg long]

theorem follow_running (semantic : next.semantic = true) (running : next.terminal = false) :
    follow limits next count records chunks =
      Generator.emit records (resume limits next count [] chunks) := by
  rw [follow, if_pos semantic, if_neg (Bool.eq_false_iff.mp running)]

theorem follow_quiet (quiet : next.semantic = false) :
    follow limits next count records chunks = resume limits next count records chunks := by
  rw [follow, if_neg (Bool.eq_false_iff.mp quiet)]

theorem follow_stopped (semantic : next.semantic = true) (stopped : next.terminal = true) :
    follow limits next count records chunks =
      Generator.emit records (Generator.pure next.usage) := by
  rw [follow, if_pos semantic, if_pos stopped]

structure Running (limits : StreamLimits) (observer : NativeMessagesObserver) (count : Nat)
    (kept : List (List UInt8)) : Prop where
  tidy : observer.Tidy
  goesOn : observer.terminal = false
  given : observer.semantic = true → kept = []
  short : observer.semantic = false → count ≤ limits.accumulatorBytes

theorem running_initial : Running limits .initial 0 [] where
  tidy := fun _ => rfl
  goesOn := rfl
  given := fun _ => rfl
  short := fun _ => Nat.zero_le _

/-- After the message has begun nothing is kept back. -/
theorem Running.told {count total : Nat} {kept records : List (List UInt8)} {chunk : List UInt8}
    (state : Running limits observer count kept) (cut : Cut chunk observer next records)
    (semantic : next.semantic = true) (running : next.terminal = false) :
    Running limits next total [] where
  tidy := cut.tidy state.tidy
  goesOn := running
  given := fun _ => rfl
  short := fun quiet => by
    rw [semantic] at quiet
    cases quiet

/-- Before it, the records are kept back. -/
theorem Running.quiet (state : Running limits observer count kept)
    (cut : Cut chunk observer next records) (within : Within limits observer count chunk)
    (quiet : next.semantic = false) :
    Running limits next (count + chunk.length) (kept ++ records) where
  tidy := cut.tidy state.tidy
  goesOn := (cut.quiet_before quiet).2
  given := fun told => by
    rw [quiet] at told
    cases told
  short := fun _ => within.resolve_left <| by
    rw [(cut.quiet_before quiet).1]
    exact Bool.false_ne_true

/-- After the first record about the message, `resume` is `deliver`. -/
theorem deliver_eq_resume (chunks : List (List UInt8)) : ∀ {observer : NativeMessagesObserver}
    {count : Nat}, Running limits observer count [] → observer.semantic = true →
      deliver limits observer chunks = resume limits observer count [] chunks := by
  induction chunks with
  | nil =>
    intro observer count _ semantic
    rw [resume, if_pos semantic]
    rfl
  | cons chunk chunks ih =>
    intro observer count state semantic
    rw [deliver]
    cases consumed : observer.consume limits.eventLimitBytes chunk with
    | error failure => rw [resume_of_error (.inl semantic) consumed]
    | ok result =>
      obtain ⟨next, records⟩ := result
      have cut := cut_consume state.tidy state.goesOn consumed
      have told := cut.semantic semantic
      rw [resume_of_ok (.inl semantic) consumed, List.nil_append]
      by_cases stopped : next.terminal = true
      · rw [follow_stopped told stopped]
        dsimp only
        rw [if_pos stopped]
      · have running := Bool.eq_false_iff.mpr stopped
        rw [follow_running told running]
        dsimp only
        rw [if_neg stopped, ih (state.told cut told running) told]

theorem prefetch_eq_resume (chunks : List (List UInt8)) : ∀ {observer : NativeMessagesObserver}
    {count : Nat} {kept : List (List UInt8)}, Running limits observer count kept →
      observer.semantic = false →
      prefetch limits observer count kept chunks = resume limits observer count kept chunks := by
  induction chunks with
  | nil =>
    intro observer count kept _ quiet
    rw [resume, if_neg (Bool.eq_false_iff.mp quiet)]
    rfl
  | cons chunk chunks ih =>
    intro observer count kept state quiet
    have withinIff : Within limits observer count chunk ↔
        ¬ limits.accumulatorBytes < count + chunk.length := by
      rw [Within, quiet, Nat.not_lt]
      exact or_iff_right Bool.false_ne_true
    rw [prefetch]
    by_cases within : Within limits observer count chunk
    · rw [if_neg (withinIff.mp within)]
      cases consumed : observer.consume limits.eventLimitBytes chunk with
      | error failure => rw [resume_of_error within consumed]
      | ok result =>
        obtain ⟨next, records⟩ := result
        have cut := cut_consume state.tidy state.goesOn consumed
        rw [resume_of_ok within consumed, follow]
        dsimp only
        by_cases told : next.semantic = true
        · rw [if_pos told, if_pos told]
          by_cases stopped : next.terminal = true
          · rw [if_pos stopped, if_pos stopped]
          · have running := Bool.eq_false_iff.mpr stopped
            have after := @Running.told limits observer next count (count + chunk.length) kept
              records chunk state cut told running
            rw [if_neg stopped, if_neg stopped, deliver_eq_resume chunks after told]
        · have still := Bool.eq_false_iff.mpr told
          rw [if_neg told, if_neg told, ih (state.quiet cut within still) still]
    · rw [resume_of_long within, if_pos (not_not.mp (mt withinIff.mpr within))]

theorem nativeMessagesEmissions_eq (limits : StreamLimits) (chunks : List (List UInt8)) :
    nativeMessagesEmissions limits chunks = resume limits .initial 0 [] chunks :=
  prefetch_eq_resume chunks running_initial rfl

/-! ## Whatever the chunks are -/

/-- The rule for the loop: it ends, it goes on after a chunk that is about the message, or
it goes on and keeps the records back. -/
theorem resume_induction {P : NativeMessagesObserver → Nat → List (List UInt8) →
      List (List UInt8) → Emissions → Prop}
    (ends : ∀ observer count kept, Running limits observer count kept →
      P observer count kept [] (resume limits observer count kept []))
    (long : ∀ observer count kept chunk chunks, Running limits observer count kept →
      ¬ Within limits observer count chunk →
      P observer count kept (chunk :: chunks) (Generator.throw invalid))
    (fails : ∀ observer count kept chunk chunks failure, Running limits observer count kept →
      Within limits observer count chunk →
      observer.consume limits.eventLimitBytes chunk = .error failure →
      P observer count kept (chunk :: chunks) (Generator.throw failure))
    (stops : ∀ observer count kept chunk chunks next records,
      Running limits observer count kept → Within limits observer count chunk →
      observer.consume limits.eventLimitBytes chunk = .ok (next, records) →
      Cut chunk observer next records → next.terminal = true →
      P observer count kept (chunk :: chunks)
        (Generator.emit (kept ++ records) (Generator.pure next.usage)))
    (told : ∀ observer count kept chunk chunks next records rest,
      Running limits observer count kept → Within limits observer count chunk →
      observer.consume limits.eventLimitBytes chunk = .ok (next, records) →
      Cut chunk observer next records → next.terminal = false → next.semantic = true →
      P next (count + chunk.length) [] chunks rest →
      P observer count kept (chunk :: chunks) (Generator.emit (kept ++ records) rest))
    (quiet : ∀ observer count kept chunk chunks next records rest,
      Running limits observer count kept → Within limits observer count chunk →
      observer.consume limits.eventLimitBytes chunk = .ok (next, records) →
      Cut chunk observer next records → next.semantic = false →
      P next (count + chunk.length) (kept ++ records) chunks rest →
      P observer count kept (chunk :: chunks) rest)
    (chunks : List (List UInt8)) : ∀ {observer : NativeMessagesObserver} {count : Nat}
      {kept : List (List UInt8)}, Running limits observer count kept →
      P observer count kept chunks (resume limits observer count kept chunks) := by
  induction chunks with
  | nil => exact fun state => ends _ _ _ state
  | cons chunk chunks ih =>
    intro observer count kept state
    by_cases within : Within limits observer count chunk
    · cases consumed : observer.consume limits.eventLimitBytes chunk with
      | error failure =>
        rw [resume_of_error within consumed]
        exact fails _ _ _ _ _ _ state within consumed
      | ok result =>
        obtain ⟨next, records⟩ := result
        have cut := cut_consume state.tidy state.goesOn consumed
        rw [resume_of_ok within consumed]
        by_cases semantic : next.semantic = true
        · by_cases stopped : next.terminal = true
          · rw [follow_stopped semantic stopped]
            exact stops _ _ _ _ _ _ _ state within consumed cut stopped
          · have running := Bool.eq_false_iff.mpr stopped
            rw [follow_running semantic running]
            exact told _ _ _ _ _ _ _ _ state within consumed cut running semantic
              (ih (state.told cut semantic running))
        · have still := Bool.eq_false_iff.mpr semantic
          rw [follow_quiet still]
          exact quiet _ _ _ _ _ _ _ _ state within consumed cut still
            (ih (state.quiet cut within still))
    · rw [resume_of_long within]
      exact long _ _ _ _ _ state within

/-- The bytes of a chunk, after what was pending, are its records and what is pending then. -/
theorem flatten_of_running (cut : Cut chunk observer next records)
    (running : next.terminal = false) :
    kept.flatten ++ observer.pending ++ (chunk :: chunks).flatten =
      (kept ++ records).flatten ++ (next.pending ++ chunks.flatten) := by
  obtain ⟨left, whole, noneLeft⟩ := cut.whole
  obtain rfl := noneLeft running
  rw [List.append_nil] at whole
  rw [List.flatten_cons, List.append_assoc, ← List.append_assoc observer.pending, whole,
    List.flatten_append]
  simp only [List.append_assoc]

/-- What is given on is a prefix of what was kept back, what is pending and what comes. -/
theorem resume_isPrefix (chunks : List (List UInt8)) (state : Running limits observer count kept) :
    (resume limits observer count kept chunks).yielded.flatten <+:
      kept.flatten ++ observer.pending ++ chunks.flatten := by
  refine @resume_induction limits
    (fun observer _ kept chunks emissions => emissions.yielded.flatten <+:
      kept.flatten ++ observer.pending ++ chunks.flatten) ?_ ?_ ?_ ?_ ?_ ?_ chunks observer count
    kept state
  case _ =>
    intro observer count kept state
    rw [resume]
    split
    case isFalse => exact List.nil_prefix
    case isTrue semantic =>
      rw [close]
      cases finished : observer.finish with
      | error failure => exact List.nil_prefix
      | ok result =>
        obtain ⟨last, cut, -⟩ := cut_finish state.goesOn finished
        obtain ⟨left, whole, -⟩ := cut.whole
        rw [List.append_nil] at whole
        show (result.2 ++ []).flatten <+: kept.flatten ++ observer.pending ++ []
        rw [List.append_nil, List.append_nil, state.given semantic, whole, List.append_assoc]
        exact List.prefix_append _ _
  case _ => exact fun _ _ _ _ _ _ _ => List.nil_prefix
  case _ => exact fun _ _ _ _ _ _ _ _ _ => List.nil_prefix
  case _ =>
    intro observer count kept chunk chunks next records _ _ _ cut _
    obtain ⟨left, whole, -⟩ := cut.whole
    show (kept ++ records ++ []).flatten <+: kept.flatten ++ observer.pending ++
        (chunk ++ chunks.flatten)
    rw [List.append_nil, List.flatten_append, List.append_assoc,
      ← List.append_assoc observer.pending, whole]
    simp only [List.append_assoc]
    rw [List.prefix_append_right_inj]
    exact List.prefix_append _ _
  case _ =>
    intro observer count kept chunk chunks next records rest _ _ _ cut running _ isPrefix
    show (kept ++ records ++ rest.yielded).flatten <+: _
    rw [flatten_of_running cut running, List.flatten_append]
    exact (List.prefix_append_right_inj _).mpr isPrefix
  case _ =>
    intro observer count kept chunk chunks next records rest _ _ _ cut still isPrefix
    rw [flatten_of_running cut (cut.quiet_before still).2, ← List.append_assoc]
    exact isPrefix

/-- Whether some records end with the one that stops the message. -/
def EndsMessage (records : List (List UInt8)) : Prop :=
  ∃ front final, records = front ++ [final] ∧ stopsMessage final = true ∧
    ∀ record ∈ front, stopsMessage record = false

theorem EndsMessage.append (ends : EndsMessage records)
    (before : ∀ record ∈ kept, stopsMessage record = false) : EndsMessage (kept ++ records) := by
  obtain ⟨front, final, rfl, stops, others⟩ := ends
  refine ⟨kept ++ front, final, (List.append_assoc _ _ _).symm, stops, ?_⟩
  intro record member
  rcases List.mem_append.mp member with isKept | isFront
  · exact before record isKept
  · exact others record isFront

/-- Where the stream comes to its end, the last record given on stops the message. -/
theorem resume_of_success (chunks : List (List UInt8)) (state : Running limits observer count kept)
    (before : ∀ record ∈ kept, stopsMessage record = false) {usage : SemanticUsage}
    (success : (resume limits observer count kept chunks).outcome = .ok usage) :
    EndsMessage (resume limits observer count kept chunks).yielded := by
  refine @resume_induction limits
    (fun _ _ kept _ emissions => (∀ record ∈ kept, stopsMessage record = false) →
      emissions.outcome = .ok usage → EndsMessage emissions.yielded)
    ?_ ?_ ?_ ?_ ?_ ?_ chunks observer count kept state before success
  case _ =>
    intro observer count kept state _ success
    rw [resume] at success ⊢
    split at success
    case isFalse => cases success
    case isTrue semantic =>
      rw [if_pos semantic]
      rw [close] at success ⊢
      cases finished : observer.finish with
      | error failure =>
        rw [finished] at success
        cases success
      | ok result =>
        obtain ⟨last, cut, stopped⟩ := cut_finish state.goesOn finished
        show EndsMessage (result.2 ++ [])
        rw [List.append_nil]
        exact cut.stops stopped
  case _ => exact fun _ _ _ _ _ _ _ _ success => nomatch success
  case _ => exact fun _ _ _ _ _ _ _ _ _ _ success => nomatch success
  case _ =>
    intro observer count kept chunk chunks next records _ _ _ cut stopped before _
    show EndsMessage (kept ++ records ++ [])
    rw [List.append_nil]
    exact EndsMessage.append (cut.stops stopped) before
  case _ =>
    intro observer count kept chunk chunks next records rest _ _ _ cut running _ ih before success
    have ends : EndsMessage rest.yielded := ih (fun _ member => nomatch member) success
    refine ends.append fun record member => ?_
    rcases List.mem_append.mp member with isKept | isRecord
    · exact before record isKept
    · exact cut.goesOn running record isRecord
  case _ =>
    intro observer count kept chunk chunks next records rest _ _ _ cut still ih before success
    refine ih (fun record member => ?_) success
    rcases List.mem_append.mp member with isKept | isRecord
    · exact before record isKept
    · exact cut.goesOn (cut.quiet_before still).2 record isRecord

/-! ## What the bytes say -/

/-- The bytes one by one, each record given on where it is accepted, up to the observer after
them or where the message has stopped. -/
def readOn (limits : StreamLimits) : NativeMessagesObserver → Nat → List UInt8 →
    Generator (List UInt8) GatewayFailure NativeMessagesObserver
  | observer, _, [] => Generator.pure observer
  | observer, count, byte :: bytes =>
    if Within limits observer count [byte] then
      match observer.consume limits.eventLimitBytes [byte] with
      | .error failure => Generator.throw failure
      | .ok (next, records) =>
        Generator.emit records
          (if next.terminal then Generator.pure next else readOn limits next (count + 1) bytes)
    else Generator.throw invalid

/-- The end of the stream, with the record it completes. -/
def readEnd (observer : NativeMessagesObserver) : Emissions :=
  if observer.semantic then
    match observer.utf8Validator.finish, observer.finishRecord with
    | none, _ => Generator.throw invalid
    | some _, .error failure => Generator.throw failure
    | some _, .ok (_, records) =>
      Generator.emit records (Generator.ofExcept (observer.finish.map Prod.fst))
  else Generator.throw truncated

def acceptedFrom (limits : StreamLimits) (observer : NativeMessagesObserver) (count : Nat)
    (bytes : List UInt8) : Emissions :=
  (readOn limits observer count bytes).bind fun last =>
    if last.terminal then Generator.pure last.usage else readEnd last

/-- The records of a stream that are accepted, and its end, whatever chunks it comes in. -/
def accepted (limits : StreamLimits) (bytes : List UInt8) : Emissions :=
  acceptedFrom limits .initial 0 bytes

/-- The state without the records kept back. -/
theorem Running.alone (state : Running limits observer count kept) :
    Running limits observer count [] :=
  ⟨state.tidy, state.goesOn, fun _ => rfl, state.short⟩

/-- What comes after some bytes that are read. -/
theorem Running.after (state : Running limits observer count [])
    (cut : Cut bytes observer next records) (within : Within limits observer count bytes)
    (running : next.terminal = false) : Running limits next (count + bytes.length) [] := by
  by_cases semantic : next.semantic = true
  · exact state.told cut semantic running
  · exact (state.quiet cut within (Bool.eq_false_iff.mpr semantic)).alone

theorem consume_single (tidy : observer.Tidy) :
    observer.consume limits.eventLimitBytes [byte] = .ok (next, records) ↔
      Reads limits.eventLimitBytes observer [byte] next records :=
  consume_eq_ok tidy (.inl (List.cons_ne_nil _ _))

theorem readOn_of_ok (within : Within limits observer count [byte])
    (consumed : observer.consume limits.eventLimitBytes [byte] = .ok (next, records)) :
    readOn limits observer count (byte :: bytes) =
      Generator.emit records
        (if next.terminal then Generator.pure next else readOn limits next (count + 1) bytes) := by
  rw [readOn, if_pos within, consumed]

theorem readOn_append (bytes more : List UInt8) : ∀ {observer : NativeMessagesObserver}
    {count : Nat}, observer.terminal = false →
      readOn limits observer count (bytes ++ more) =
        (readOn limits observer count bytes).bind fun last =>
          if last.terminal then Generator.pure last
          else readOn limits last (count + bytes.length) more := by
  induction bytes with
  | nil =>
    intro observer count goesOn
    rw [readOn, Generator.pure_bind, if_neg (Bool.eq_false_iff.mp goesOn)]
    rfl
  | cons byte bytes ih =>
    intro observer count goesOn
    have total : count + (byte :: bytes).length = count + 1 + bytes.length := by
      rw [List.length_cons]
      omega
    rw [List.cons_append, total]
    by_cases within : Within limits observer count [byte]
    · cases consumed : observer.consume limits.eventLimitBytes [byte] with
      | error failure =>
        rw [readOn, readOn, if_pos within, if_pos within, consumed]
        rfl
      | ok result =>
        obtain ⟨next, records⟩ := result
        rw [readOn_of_ok within consumed, readOn_of_ok within consumed, Generator.emit_bind]
        by_cases stopped : next.terminal = true
        · rw [if_pos stopped, if_pos stopped, Generator.pure_bind, if_pos stopped]
        · rw [if_neg stopped, if_neg stopped, ih (Bool.eq_false_iff.mpr stopped)]
    · rw [readOn, readOn, if_neg within, if_neg within]
      rfl

theorem acceptedFrom_append (goesOn : observer.terminal = false) (bytes more : List UInt8) :
    acceptedFrom limits observer count (bytes ++ more) =
      (readOn limits observer count bytes).bind fun last =>
        if last.terminal then Generator.pure last.usage
        else acceptedFrom limits last (count + bytes.length) more := by
  rw [acceptedFrom, readOn_append bytes more goesOn, Generator.bind_assoc]
  apply Generator.bind_congr
  intro last _
  by_cases stopped : last.terminal = true
  · rw [if_pos stopped, if_pos stopped, Generator.pure_bind, if_pos stopped]
  · rw [if_neg stopped, if_neg stopped, acceptedFrom]

/-- Bytes that can be read are read one by one. -/
theorem readOn_of_reads (bytes : List UInt8) : ∀ {observer next : NativeMessagesObserver}
    {count : Nat} {records : List (List UInt8)}, Running limits observer count [] →
      Within limits observer count bytes →
      Reads limits.eventLimitBytes observer bytes next records →
      ∃ last, readOn limits observer count bytes = Generator.emit records (Generator.pure last) ∧
        last.terminal = next.terminal ∧ last.usage = next.usage ∧
        (next.terminal = false → last = next) := by
  induction bytes with
  | nil =>
    intro observer next count records _ _ reads
    obtain ⟨rfl, rfl⟩ := reads.of_nil
    exact ⟨next, rfl, rfl, rfl, fun _ => rfl⟩
  | cons byte bytes ih =>
    intro observer next count records state within reads
    rw [← List.singleton_append] at reads
    obtain ⟨middle, first, readsFirst, rest⟩ := reads.split state.goesOn
    have cut := readsFirst.cut state.goesOn
    have withinFirst : Within limits observer count [byte] := within.imp_right fun short => by
      rw [List.length_cons] at short
      rw [List.length_singleton]
      omega
    rw [readOn_of_ok withinFirst ((consume_single state.tidy).mpr readsFirst)]
    rcases rest with ⟨stopped, rfl, stoppedLast, usage⟩ | ⟨running, second, readsRest, rfl⟩
    · refine ⟨middle, by rw [if_pos stopped], stopped.trans stoppedLast.symm, usage.symm, ?_⟩
      intro running
      rw [stoppedLast] at running
      cases running
    · have withinRest : Within limits middle (count + 1) bytes := by
        by_cases semantic : middle.semantic = true
        · exact .inl semantic
        · have quiet := (cut.quiet_before (Bool.eq_false_iff.mpr semantic)).1
          have short := within.resolve_left (Bool.eq_false_iff.mp quiet)
          rw [List.length_cons] at short
          exact .inr (by omega)
      have after : Running limits middle (count + 1) [] := state.after cut withinFirst running
      obtain ⟨last, same, terminal, usage, stays⟩ := ih after withinRest readsRest
      refine ⟨last, ?_, terminal, usage, stays⟩
      rw [if_neg (Bool.eq_false_iff.mp running), same, Generator.emit_emit]

/-- Bytes read one by one without a record are read as a whole. -/
theorem reads_of_readOn (bytes : List UInt8) : ∀ {observer last : NativeMessagesObserver}
    {count : Nat}, Running limits observer count [] →
      (readOn limits observer count bytes).yielded = [] →
      (readOn limits observer count bytes).outcome = .ok last →
      Reads limits.eventLimitBytes observer bytes last [] ∧
        Within limits observer count bytes := by
  induction bytes with
  | nil =>
    intro observer last count state _ ends
    obtain rfl : observer = last := Except.ok.inj ends
    refine ⟨reads_nil, ?_⟩
    by_cases semantic : observer.semantic = true
    · exact .inl semantic
    · exact .inr (state.short (Bool.eq_false_iff.mpr semantic))
  | cons byte bytes ih =>
    intro observer last count state none ends
    by_cases within : Within limits observer count [byte]
    · cases consumed : observer.consume limits.eventLimitBytes [byte] with
      | error failure =>
        rw [readOn, if_pos within, consumed] at ends
        cases ends
      | ok result =>
        obtain ⟨next, records⟩ := result
        rw [readOn_of_ok within consumed] at none ends
        obtain ⟨rfl, noneLater⟩ := List.append_eq_nil_iff.mp none
        have reads := (consume_single state.tidy).mp consumed
        have cut := reads.cut state.goesOn
        obtain ⟨same, running⟩ := cut.quiet rfl
        rw [if_neg (Bool.eq_false_iff.mp running)] at noneLater ends
        have after : Running limits next (count + 1) [] := state.after cut within running
        obtain ⟨readsRest, withinRest⟩ := ih after noneLater ends
        refine ⟨reads.append state.goesOn running readsRest, ?_⟩
        rw [Within, same] at withinRest
        refine withinRest.imp_right fun short => ?_
        rw [List.length_cons]
        omega
    · rw [readOn, if_neg within] at ends
      cases ends

/-- No record that is read one by one is empty. -/
theorem readOn_full (bytes : List UInt8) : ∀ {observer : NativeMessagesObserver} {count : Nat},
    Running limits observer count [] → observer.Filled →
      (∀ record ∈ (readOn limits observer count bytes).yielded, record ≠ []) ∧
        ∀ last, (readOn limits observer count bytes).outcome = .ok last → last.Filled := by
  induction bytes with
  | nil =>
    intro observer count _ filled
    exact ⟨fun _ member => (nomatch member), fun last same => Except.ok.inj same ▸ filled⟩
  | cons byte bytes ih =>
    intro observer count state filled
    by_cases within : Within limits observer count [byte]
    · cases consumed : observer.consume limits.eventLimitBytes [byte] with
      | error failure =>
        rw [readOn, if_pos within, consumed]
        exact ⟨fun _ member => (nomatch member), fun _ same => nomatch same⟩
      | ok result =>
        obtain ⟨next, records⟩ := result
        have reads := (consume_single state.tidy).mp consumed
        obtain ⟨filledNext, full⟩ := reads.full state.tidy filled
        rw [readOn_of_ok within consumed]
        by_cases stopped : next.terminal = true
        · rw [if_pos stopped]
          refine ⟨fun record member => ?_, fun last same => Except.ok.inj same ▸ filledNext⟩
          exact full record ((List.append_nil records) ▸ member)
        · rw [if_neg stopped]
          have running := Bool.eq_false_iff.mpr stopped
          have after : Running limits next (count + 1) [] :=
            state.after (reads.cut state.goesOn) within running
          obtain ⟨fullRest, filledLast⟩ := ih after filledNext
          refine ⟨fun record member => ?_, filledLast⟩
          rcases List.mem_append.mp member with isFirst | isRest
          · exact full record isFirst
          · exact fullRest record isRest
    · rw [readOn, if_neg within]
      exact ⟨fun _ member => (nomatch member), fun _ same => nomatch same⟩

/-! ## Chunks that lose nothing -/

/-- A chunk with the limit on the bytes before the message. -/
def readChunk (limits : StreamLimits) (observer : NativeMessagesObserver) (count : Nat)
    (chunk : List UInt8) : Observed :=
  if Within limits observer count chunk then observer.consume limits.eventLimitBytes chunk
  else .error invalid

/-- Along the run no chunk is empty where a carriage return is held; the chunk in which
reading fails completes no record in front of the place where it fails, and nothing is kept
back then; and the end of the stream, where it is a failure, completes no record. -/
def GivesOn (limits : StreamLimits) : NativeMessagesObserver → Nat → List (List UInt8) →
    List (List UInt8) → Prop
  | observer, _, kept, [] =>
    if observer.semantic then observer.finish.toOption = none → (readEnd observer).yielded = []
    else kept = []
  | observer, count, kept, chunk :: chunks =>
    (chunk = [] → observer.pendingCr = false) ∧
      match readChunk limits observer count chunk with
      | .error failure => kept = [] ∧ readOn limits observer count chunk = Generator.throw failure
      | .ok (next, records) =>
        next.terminal = true ∨
          GivesOn limits next (count + chunk.length) (if next.semantic then [] else kept ++ records)
            chunks

instance decidableGivesOn (limits : StreamLimits) : (observer : NativeMessagesObserver) →
    (count : Nat) → (kept chunks : List (List UInt8)) →
      Decidable (GivesOn limits observer count kept chunks)
  | observer, _, kept, [] => inferInstanceAs (Decidable (if observer.semantic then _ else _))
  | observer, count, kept, chunk :: chunks =>
    match read : readChunk limits observer count chunk with
    | .error failure =>
      decidable_of_iff ((chunk = [] → observer.pendingCr = false) ∧ kept = [] ∧
          readOn limits observer count chunk = Generator.throw failure)
        (by rw [GivesOn, read])
    | .ok (next, records) =>
      have := decidableGivesOn limits next (count + chunk.length)
        (if next.semantic then [] else kept ++ records) chunks
      decidable_of_iff ((chunk = [] → observer.pendingCr = false) ∧ (next.terminal = true ∨
          GivesOn limits next (count + chunk.length)
            (if next.semantic then [] else kept ++ records) chunks))
        (by rw [GivesOn, read])

theorem resume_of_read (read : readChunk limits observer count chunk = .ok (next, records)) :
    resume limits observer count kept (chunk :: chunks) =
      follow limits next (count + chunk.length) (kept ++ records) chunks := by
  unfold readChunk at read
  split at read
  case isTrue within => exact resume_of_ok within read
  case isFalse => cases read

theorem resume_of_unread (unread : readChunk limits observer count chunk = .error failure) :
    resume limits observer count kept (chunk :: chunks) = Generator.throw failure := by
  unfold readChunk at unread
  split at unread
  case isTrue within => exact resume_of_error within unread
  case isFalse long =>
    obtain rfl := Except.error.inj unread
    exact resume_of_long long

/-- A chunk that is read is read byte by byte as well. -/
theorem readOn_of_read (state : Running limits observer count kept)
    (whole : chunk ≠ [] ∨ observer.pendingCr = false)
    (read : readChunk limits observer count chunk = .ok (next, records)) :
    Within limits observer count chunk ∧ Cut chunk observer next records ∧
      ∃ last, readOn limits observer count chunk = Generator.emit records (Generator.pure last) ∧
        last.terminal = next.terminal ∧ last.usage = next.usage ∧
        (next.terminal = false → last = next) := by
  unfold readChunk at read
  split at read
  case isTrue within =>
    have reads := (consume_eq_ok state.tidy whole).mp read
    exact ⟨within, reads.cut state.goesOn, readOn_of_reads chunk state.alone within reads⟩
  case isFalse => cases read

/-- The end of the stream is as it is accepted, but for a record that it completes before it
fails. -/
theorem close_eq_readEnd (semantic : observer.semantic = true)
    (loses : observer.finish.toOption = none → (readEnd observer).yielded = []) :
    close observer = readEnd observer := by
  have ends : (readEnd observer).outcome = observer.finish.map Prod.fst ∧
      ∀ usage records, observer.finish = .ok (usage, records) →
        (readEnd observer).yielded = records := by
    rw [readEnd, if_pos semantic, finish]
    cases observer.utf8Validator.finish with
    | none => exact ⟨rfl, fun _ _ same => nomatch same⟩
    | some text =>
      cases observer.finishRecord with
      | error failure => exact ⟨rfl, fun _ _ same => nomatch same⟩
      | ok result =>
        refine ⟨rfl, fun usage records finished => ?_⟩
        dsimp only at finished
        split at finished
        · cases finished
        · split at finished
          · cases finished
          · split at finished
            · cases finished
            · obtain ⟨-, rfl⟩ := Prod.mk.inj (Except.ok.inj finished)
              exact List.append_nil _
  have whole : readEnd observer = ⟨(readEnd observer).yielded, (readEnd observer).outcome⟩ := rfl
  rw [whole, ends.1, close]
  cases finished : observer.finish with
  | error failure =>
    rw [loses (by rw [finished]; rfl)]
    rfl
  | ok result =>
    obtain ⟨usage, records⟩ := result
    rw [ends.2 usage records finished]
    show Generator.mk (records ++ []) _ = _
    rw [List.append_nil]
    rfl

/-- Where nothing is lost along the run, what is given on is what is accepted. -/
theorem resume_of_givesOn (chunks : List (List UInt8)) : ∀ {observer : NativeMessagesObserver}
    {count : Nat} {kept : List (List UInt8)}, Running limits observer count kept →
      GivesOn limits observer count kept chunks →
      resume limits observer count kept chunks =
        Generator.emit kept (acceptedFrom limits observer count chunks.flatten) := by
  induction chunks with
  | nil =>
    intro observer count kept state gives
    rw [List.flatten_nil, acceptedFrom, readOn, Generator.pure_bind,
      if_neg (Bool.eq_false_iff.mp state.goesOn), resume]
    rw [GivesOn] at gives
    by_cases semantic : observer.semantic = true
    · rw [if_pos semantic] at gives ⊢
      rw [state.given semantic, close_eq_readEnd semantic gives]
      rfl
    · rw [if_neg semantic] at gives ⊢
      rw [gives, readEnd, if_neg semantic]
      rfl
  | cons chunk chunks ih =>
    intro observer count kept state ⟨parts, gives⟩
    have whole : chunk ≠ [] ∨ observer.pendingCr = false := by
      by_cases none : chunk = []
      · exact .inr (parts none)
      · exact .inl none
    rw [List.flatten_cons, acceptedFrom_append state.goesOn]
    cases read : readChunk limits observer count chunk with
    | error failure =>
      rw [read] at gives
      rw [resume_of_unread read, gives.1, gives.2]
      rfl
    | ok result =>
      obtain ⟨next, records⟩ := result
      rw [read] at gives
      obtain ⟨within, cut, last, same, terminal, usage, stays⟩ := readOn_of_read state whole read
      rw [resume_of_read read, same, Generator.emit_bind, Generator.pure_bind, terminal, usage,
        Generator.emit_emit]
      by_cases stopped : next.terminal = true
      · rw [follow_stopped (cut.told stopped) stopped, if_pos stopped]
      · have running := Bool.eq_false_iff.mpr stopped
        have gives := gives.resolve_left stopped
        rw [if_neg stopped, stays running]
        by_cases semantic : next.semantic = true
        · rw [if_pos semantic] at gives
          rw [follow_running semantic running, ih (state.told cut semantic running) gives,
            Generator.emit_nil]
        · rw [if_neg semantic] at gives
          have still := Bool.eq_false_iff.mpr semantic
          rw [follow_quiet still, ih (state.quiet cut within still) gives]

theorem eq_nil_of_flatten (full : ∀ record ∈ records, record ≠ []) (none : records.flatten = []) :
    records = [] := by
  cases records with
  | nil => rfl
  | cons record records =>
    rw [List.flatten_cons] at none
    exact absurd (List.append_eq_nil_iff.mp none).1 (full record List.mem_cons_self)

/-- No record is given on empty at the end of the stream. -/
theorem readEnd_full (filled : observer.Filled) :
    ∀ record ∈ (readEnd observer).yielded, record ≠ [] := by
  intro record member
  unfold readEnd at member
  split at member
  · split at member
    · cases member
    · cases member
    case h_3 records _ finished =>
      have member : record ∈ records ++ [] := member
      rw [List.append_nil] at member
      exact (full_finishRecord filled _ _ finished).2 record member
  · cases member

/-- Bytes of chunks that are not empty, given on as they are accepted, are not lost along the
run. -/
theorem givesOn_of_same (chunks : List (List UInt8)) : ∀ {observer : NativeMessagesObserver}
    {count : Nat} {kept : List (List UInt8)}, Running limits observer count kept →
      observer.Filled → (∀ record ∈ kept, record ≠ []) → [] ∉ chunks →
      (resume limits observer count kept chunks).yielded.flatten =
        (kept ++ (acceptedFrom limits observer count chunks.flatten).yielded).flatten →
      (resume limits observer count kept chunks).outcome =
        (acceptedFrom limits observer count chunks.flatten).outcome →
      GivesOn limits observer count kept chunks := by
  induction chunks with
  | nil =>
    intro observer count kept state filled full _ same _
    rw [List.flatten_nil, acceptedFrom, readOn, Generator.pure_bind,
      if_neg (Bool.eq_false_iff.mp state.goesOn), resume] at same
    rw [GivesOn]
    by_cases semantic : observer.semantic = true
    · rw [if_pos semantic] at same ⊢
      intro failed
      have nothing : (close observer).yielded = [] := by
        rw [close]
        cases finished : observer.finish with
        | error failure => rfl
        | ok result =>
          rw [finished] at failed
          cases failed
      rw [nothing, state.given semantic] at same
      exact eq_nil_of_flatten (readEnd_full filled) same.symm
    · rw [if_neg semantic] at same ⊢
      rw [List.flatten_append] at same
      exact eq_nil_of_flatten full (List.append_eq_nil_iff.mp same.symm).1
  | cons chunk chunks ih =>
    intro observer count kept state filled full noneEmpty same ends
    have nonempty : chunk ≠ [] := fun none => noneEmpty (none ▸ List.mem_cons_self)
    have restNonempty : [] ∉ chunks := fun member => noneEmpty (List.mem_cons_of_mem _ member)
    refine ⟨fun none => absurd none nonempty, ?_⟩
    rw [List.flatten_cons, acceptedFrom_append state.goesOn] at same ends
    obtain ⟨fullRead, filledLast⟩ := readOn_full chunk state.alone filled
    cases read : readChunk limits observer count chunk with
    | error failure =>
      rw [resume_of_unread read] at same ends
      dsimp only
      cases bytes : (readOn limits observer count chunk).outcome with
      | error other =>
        rw [Generator.bind_of_error bytes] at same ends
        obtain rfl : failure = other := Except.error.inj ends
        rw [List.flatten_append] at same
        obtain ⟨noneKept, noneRead⟩ := List.append_eq_nil_iff.mp same.symm
        refine ⟨eq_nil_of_flatten full noneKept, ?_⟩
        have nothing := eq_nil_of_flatten fullRead noneRead
        have whole : readOn limits observer count chunk =
          ⟨(readOn limits observer count chunk).yielded,
            (readOn limits observer count chunk).outcome⟩ := rfl
        rw [whole, nothing, bytes]
        rfl
      | ok last =>
        rw [Generator.bind_of_ok bytes] at same
        have none := (List.append_eq_nil_iff.mp ((List.flatten_append).symm.trans same.symm)).2
        have noneRead := eq_nil_of_flatten fullRead
          (List.append_eq_nil_iff.mp ((List.flatten_append).symm.trans none)).1
        obtain ⟨reads, within⟩ := reads_of_readOn chunk state.alone noneRead bytes
        rw [readChunk, if_pos within,
          (consume_eq_ok state.tidy (.inl nonempty)).mpr reads] at read
        cases read
    | ok result =>
      obtain ⟨next, records⟩ := result
      dsimp only
      obtain ⟨within, cut, last, isRead, terminal, usage, stays⟩ :=
        readOn_of_read state (.inl nonempty) read
      by_cases stopped : next.terminal = true
      · exact .inl stopped
      · have running := Bool.eq_false_iff.mpr stopped
        obtain rfl := stays running
        rw [isRead] at fullRead filledLast
        have fullRecords : ∀ record ∈ records, record ≠ [] := fun record member =>
          fullRead record (List.mem_append_left _ member)
        have filledNext := filledLast last rfl
        rw [resume_of_read read, isRead, Generator.emit_bind, Generator.pure_bind,
          if_neg stopped] at same ends
        refine .inr ?_
        by_cases semantic : last.semantic = true
        · rw [if_pos semantic]
          rw [follow_running semantic running] at same ends
          refine ih (state.told cut semantic running) filledNext (fun _ member => nomatch member)
            restNonempty ?_ ends
          have same : (kept ++ records ++ _).flatten = (kept ++ (records ++ _)).flatten := same
          rw [← List.append_assoc, @List.flatten_append _ (kept ++ records),
            @List.flatten_append _ (kept ++ records), List.append_cancel_left_eq] at same
          exact same
        · rw [if_neg semantic]
          have still := Bool.eq_false_iff.mpr semantic
          rw [follow_quiet still] at same ends
          refine ih (state.quiet cut within still) filledNext ?_ restNonempty ?_ ends
          · intro record member
            rcases List.mem_append.mp member with isKept | isRecord
            · exact full record isKept
            · exact fullRecords record isRecord
          · rw [List.append_assoc]
            exact same

/-- `data:{"type":"message_start"}` and a blank line. -/
def startRecord : List UInt8 :=
  [0x64, 0x61, 0x74, 0x61, 0x3A, 0x7B, 0x22, 0x74, 0x79, 0x70, 0x65, 0x22, 0x3A, 0x22, 0x6D, 0x65,
    0x73, 0x73, 0x61, 0x67, 0x65, 0x5F, 0x73, 0x74, 0x61, 0x72, 0x74, 0x22, 0x7D, 0x0A, 0x0A]

/-- The record `data:{"type":`, `data:"message_stop"}` up to its carriage return. -/
def firstLine : List UInt8 :=
  [0x64, 0x61, 0x74, 0x61, 0x3A, 0x7B, 0x22, 0x74, 0x79, 0x70, 0x65, 0x22, 0x3A, 0x0D]

/-- The rest of it. -/
def secondLine : List UInt8 :=
  [0x0A, 0x64, 0x61, 0x74, 0x61, 0x3A, 0x22, 0x6D, 0x65, 0x73, 0x73, 0x61, 0x67, 0x65, 0x5F, 0x73,
    0x74, 0x6F, 0x70, 0x22, 0x7D, 0x0A, 0x0A]

end GhcGateway.Messages
