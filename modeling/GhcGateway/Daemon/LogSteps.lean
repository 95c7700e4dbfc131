/-
# Steps on the log directory

What each operation needs of the directory, and what it leaves behind. An operation
changes what one name stands for, or two.
-/

import GhcGateway.Daemon.LogPruning
import GhcGateway.Serialization.JsonText

namespace GhcGateway.Daemon

open Library LogProgram Stoppable

variable {ν : Type} {before after : LogDirectory ν} {host : LogHost ν} {value : Option (LogFile ν)}
  {name : JsString}

structure LogFile.Regular (file : LogFile ν) : Prop where
  regular : file.regular = true
  owned : file.owned = true
  mode : file.mode = 0o600
  nlink : file.nlink = 1

/-- One name stands for something else, or for nothing, and the other names stand for what
they stood for. -/
def LogDirectory.Becomes (before : LogDirectory ν) (name : JsString) (value : Option (LogFile ν))
    (after : LogDirectory ν) : Prop :=
  ∀ other, after.files.get other = if other = name then value else before.files.get other

theorem becomes_set (directory : LogDirectory ν) (name : JsString) (file : LogFile ν)
    (operations : Nat) :
    directory.Becomes name (some file) ⟨directory.files.set name file, operations⟩ := by
  intro other
  rw [OrderedMap.get_set]
  by_cases same : name = other
  · rw [if_pos same, if_pos same.symm]
  · rw [if_neg same, if_neg (Ne.symm same)]

theorem becomes_erase (directory : LogDirectory ν) (name : JsString) (operations : Nat) :
    directory.Becomes name none ⟨directory.files.erase name, operations⟩ := by
  intro other
  rw [OrderedMap.get_erase]
  by_cases same : name = other
  · rw [if_pos same, if_pos same.symm]
  · rw [if_neg same, if_neg (Ne.symm same)]

theorem LogDirectory.Becomes.self (becomes : before.Becomes name value after) :
    after.files.get name = value := by
  rw [becomes name, if_pos rfl]

theorem LogDirectory.Becomes.other {other : JsString} (becomes : before.Becomes name value after)
    (apart : other ≠ name) : after.files.get other = before.files.get other := by
  rw [becomes other, if_neg apart]

/-- A name that stands for something else once more. -/
theorem LogDirectory.Becomes.again {middle : LogDirectory ν} {first second : Option (LogFile ν)}
    (becomes : before.Becomes name first middle) (again : middle.Becomes name second after) :
    before.Becomes name second after := by
  intro other
  rw [again other, becomes other]
  split
  · rfl
  · rfl

/-! ## Steps -/

section Steps

variable {invariant : LogDirectory ν → Prop} {directory : LogDirectory ν} {α β : Type}
  {post : β → LogDirectory ν → Prop} {fails : LogError → LogDirectory ν → Prop}
  {name : JsString} {file : LogFile ν}
  {next : PUnit → LogProgram ν β} {condition : Bool} {text : String}

/-- What is read off the directory is known. -/
theorem Carries.read {read : LogDirectory ν → Except LogError α} {value : α}
    {next : α → LogProgram ν β} (reads : read directory = .ok value)
    (rest : Carries invariant (next value) directory post fails) :
    Carries invariant (observe read >>= next) directory post fails := by
  apply (carries_observe reads ⟨rfl, rfl⟩ :
    Carries invariant (observe read) directory (fun got after =>
      got = value ∧ after = directory) fails).bind
  rintro got after ⟨rfl, rfl⟩
  exact rest

/-- A check that succeeds. -/
theorem Carries.checked (holds : condition = true)
    (rest : Carries invariant (next ⟨⟩) directory post fails) :
    Carries invariant (require condition text >>= next) directory post fails := by
  unfold require
  rw [if_pos holds]
  exact rest

/-- A check that does not. -/
theorem Carries.refused (holds : condition = false) (failed : fails (.message text) directory) :
    Carries invariant (require condition text >>= next) directory post fails := by
  unfold require
  rw [holds, if_neg Bool.false_ne_true]
  have threw : Carries invariant (throw (.message text) : LogProgram ν PUnit) directory
      (fun _ _ => False) fails := carries_throw failed
  exact threw.bind fun _ _ never => never.elim

/-- An operation that succeeds. -/
theorem carries_change
    {operation : Nat → OrderedMap JsString (LogFile ν) →
      Except LogError (α × OrderedMap JsString (LogFile ν))}
    {value : α} {files : OrderedMap JsString (LogFile ν)} {post : α → LogDirectory ν → Prop}
    (kept : invariant directory)
    (changes : operation directory.operations directory.files = .ok (value, files))
    (holds : post value ⟨files, directory.operations + 1⟩) :
    Carries invariant (change operation) directory post fails := by
  apply carries_operate kept _ holds
  rw [changes]
  rfl

theorem Carries.exists {next : Bool → LogProgram ν β}
    (rest : Carries invariant (next (directory.files.get name).isSome) directory post fails) :
    Carries invariant (pathExists name >>= next) directory post fails :=
  Carries.read rfl rest

theorem Carries.opened {next : LogFile ν → LogProgram ν β}
    (found : directory.files.get name = some file)
    (rest : Carries invariant (next file) directory post fails) :
    Carries invariant (fstat name >>= next) directory post fails := by
  apply Carries.read _ rest
  rw [found]

theorem Carries.bytes {next : List UInt8 → LogProgram ν β}
    (found : directory.files.get name = some file)
    (rest : Carries invariant (next file.bytes) directory post fails) :
    Carries invariant (readBytes name >>= next) directory post fails := by
  apply Carries.read _ rest
  rw [found]

/-- A file is renamed to a name that stood for nothing. -/
theorem carries_rename {destination : JsString} {post : PUnit → LogDirectory ν → Prop}
    (kept : invariant directory) (found : directory.files.get name = some file)
    (holds : ∀ middle after ctimeMs, directory.Becomes name none middle →
      middle.Becomes destination (some { file with ctimeMs := ctimeMs }) after → post ⟨⟩ after) :
    Carries invariant (rename host name destination) directory post fails := by
  unfold rename
  apply carries_change kept
  · rw [found]
  · exact holds ⟨directory.files.erase name, 0⟩ _ (host.time directory.operations)
      (becomes_erase directory name 0)
      (becomes_set ⟨directory.files.erase name, 0⟩ destination _ _)

theorem carries_unlink {post : PUnit → LogDirectory ν → Prop} (kept : invariant directory)
    (found : directory.files.get name = some file)
    (holds : ∀ after, directory.Becomes name none after → post ⟨⟩ after) :
    Carries invariant (unlinkPrunePath name) directory post fails := by
  unfold unlinkPrunePath
  apply carries_change kept
  · rw [found]
  · exact holds _ (becomes_erase directory name _)

variable [LinearOrder ν] [JsNumbers ν]

theorem Carries.safe {next : FileObservation ν → LogProgram ν β}
    (found : directory.files.get name = some file) (regular : file.Regular)
    (rest : Carries invariant (next file.observe) directory post fails) :
    Carries invariant (assertSafeFile name >>= next) directory post fails := by
  apply Carries.read _ rest
  unfold safeFile checkSafeFile
  rw [found]
  dsimp only
  rw [if_neg (by simp [regular.regular, regular.nlink]), if_neg (by simp [regular.owned]),
    if_neg (by simp [regular.mode])]

end Steps

/-! ## Records on the disk -/

section Records

variable {invariant : LogDirectory ν → Prop} {directory : LogDirectory ν} {β : Type}
  {post : β → LogDirectory ν → Prop} {fails : LogError → LogDirectory ν → Prop}
  {name : JsString} {file : LogFile ν} {encoded : List UInt8}

/-- A file that has been begun: what has been written so far is the start of what is to
be written. -/
structure LogFile.Begins (file : LogFile ν) (encoded : List UInt8) : Prop extends file.Regular where
  started : file.bytes <+: encoded

/-- A write has taken nothing. -/
def Unwritten (host : LogHost ν) (error : LogError) : Prop :=
  error = .message "unable to write complete log prune state" ∧
    ∃ number, host.written number = 0

/-- The writing loop, at every point of which the file has been begun. -/
theorem carries_writeAll
    (kept : ∀ after file, file.Begins encoded → directory.Becomes name (some file) after →
      invariant after) :
    ∀ (writes : Nat) (remaining : List UInt8) (current : LogDirectory ν) (file : LogFile ν),
      remaining.length ≤ writes → file.Regular → file.bytes ++ remaining = encoded →
      directory.Becomes name (some file) current →
      Carries invariant (writeAll host name writes remaining) current
        (fun _ after => ∃ whole : LogFile ν, whole.Regular ∧ whole.bytes = encoded ∧
          directory.Becomes name (some whole) after)
        fun error after => Unwritten host error ∧ ∃ part : LogFile ν, part.Begins encoded ∧
          directory.Becomes name (some part) after := by
  intro writes
  induction writes with
  | zero =>
    intro remaining current file few regular whole becomes
    obtain rfl := List.eq_nil_of_length_eq_zero (Nat.le_zero.mp few)
    rw [List.append_nil] at whole
    exact carries_pure ⟨file, regular, whole, becomes⟩
  | succ writes ih =>
    intro remaining current file few regular whole becomes
    cases remaining with
    | nil =>
      rw [List.append_nil] at whole
      exact carries_pure ⟨file, regular, whole, becomes⟩
    | cons byte rest =>
      have begun : invariant current :=
        kept current file ⟨regular, ⟨byte :: rest, whole⟩⟩ becomes
      have found := becomes.self
      unfold writeAll
      have wrote : Carries invariant (writeSync host name (byte :: rest)) current
          (fun count after => (count = 0 → ∃ number, host.written number = 0) ∧
            ∃ next : LogFile ν, next.Regular ∧
              next.bytes = file.bytes ++ (byte :: rest).take count ∧
              directory.Becomes name (some next) after)
          fun error after => Unwritten host error ∧ ∃ part : LogFile ν, part.Begins encoded ∧
            directory.Becomes name (some part) after := by
        unfold writeSync
        apply carries_change begun
        · rw [found]
        · let count := min (byte :: rest).length (host.written current.operations)
          let next : LogFile ν :=
            { file with
              bytes := file.bytes ++ (byte :: rest).take count
              ctimeMs := host.time current.operations
              mtimeMs := host.time current.operations }
          refine ⟨?_, next, ?_, rfl, ?_⟩
          · intro nothing
            refine ⟨current.operations, ?_⟩
            have : (byte :: rest).length ≠ 0 := Nat.succ_ne_zero _
            omega
          · exact ⟨regular.regular, regular.owned, regular.mode, regular.nlink⟩
          · exact becomes.again (becomes_set current name next _)
      apply wrote.bind
      rintro count after ⟨nothing, next, nextRegular, bytes, nextBecomes⟩
      have shape : next.bytes ++ (byte :: rest).drop count = encoded := by
        rw [bytes, List.append_assoc, List.take_append_drop]
        exact whole
      by_cases taken : count = 0
      · apply Carries.refused (decide_eq_false (not_not.mpr taken))
        exact ⟨⟨rfl, nothing taken⟩, next, ⟨nextRegular, ⟨_, shape⟩⟩, nextBecomes⟩
      · apply Carries.checked (decide_eq_true taken)
        apply ih _ after next _ nextRegular shape nextBecomes
        rw [List.length_drop, List.length_cons]
        rw [List.length_cons] at few
        omega

variable [LinearOrder ν] [JsNumbers ν]

/-- A short file is read. -/
theorem Carries.readBytesOf {next : List UInt8 × FileObservation ν → LogProgram ν β}
    (found : directory.files.get name = some file) (regular : file.Regular)
    (short : file.bytes.length ≤ pruneStateMaxBytes)
    (rest : Carries invariant (next (file.bytes, file.observe)) directory post fails) :
    Carries invariant (readPruneStateBytes name >>= next) directory post fails := by
  have reads : Carries invariant (readPruneStateBytes name) directory
      (fun got after => got = (file.bytes, file.observe) ∧ after = directory) fails := by
    unfold readPruneStateBytes
    apply Carries.safe found regular
    apply Carries.checked (decide_eq_true (JsNumbers.ofNat_mono short))
    apply Carries.opened found
    apply Carries.checked (Bool.and_eq_true_iff.mpr ⟨regular.regular, decide_eq_true rfl⟩)
    apply Carries.bytes found
    apply Carries.checked (decide_eq_true rfl)
    apply Carries.opened found
    apply Carries.safe found regular
    apply Carries.checked (Bool.and_eq_true_iff.mpr ⟨decide_eq_true rfl, decide_eq_true rfl⟩)
    exact carries_pure ⟨rfl, rfl⟩
  apply reads.bind
  rintro got after ⟨rfl, rfl⟩
  exact rest

/-- A temporary is unlinked. -/
theorem carries_abandonTemporary {α : Type} {error : LogError}
    {post : α → LogDirectory ν → Prop} (kept : invariant directory)
    (found : directory.files.get name = some file) (regular : file.Regular)
    (failed : ∀ after, directory.Becomes name none after → fails error after) :
    Carries invariant (abandonTemporary name none error : LogProgram ν α) directory post
      fails := by
  unfold abandonTemporary
  have unlinked : Carries invariant (do
      let named ← assertSafeFile name
      let current ← openedOrFstat name none
      if sameFileObservation current named then unlinkPrunePath name else pure ⟨⟩) directory
      (fun _ after => directory.Becomes name none after) fun _ _ => False := by
    apply Carries.safe found regular
    have observed : Carries invariant (openedOrFstat name none) directory
        (fun got after => got = file.observe ∧ after = directory) fun _ _ => False :=
      Carries.opened found (carries_pure ⟨rfl, rfl⟩)
    apply observed.bind
    rintro got after ⟨rfl, rfl⟩
    have same : sameFileObservation file.observe file.observe = true := decide_eq_true rfl
    rw [if_pos same]
    exact carries_unlink kept found fun after gone => gone
  apply (unlinked.tryCatch fun _ _ never => never.elim).bind
  intro _ after gone
  exact carries_throw (failed after gone)

/-- A temporary is written, or unlinked again. -/
theorem carries_writeTemporary {post : FileObservation ν → LogDirectory ν → Prop}
    (start : invariant directory) (free : directory.files.get name = none)
    (short : encoded.length ≤ pruneStateMaxBytes)
    (kept : ∀ after file, file.Begins encoded → directory.Becomes name (some file) after →
      invariant after) (holds : ∀ after file, file.Regular → file.bytes = encoded →
      directory.Becomes name (some file) after → post file.observe after)
    (failed : ∀ error after, Unwritten host error → directory.Becomes name none after →
      fails error after) :
    Carries invariant (writePruneStateTemporary host name encoded) directory post fails := by
  unfold writePruneStateTemporary
  have created : Carries invariant (openExclusive host name) directory
      (fun _ after => ∃ file : LogFile ν, file.Regular ∧ file.bytes = [] ∧
        directory.Becomes name (some file) after) fails := by
    apply carries_change start
    · rw [if_neg (by rw [OrderedMap.has, free]; exact Bool.false_ne_true)]
    · exact ⟨_, ⟨rfl, rfl, rfl, rfl⟩, rfl, becomes_set directory name _ _⟩
  apply created.bind
  rintro _ current ⟨file, regular, empty, becomes⟩
  have written : Carries invariant (do
      fchmod host name
      writeAll host name encoded.length encoded
      fstat name) current
      (fun opened after => opened.Regular ∧ opened.bytes = encoded ∧
        directory.Becomes name (some opened) after)
      fun error after => Unwritten host error ∧ ∃ part : LogFile ν, part.Begins encoded ∧
        directory.Becomes name (some part) after := by
    have moded : Carries invariant (fchmod host name) current
        (fun _ after => ∃ next : LogFile ν, next.Regular ∧ next.bytes = [] ∧
          directory.Becomes name (some next) after)
        fun error after => Unwritten host error ∧ ∃ part : LogFile ν, part.Begins encoded ∧
          directory.Becomes name (some part) after := by
      unfold fchmod changeFile
      apply carries_change
      · exact kept current file ⟨regular, empty ▸ List.nil_prefix⟩ becomes
      · rw [becomes.self]
      · let next : LogFile ν :=
          { file with mode := 0o600, ctimeMs := host.time current.operations }
        refine ⟨next, ?_, empty, becomes.again (becomes_set current name next _)⟩
        exact ⟨regular.regular, regular.owned, rfl, regular.nlink⟩
    apply moded.bind
    rintro _ after ⟨next, nextRegular, nextEmpty, nextBecomes⟩
    apply (carries_writeAll kept encoded.length encoded after next (Nat.le_refl _) nextRegular
      (by rw [nextEmpty, List.nil_append]) nextBecomes).bind
    rintro _ last ⟨whole, wholeRegular, wholeBytes, wholeBecomes⟩
    exact carries_observe (by rw [wholeBecomes.self]) ⟨wholeRegular, wholeBytes, wholeBecomes⟩
  have attempted : Carries invariant (tryCatchThe LogError (do
      fchmod host name
      writeAll host name encoded.length encoded
      fstat name) (abandonTemporary name none)) current
      (fun opened after => opened.Regular ∧ opened.bytes = encoded ∧
        directory.Becomes name (some opened) after) fails := by
    apply written.tryCatch
    rintro error after ⟨unwritten, part, begins, partBecomes⟩
    apply carries_abandonTemporary (kept after part begins partBecomes) partBecomes.self
      begins.toRegular
    exact fun last gone => failed error last unwritten (partBecomes.again gone)
  apply attempted.bind
  rintro opened after ⟨openedRegular, openedBytes, openedBecomes⟩
  have named : Carries invariant (do
      let named ← assertSafeFile name
      require (opened.regular && opened.bytes.length = encoded.length &&
        sameFileObservation opened.observe named) "log prune state changed during publication")
      after (fun _ last => last = after) fun _ _ => False := by
    apply Carries.safe openedBecomes.self openedRegular
    have same : (opened.regular && opened.bytes.length = encoded.length &&
        sameFileObservation opened.observe opened.observe) = true := by
      rw [openedRegular.regular, openedBytes]
      simp [sameFileObservation]
    unfold require
    rw [if_pos same]
    exact carries_pure rfl
  apply (named.tryCatch fun _ _ never => never.elim).bind
  rintro _ last rfl
  apply Carries.readBytesOf openedBecomes.self openedRegular (openedBytes ▸ short)
  apply Carries.checked
  · rw [openedBytes]
    simp [sameFileObservation]
  · exact carries_pure (holds last opened openedRegular openedBytes openedBecomes)

/-- A record is published: the temporary is written and renamed. -/
theorem carries_publish {temporary : JsString} {state : PruneState ν}
    {post : FileObservation ν → LogDirectory ν → Prop} (start : invariant directory)
    (free : directory.files.get name = none) (freeTemporary : directory.files.get temporary = none)
    (apart : name ≠ temporary) (short : (encodePruneState state).length ≤ pruneStateMaxBytes)
    (kept : ∀ after file, file.Begins (encodePruneState state) →
      directory.Becomes temporary (some file) after → invariant after)
    (holds : ∀ after file, file.Regular → file.bytes = encodePruneState state →
      directory.Becomes name (some file) after → post file.observe after)
    (failed : ∀ error after, Unwritten host error →
      directory.Becomes temporary none after → fails error after) :
    Carries invariant (publishPruneState host name temporary state) directory post fails := by
  unfold publishPruneState
  apply Carries.exists
  apply Carries.checked (by rw [free]; rfl)
  apply Carries.checked (decide_eq_true short)
  have wrote : Carries invariant
      (writePruneStateTemporary host temporary (encodePruneState state)) directory
      (fun observed after => ∃ file : LogFile ν, file.Regular ∧
        file.bytes = encodePruneState state ∧ observed = file.observe ∧
        directory.Becomes temporary (some file) after) fails :=
    carries_writeTemporary start freeTemporary short kept
      (fun after file regular bytes becomes => ⟨file, regular, bytes, rfl, becomes⟩) failed
  apply wrote.bind
  rintro observed after ⟨file, regular, bytes, rfl, becomes⟩
  apply Carries.exists
  apply Carries.checked (by rw [becomes.other apart, free]; rfl)
  have renamed : Carries invariant (rename host temporary name) after
      (fun _ last =>
        ∃ ctimeMs, directory.Becomes name (some { file with ctimeMs := ctimeMs }) last)
      fails := by
    apply carries_rename
    · exact kept after file ⟨regular, bytes ▸ List.prefix_refl _⟩ becomes
    · exact becomes.self
    · intro middle last ctimeMs dropped moved
      refine ⟨ctimeMs, ?_⟩
      intro other
      rw [moved other, dropped other, becomes other]
      split
      · rfl
      · split
        case isTrue same =>
          rw [same, freeTemporary]
        case isFalse => rfl
  apply renamed.bind
  rintro _ last ⟨ctimeMs, published⟩
  have publishedRegular : ({ file with ctimeMs := ctimeMs } : LogFile ν).Regular :=
    ⟨regular.regular, regular.owned, regular.mode, regular.nlink⟩
  apply Carries.safe published.self publishedRegular
  apply Carries.checked
  · simp [sameFileAfterRename, LogFile.observe]
  · exact carries_pure (holds last _ publishedRegular bytes published)

end Records

/-! ## A crash while a record is published -/

section Crashes

variable {ν : Type} [LinearOrder ν] [JsNumbers ν] {name temporary : JsString}
  {state : PruneState ν} {directory : LogDirectory ν}

/-- What a crash leaves behind while a record is published: the other files are what
they were, and the record is not there or is there as a whole. What is left of a
temporary is read as the record or as no record. -/
structure Publishing (name temporary : JsString) (state : PruneState ν)
    (directory stopped : LogDirectory ν) : Prop where
  others : ∀ other, other ≠ name → other ≠ temporary →
    stopped.files.get other = directory.files.get other
  record : stopped.files.get name = none ∨ stopped.files.get temporary = none ∧
    ∃ file, stopped.files.get name = some file ∧ parsePruneState file.bytes = .ok state
  rest : stopped.files.get temporary = none ∨
    ∃ file, stopped.files.get temporary = some file ∧
      (parsePruneStateIfComplete file.bytes = .ok (none : Option (PruneState ν)) ∨
        parsePruneStateIfComplete file.bytes = .ok (some state))

/-- Publishing a record leaves a whole record or none wherever it is stopped. If it
returns, the record is there; it fails only if a write takes nothing, and then the
directory is what it was. -/
theorem publishing_publishPruneState {channel : LogChannel} (host : LogHost ν)
    (free : directory.files.get name = none) (freeTemporary : directory.files.get temporary = none)
    (apart : name ≠ temporary) (isLog : channel.isLogName state.originalName = true)
    (shortName : state.originalName.length ≤ 255)
    (isCandidate : channel.isCandidateName state.candidateName = true) :
    (∀ stopped ∈ (publishPruneState host name temporary state).stops directory,
      Publishing name temporary state directory stopped) ∧
    ((∃ file, ((publishPruneState host name temporary state).run directory).result =
          .ok file.observe ∧
        ((publishPruneState host name temporary state).run directory).final.files.get name =
          some file ∧
        ((publishPruneState host name temporary state).run directory).final.files.get temporary =
          none ∧ parsePruneState file.bytes = .ok state) ∨
      ∃ error, ((publishPruneState host name temporary state).run directory).result =
          .error error ∧ Unwritten host error ∧
        ∀ other,
          ((publishPruneState host name temporary state).run directory).final.files.get other =
            directory.files.get other) := by
  have short : (encodePruneState state).length ≤ pruneStateMaxBytes :=
    length_encodePruneState_le isLog shortName isCandidate
  have carried : Carries (Publishing name temporary state directory)
      (publishPruneState host name temporary state) directory
      (fun observed after => Publishing name temporary state directory after ∧
        ∃ file, observed = file.observe ∧ after.files.get name = some file ∧
          after.files.get temporary = none ∧ parsePruneState file.bytes = .ok state)
      fun error after => Unwritten host error ∧
        ∀ other, after.files.get other = directory.files.get other := by
    refine carries_publish ⟨fun _ _ _ => rfl, .inl free, .inl freeTemporary⟩ free freeTemporary
      apart short ?_ ?_ ?_
    · intro after file begins becomes
      obtain ⟨cut, shape⟩ := begins.started
      refine ⟨fun other _ notTemporary => becomes.other notTemporary, .inl ?_, .inr ?_⟩
      · rw [becomes.other apart, free]
      · exact ⟨file, becomes.self, parsePruneStateIfComplete_cut shape⟩
    · intro after file regular bytes becomes
      have vacant : after.files.get temporary = none := by
        rw [becomes.other (Ne.symm apart), freeTemporary]
      have parsed : parsePruneState file.bytes = .ok state := parsePruneState_text (.inr bytes)
      refine ⟨⟨fun other notName _ => becomes.other notName, .inr ⟨vacant, ?_⟩, .inl vacant⟩, ?_⟩
      · exact ⟨file, becomes.self, parsed⟩
      · exact ⟨file, rfl, becomes.self, vacant, parsed⟩
    · intro error after unwritten becomes
      refine ⟨unwritten, fun other => ?_⟩
      rw [becomes other]
      split
      · next same => rw [same, freeTemporary]
      · rfl
  refine ⟨carried.stops (fun _ _ both => both.1) fun _ _ failed => ?_, ?_⟩
  · have same := failed.2
    exact ⟨fun other _ _ => same other, .inl (by rw [same name, free]),
      .inl (by rw [same temporary, freeTemporary])⟩
  · obtain ⟨-, ⟨observed, returned, -, file, rfl, there, vacant, parsed⟩ | failed⟩ := carried
    · exact .inl ⟨file, returned, there, vacant, parsed⟩
    · exact .inr failed

end Crashes

section Witness

open JsonGrammar

/-- The numbers up to the largest safe integer, and it for the numbers above. -/
abbrev SafeInteger : Type := Fin (2 ^ 53)

/-- JavaScript's texts of the safe integers that are not negative. -/
instance : JsNumbers SafeInteger where
  ofNat number := ⟨min number (2 ^ 53 - 1), by omega⟩
  text number := Nat.toDigits 10 number.val
  read lexeme :=
    let value := digitsValue lexeme
    if inside : value < 2 ^ 53 then some ⟨value, inside⟩ else none
  ofNat_mono := by
    intro first second less
    exact Fin.mk_le_mk.mpr (min_le_min_right _ less)
  number_text number := by
    have whole := Number.mk [] _ [] [] (.inl rfl)
      (integer_toDigits number.val) .none .none
    simpa using whole
  length_text_le number := by
    rw [Nat.length_toDigits_le_iff (by decide) (by decide)]
    exact number.isLt.trans (by decide)
  read_text number := by
    have value : digitsValue (lexemeOf (Nat.toDigits 10 number.val)) =
        number.val := by
      rw [digitsValue_lexemeOf (isDigit_of_toDigits number.val), Nat.ofDigitChars_ten_toDigits]
    simp [value]

theorem publishing_publishPruneState_gateway :
    let rotated : LogFile SafeInteger := ⟨true, true, 0o600, 1, 40, 900, 800, 1, [0x7B, 0x7D, 0x0A]⟩
    let active : LogFile SafeInteger := ⟨true, true, 0o600, 1, 41, 950, 950, 1, []⟩
    let directory : LogDirectory SafeInteger :=
      ⟨(OrderedMap.empty.set (js "gateway.17.0.jsonl") rotated).set (js "gateway.jsonl") active, 0⟩
    let host : LogHost SafeInteger :=
      ⟨fun _ => 1, fun number => 50 + Fin.ofNat _ number, fun number => 1000 + Fin.ofNat _ number,
        fun number => 100 * number⟩
    let state : PruneState SafeInteger :=
      ⟨js "gateway.17.0.jsonl", js ".gateway-prune-01234567-89ab-4def-8123-456789abcdef.jsonl",
        rotated.observe⟩
    let program := publishPruneState host LogChannel.gateway.pruneStatePath
      LogChannel.gateway.pruneStateTempPath state
    (∀ stopped ∈ program.stops directory,
      Publishing LogChannel.gateway.pruneStatePath LogChannel.gateway.pruneStateTempPath state
        directory stopped) ∧
    ((∃ file, (program.run directory).result = .ok file.observe ∧
        (program.run directory).final.files.get LogChannel.gateway.pruneStatePath = some file ∧
        (program.run directory).final.files.get LogChannel.gateway.pruneStateTempPath = none ∧
        parsePruneState file.bytes = .ok state) ∨
      ∃ error, (program.run directory).result = .error error ∧ Unwritten host error ∧
        ∀ other, (program.run directory).final.files.get other = directory.files.get other) := by
  intro rotated active directory host state program
  have isLog : LogChannel.gateway.isLogName state.originalName = true := by decide
  exact publishing_publishPruneState host (by decide) (by decide) (by decide) isLog (by decide)
    (by decide)

end Witness

end GhcGateway.Daemon
