/-
# The log directory

What the logger sees of its directory: names, and behind each a file with its metadata
and its bytes. A program of the logger may be stopped between any two operations on the
directory. Paths are names in the directory, and a descriptor stands for the name it was
opened under, since no name changes while one is open. Flushing changes neither names
nor bytes and is left out. The platform is not Windows.

The host answers what the directory does not determine: the identity of new files, the
time of each operation, and how much of a buffer a write takes. Its answers are numbered
by the operations.
-/

import Mathlib.Order.Lattice
import GhcGateway.Library.CrashRun
import GhcGateway.Library.OrderedMap
import GhcGateway.Serialization.JsonGrammar

namespace GhcGateway.Daemon

open Library

/-- JavaScript's finite numbers: the number of a natural number, the text that
`JSON.stringify` writes, which has at most 25 characters, and the number that `JSON.parse`
reads. -/
class JsNumbers (ν : Type) [LinearOrder ν] where
  ofNat : Nat → ν
  text : ν → List Char
  read : JsString → Option ν
  ofNat_mono : ∀ {first second : Nat}, first ≤ second → ofNat first ≤ ofNat second
  number_text : ∀ number, JsonGrammar.Number (text number)
  length_text_le : ∀ number, (text number).length ≤ 25
  read_text : ∀ number, read (JsonGrammar.lexemeOf (text number)) = some number

inductive LogChannel
  | gateway
  | diagnostics

def LogChannel.text : LogChannel → JsString
  | .gateway => js "gateway"
  | .diagnostics => js "diagnostics"

/-! ## Names -/

/-- A digit or a letter from `a` to `f`. -/
def isHexUnit (unit : UInt16) : Bool :=
  (0x30 ≤ unit && unit ≤ 0x39) || (0x61 ≤ unit && unit ≤ 0x66)

/-- What stands at an index of an identifier. -/
def isUuidUnit (index : Nat) (unit : UInt16) : Bool :=
  if index = 8 ∨ index = 13 ∨ index = 18 ∨ index = 23 then unit = 0x2D
  else if index = 14 then unit = 0x34
  else if index = 19 then unit = 0x38 || unit = 0x39 || unit = 0x61 || unit = 0x62
  else isHexUnit unit

/-- `[0-9a-f]{8}-[0-9a-f]{4}-4[0-9a-f]{3}-[89ab][0-9a-f]{3}-[0-9a-f]{12}`. -/
def isUuid (text : JsString) : Bool :=
  text.length = 36 && text.zipIdx.all fun place => isUuidUnit place.2 place.1

def isDigitUnit (unit : UInt16) : Bool := 0x30 ≤ unit && unit ≤ 0x39

namespace LogChannel

variable (channel : LogChannel)

def activeFile : JsString := channel.text ++ js ".jsonl"

def pruneStatePath : JsString := js "." ++ channel.text ++ js "-prune-state.json"

def pruneStateTempPath : JsString := js "." ++ channel.text ++ js "-prune-state.json.tmp"

/-- What the names of quarantined files start with. -/
def candidateStart : JsString := js "." ++ channel.text ++ js "-prune-"

/-- The name of a rotated log: the channel and two numbers. -/
def isRotatedName (name : JsString) : Bool :=
  let start := channel.text ++ js "."
  let rest := name.drop start.length
  let afterFirst := rest.dropWhile isDigitUnit
  let second := afterFirst.drop 1
  start.isPrefixOf name && (rest.takeWhile isDigitUnit) ≠ [] && afterFirst.head? = some 0x2E &&
    (second.takeWhile isDigitUnit) ≠ [] && second.dropWhile isDigitUnit = js ".jsonl"

/-- The pattern of `assertPruneOriginalName`. -/
def isLogName (name : JsString) : Bool := name = channel.activeFile || channel.isRotatedName name

/-- The pattern of `assertPruneCandidateName`. -/
def isCandidateName (name : JsString) : Bool :=
  let rest := name.drop channel.candidateStart.length
  channel.candidateStart.isPrefixOf name && isUuid (rest.take 36) && rest.drop 36 = js ".jsonl"

end LogChannel

/-! ## Files -/

variable {ν : Type} [LinearOrder ν] [JsNumbers ν]

structure FileObservation (ν : Type) where
  dev : ν
  ino : ν
  ctimeMs : ν
  mtimeMs : ν
  size : ν
  nlink : ν
  deriving DecidableEq

/-- A file. `regular` is that it is a regular file and no link, `owned` that it is the
user's. -/
structure LogFile (ν : Type) where
  regular : Bool
  owned : Bool
  mode : Nat
  dev : ν
  ino : ν
  ctimeMs : ν
  mtimeMs : ν
  nlink : Nat
  bytes : List UInt8

def LogFile.observe (file : LogFile ν) : FileObservation ν where
  dev := file.dev
  ino := file.ino
  ctimeMs := file.ctimeMs
  mtimeMs := file.mtimeMs
  size := JsNumbers.ofNat file.bytes.length
  nlink := JsNumbers.ofNat file.nlink

/-- `sameFileObservation` and `matchesObservation`. -/
def sameFileObservation (left right : FileObservation ν) : Bool := left = right

/-- `sameFileAfterRename`, `matchesAfterRename` and `matchesAfterRenameObservation`. -/
def sameFileAfterRename (left right : FileObservation ν) : Bool :=
  left.dev = right.dev && left.ino = right.ino && left.mtimeMs = right.mtimeMs &&
    left.size = right.size && left.nlink = right.nlink

/-! ## Operations -/

/-- What a program of the logger may throw. -/
inductive LogError
  | syntaxError
  | notFound
  | alreadyExists
  | message (text : String)
  deriving DecidableEq

/-- The directory, with the number of operations so far. -/
structure LogDirectory (ν : Type) where
  files : OrderedMap JsString (LogFile ν)
  operations : Nat

/-- The answers of the host. A write takes as many bytes as `written` says, or all that
are left. -/
structure LogHost (ν : Type) where
  dev : Nat → ν
  ino : Nat → ν
  time : Nat → ν
  written : Nat → Nat

abbrev LogProgram (ν α : Type) := Stoppable (LogDirectory ν) LogError α

namespace LogProgram

open Stoppable

/-- An operation on the files, given its number. -/
def change {α : Type}
    (operation : Nat → OrderedMap JsString (LogFile ν) →
      Except LogError (α × OrderedMap JsString (LogFile ν))) : LogProgram ν α :=
  operate fun directory =>
    (operation directory.operations directory.files).map fun done =>
      (done.1, ⟨done.2, directory.operations + 1⟩)

def pathExists (name : JsString) : LogProgram ν Bool :=
  observe fun directory => .ok (directory.files.has name)

/-- `fstatSync`, and what `lstatSync` finds. -/
def fstat (name : JsString) : LogProgram ν (LogFile ν) :=
  observe fun directory =>
    match directory.files.get name with
    | none => .error .notFound
    | some file => .ok file

/-- The checks of `assertSafeFile`. -/
def checkSafeFile (file : LogFile ν) : Except LogError (FileObservation ν) :=
  if file.regular = false ∨ file.nlink ≠ 1 then .error (.message "log path must be a regular file")
  else if file.owned = false then .error (.message "log path must be owned by the current user")
  else if file.mode ≠ 0o600 then .error (.message "log file permissions must be 0600")
  else .ok file.observe

/-- What `assertSafeFile` finds in a directory. -/
def safeFile (directory : LogDirectory ν) (name : JsString) :
    Except LogError (FileObservation ν) :=
  match directory.files.get name with
  | none => .error .notFound
  | some file => checkSafeFile file

def assertSafeFile (name : JsString) : LogProgram ν (FileObservation ν) :=
  observe fun directory => safeFile directory name

def readBytes (name : JsString) : LogProgram ν (List UInt8) :=
  observe fun directory =>
    match directory.files.get name with
    | none => .error .notFound
    | some file => .ok file.bytes

variable (host : LogHost ν)

/-- `openSync` with `O_CREAT` and `O_EXCL`. -/
def openExclusive (name : JsString) : LogProgram ν PUnit :=
  change fun number files =>
    if files.has name then .error .alreadyExists
    else .ok (⟨⟩, files.set name
      { regular := true
        owned := true
        mode := 0o600
        dev := host.dev number
        ino := host.ino number
        ctimeMs := host.time number
        mtimeMs := host.time number
        nlink := 1
        bytes := [] })

def changeFile (name : JsString) (update : Nat → LogFile ν → LogFile ν) : LogProgram ν PUnit :=
  change fun number files =>
    match files.get name with
    | none => .error .notFound
    | some file => .ok (⟨⟩, files.set name (update number file))

/-- `fchmodSync` to `0600`. -/
def fchmod (name : JsString) : LogProgram ν PUnit :=
  changeFile name fun number file => { file with mode := 0o600, ctimeMs := host.time number }

/-- `writeSync` at the end of the file. It returns how many bytes it has taken. -/
def writeSync (name : JsString) (bytes : List UInt8) : LogProgram ν Nat :=
  change fun number files =>
    match files.get name with
    | none => .error .notFound
    | some file =>
      let count := min bytes.length (host.written number)
      .ok (count, files.set name
        { file with
          bytes := file.bytes ++ bytes.take count
          ctimeMs := host.time number
          mtimeMs := host.time number })

/-- `renamePrunePath`, and `renameSync` with the flush after it. -/
def rename (source destination : JsString) : LogProgram ν PUnit :=
  change fun number files =>
    match files.get source with
    | none => .error .notFound
    | some file =>
      .ok (⟨⟩, (files.erase source).set destination { file with ctimeMs := host.time number })

def unlinkPrunePath (name : JsString) : LogProgram ν PUnit :=
  change fun _ files =>
    match files.get name with
    | none => .error .notFound
    | some _ => .ok (⟨⟩, files.erase name)

/-- An error, if a check fails. -/
def require (condition : Bool) (text : String) : LogProgram ν PUnit :=
  if condition then pure ⟨⟩ else throw (.message text)

end LogProgram

end GhcGateway.Daemon
