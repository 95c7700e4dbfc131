/-
# Publishing a prune record

Before a log file is pruned, a record that names it is published: the record is written to
a temporary, which is read again and then renamed. A temporary that cannot be written is
unlinked.
-/

import GhcGateway.Daemon.PruneRecord

namespace GhcGateway.Daemon

open Library LogProgram Stoppable

variable {ν : Type} [LinearOrder ν] [JsNumbers ν]

def pruneStateMaxBytes : Nat := 1024

/-! ## Records on the disk -/

def readPruneStateBytes (filePath : JsString) :
    LogProgram ν (List UInt8 × FileObservation ν) := do
  let before ← assertSafeFile filePath
  require (before.size ≤ JsNumbers.ofNat pruneStateMaxBytes) "log prune state is too large"
  let opened ← fstat filePath
  require (opened.regular && sameFileObservation before opened.observe)
    "log prune state changed during validation"
  let value ← readBytes filePath
  require (value.length = opened.bytes.length) "unable to read complete log prune state"
  let after ← fstat filePath
  let named ← assertSafeFile filePath
  require (sameFileObservation opened.observe after.observe &&
    sameFileObservation after.observe named) "log prune state changed during read"
  pure (value, named)

/-- The loop of `writePruneStateTemporary`. A write that takes nothing ends it, so there
are at most as many writes as bytes. -/
def writeAll (host : LogHost ν) (filePath : JsString) : Nat → List UInt8 → LogProgram ν PUnit
  | _, [] => pure ⟨⟩
  | 0, _ => pure ⟨⟩
  | writes + 1, remaining => do
    let written ← writeSync host filePath remaining
    require (written ≠ 0) "unable to write complete log prune state"
    writeAll host filePath writes (remaining.drop written)

/-- `opened ?? fstatSync(fd)`. -/
def openedOrFstat (filePath : JsString) :
    Option (FileObservation ν) → LogProgram ν (FileObservation ν)
  | some opened => pure opened
  | none => do
    let file ← fstat filePath
    pure file.observe

/-- The `catch` of `writePruneStateTemporary`. `opened` is what has been read off the
descriptor, if it has been. -/
def abandonTemporary {α : Type} (filePath : JsString) (opened : Option (FileObservation ν))
    (error : LogError) : LogProgram ν α := do
  tryCatchThe LogError
    (do
      let named ← assertSafeFile filePath
      let current ← openedOrFstat filePath opened
      if sameFileObservation current named then unlinkPrunePath filePath else pure ⟨⟩)
    fun _ => pure ⟨⟩
  throw error

def writePruneStateTemporary (host : LogHost ν) (filePath : JsString) (encoded : List UInt8) :
    LogProgram ν (FileObservation ν) := do
  openExclusive host filePath
  let opened ← tryCatchThe LogError
    (do
      fchmod host filePath
      writeAll host filePath encoded.length encoded
      fstat filePath)
    (abandonTemporary filePath none)
  tryCatchThe LogError
    (do
      let named ← assertSafeFile filePath
      require (opened.regular && opened.bytes.length = encoded.length &&
        sameFileObservation opened.observe named) "log prune state changed during publication")
    (abandonTemporary filePath (some opened.observe))
  let (value, stat) ← readPruneStateBytes filePath
  require (sameFileObservation opened.observe stat && value = encoded)
    "log prune state changed during validation"
  pure stat

def publishPruneState (host : LogHost ν) (filePath temporaryPath : JsString)
    (state : PruneState ν) : LogProgram ν (FileObservation ν) := do
  require (!(← pathExists filePath)) "log prune state already exists"
  let encoded := encodePruneState state
  require (encoded.length ≤ pruneStateMaxBytes) "log prune state is too large"
  let temporary ← writePruneStateTemporary host temporaryPath encoded
  require (!(← pathExists filePath)) "log prune state appeared during publication"
  rename host temporaryPath filePath
  let published ← assertSafeFile filePath
  require (sameFileAfterRename temporary published) "log prune state changed during publication"
  pure published

end GhcGateway.Daemon
