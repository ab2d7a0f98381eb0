import ImpStack.Cli.Run

/-! # The `implc` program

Runs the command line against the real machine: files are read and written where the paths
say, and the two streams are the process's own. Setting `IMPLC_LOG` to anything prints the
library's log lines on the standard error.
-/

namespace ImpStack

namespace Cli

/-- The description of a system error number, as the command line prints it. -/
def systemErrorText (code : Nat) (details : String) : String :=
  match code with
  | 1 => "Operation not permitted"
  | 2 => "No such file or directory"
  | 13 => "Permission denied"
  | 17 => "File exists"
  | 20 => "Not a directory"
  | 21 => "Is a directory"
  | 22 => "Invalid argument"
  | 28 => "No space left on device"
  | 30 => "Read-only file system"
  | 36 => "File name too long"
  | 40 => "Too many levels of symbolic links"
  | _ => details

/-- The fault a failed operation of the machine reports. -/
def faultOf : IO.Error → IoFault
  | .alreadyExists _ c d | .otherError c d | .resourceBusy c d | .resourceVanished c d
  | .unsupportedOperation c d | .hardwareFault c d | .unsatisfiedConstraints c d
  | .illegalOperation c d | .protocolError c d | .timeExpired c d | .interrupted _ c d
  | .noFileOrDirectory _ c d | .invalidArgument _ c d | .permissionDenied _ c d
  | .resourceExhausted _ c d | .inappropriateType _ c d | .noSuchThing _ c d =>
    ⟨systemErrorText c.toNat d, some c.toNat⟩
  | e => ⟨toString e, none⟩

/-- Runs an operation of the machine, catching its failure. -/
def attempt {α : Type} (x : IO α) : IO (Except IoFault α) := do
  try pure (.ok (← x)) catch e => pure (.error (faultOf e))

/-- The real machine. -/
instance : Host IO where
  readFile p := do
    match ← attempt (IO.FS.readBinFile p) with
    | .error f => pure (.error f)
    | .ok bytes =>
      match String.fromUTF8? bytes with
      | some text => pure (.ok text)
      | none => pure (.error IoFault.invalidText)
  createDirs p := if p.isEmpty then pure (.ok ()) else attempt (IO.FS.createDirAll p)
  writeFile p c := attempt (IO.FS.writeFile p c)
  printOut text := do
    let h ← IO.getStdout
    h.putStr text
    h.flush
  printErr text := do
    let h ← IO.getStderr
    h.putStr text
    h.flush

end Cli

end ImpStack

/-- Runs `implc` with the process's arguments and exits with its status. -/
def main (args : List String) : IO UInt32 := do
  let logging := (← IO.getEnv "IMPLC_LOG").isSome
  let code ← ImpStack.Cli.runCommandLine logging args
  pure code.toUInt32
