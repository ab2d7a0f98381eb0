import ImpStack.Cli.Arguments
import ImpStack.Cli.Host
import ImpStack.Cli.Sandbox
import ImpStack.Compile
import ImpStack.Stack.Listing
import ImpStack.Jvm.Assembly
import ImpStack.Lang.Codec

/-! # Running a command

A run reads the command line, then checks or builds the program file it names, against any
`Host`. What it prints:

* a file that cannot be read or read as a program: `Error: reading <path>: <fault>` or
  `Error: parsing <path>: <reason> at line L column C`, status 1;
* the checker's problems: one `SemanticError: <message>` line each on the standard error, then
  `N error(s) found`, status 1; for `check --json`, a report on the standard output instead;
* a fault of lowering or assembly: `internal compiler error: <message>`, status 1;
* for `build`: the stack code (with `--emit-ir`), or a `Generated <path>` line for each file
  written, in the output directory, which is created first.

With logging on, the library's log lines go to the standard error as the work happens, before
anything the run prints about its outcome.
-/

namespace ImpStack

namespace Cli

variable {m : Type → Type} [Monad m] [Host m]

/-- Prints log lines on the standard error when logging is on. -/
def emitLog (logging : Bool) (log : List LogLine) : m Unit :=
  if logging then log.forM fun l => Host.printErr (l.render ++ "\n") else pure ()

/-- Reports a failure and gives status 1. -/
def fail (message : String) : m Nat := do
  Host.printErr ("Error: " ++ message ++ "\n")
  pure 1

/-- Reports an error of compilation: lowering faults as internal errors. -/
def failWith (e : Error) : m Nat := do
  if e.isInternal then Host.printErr ("internal compiler error: " ++ e.message ++ "\n")
  else Host.printErr ("Error: " ++ e.message ++ "\n")
  pure 1

/-- Prints the checker's problems and their count on the standard error. -/
def printDiagnostics (messages : List String) : m Unit := do
  messages.forM fun msg => Host.printErr ("SemanticError: " ++ msg ++ "\n")
  Host.printErr (toString messages.length ++ " error(s) found\n")

/-- Reads a program file; the error says which step failed, on which path. -/
def readProgram (input : String) : m (Except String Program) := do
  match ← Host.readFile input with
  | .error f => pure (.error ("reading " ++ input ++ ": " ++ f.render))
  | .ok text =>
    match Program.read text with
    | .error e => pure (.error ("parsing " ++ input ++ ": " ++ e.render text.toUTF8))
    | .ok p => pure (.ok p)

/-- The report of `check --json`: the file, whether it is free of problems, and the problems. -/
def checkReport (input : String) (messages : List String) : Json :=
  .object [("file", .string input), ("ok", .bool messages.isEmpty),
    ("diagnostics", .array (messages.map fun msg => .object [("message", .string msg)]))]

/-- Checks a program file. -/
def runCheck (logging : Bool) (input : String) (json : Bool) : m Nat := do
  match ← readProgram input with
  | .error msg => fail msg
  | .ok p =>
    let a := analyze {} p
    emitLog logging a.log
    let messages := a.diagnostics.map Error.message
    if json then Host.printOut ((checkReport input messages).pretty ++ "\n")
    else if messages.isEmpty then Host.printOut ("No errors found in " ++ input ++ "\n")
    else printDiagnostics messages
    pure (if messages.isEmpty then 0 else 1)

/-- Writes the assembled files into a directory, one `Generated` line each; stops at the first
that cannot be written. -/
def writeArtifacts (logging : Bool) (dir : String) : List Artifact → m Nat
  | [] => pure 0
  | a :: rest => do
    let path := joinPath dir a.fileName
    match ← Host.writeFile path a.contents with
    | .error f => fail ("writing " ++ path ++ ": " ++ f.render)
    | .ok () =>
      emitLog logging [⟨.info, .compiler, "wrote " ++ path⟩]
      Host.printOut ("Generated " ++ path ++ "\n")
      writeArtifacts logging dir rest

/-- The compilation options a build asks for. -/
def BuildRequest.options (r : BuildRequest) : CompileOptions :=
  { check := { foldConstants := r.fold, removeUnused := r.prune },
    lower := { className := r.className, alignWide := r.align } }

/-- Builds a program file. -/
def runBuild (logging : Bool) (r : BuildRequest) : m Nat := do
  match ← readProgram r.input with
  | .error msg => fail msg
  | .ok p =>
    let (result, log) := compile r.options p
    emitLog logging log
    match result with
    | .error (.semantic messages) => printDiagnostics messages; pure 1
    | .error e => failWith e
    | .ok module =>
      if r.emitIr then
        Host.printOut module.listing
        pure 0
      else
        let dir := r.output.getD ((parentDir r.input).getD "")
        match ← Host.createDirs dir with
        | .error f => fail ("creating " ++ dir ++ ": " ++ f.render)
        | .ok () =>
          let (asmLog, assembled) := assemble module
          emitLog logging asmLog
          match assembled with
          | .error e => failWith e
          | .ok artifacts => writeArtifacts logging dir artifacts

/-- Runs a command line (the words after the program name) and gives the exit status. -/
def runCommandLine (logging : Bool) (words : List String) : m Nat := do
  match parseCommandLine words with
  | .error r =>
    if !r.out.isEmpty then Host.printOut r.out
    if !r.err.isEmpty then Host.printErr r.err
    pure r.code
  | .ok (.check input json) => runCheck logging input json
  | .ok (.build r) => runBuild logging r

/-- Runs a command line against a directory kept in memory: the exit status and the
directory, with what was printed, after the run. -/
def runInSandbox (logging : Bool) (words : List String) (start : Sandbox) : Nat × Sandbox :=
  (runCommandLine logging words : StateM Sandbox Nat).run start

end Cli

end ImpStack
