import ImpStack.Cli.Similarity

/-! # The command line

`implc` takes a subcommand: `check <INPUT> [--json]` reports the problems of a program;
`build <INPUT>` compiles it, into the directory of `-o`/`--output` (the input's own by
default), naming the program class after `--class` (`Main` by default); `--emit-ir` prints
the stack code instead, and `--no-fold`, `--keep-unused` and `--no-align` turn off folding,
pruning and the alignment of two-slot locals. `help`, `-h`/`--help` and `-V`/`--version`
print help and the version.

Reading the words follows fixed rules, which decide the texts printed when the words are
wrong:

* a word `--name` or `--name=value` is a long option; `-xyz` is a run of short options, where
  the rest of the run (after an optional `=`) is the value of one that takes a value; a lone
  `-` is an ordinary word, and after `--` every word is;
* an option that takes a value and has none attached takes the next ordinary word;
* a value is checked, and its option counted, only when the next option or input word
  arrives or the words end: an empty path, a missing value and an option given twice are
  found then;
* an unknown option ends the reading at once, offering the most similar known name.

Help and the version go to the standard output with status 0; the others to the standard
error with status 2, in the form `error: <what>`, then tips, then the usage, then a pointer to
`--help`. The usage names, when some arguments were given, those options and the input
rather than `[OPTIONS]`; a flag given a value names, once any argument has been taken, all
of the subcommand's arguments as one group (`<INPUT|--json>`).
-/

namespace ImpStack

namespace Cli

/-- What a run prints and its exit status. -/
structure Reply where
  code : Nat
  out : String := ""
  err : String := ""
  deriving Repr, Inhabited

/-- The name and version line. -/
def versionText : String := "implc 0.1.0\n"

/-- The help of the program itself. -/
def mainHelp : String :=
  "Semantic analyzer and stack-machine code generator\n\n" ++
  "Usage: implc <COMMAND>\n\n" ++
  "Commands:\n" ++
  "  check  Check a program for semantic errors\n" ++
  "  build  Compile a program to Jasmin assembly\n" ++
  "  help   Print this message or the help of the given subcommand(s)\n\n" ++
  "Options:\n" ++
  "  -h, --help     Print help\n" ++
  "  -V, --version  Print version\n"

/-- The help of the `help` subcommand. -/
def helpHelp : String :=
  "Print this message or the help of the given subcommand(s)\n\n" ++
  "Usage: implc help [COMMAND]...\n\n" ++
  "Arguments:\n" ++
  "  [COMMAND]...  Print help for the subcommand(s)\n"

/-- The usage line of the program itself. -/
def mainUsage : String := "implc <COMMAND>"

/-- The closing line of an error that points to the help. -/
def moreInformation : String := "\n\nFor more information, try '--help'.\n"

/-- The tips under an error's first line, each on its own line after a blank one. -/
def tipLines (tips : List String) : String :=
  if tips.isEmpty then "" else "\n" ++ String.join (tips.map ("\n  tip: " ++ ·))

/-- A usage error: its first line, tips, the usage and the pointer to the help. -/
def usageError (what : String) (tips : List String) (usage : String) : Reply :=
  ⟨2, "", "error: " ++ what ++ tipLines tips ++ "\n\nUsage: " ++ usage ++ moreInformation⟩

/-- The error of an argument given no value, or an empty path. -/
def emptyValue (arg : String) : Reply :=
  ⟨2, "", "error: a value is required for '" ++ arg ++ "' but none was supplied" ++
    moreInformation⟩

/-- The error of a word where a subcommand was expected. -/
def unrecognizedSubcommand (word : String) (tips : List String) (usage : String) : Reply :=
  usageError ("unrecognized subcommand '" ++ word ++ "'") tips usage

/-- The tip offering similar subcommands. -/
def similarSubcommands : List String → String
  | [name] => "a similar subcommand exists: '" ++ name ++ "'"
  | names => "some similar subcommands exist: " ++ ", ".intercalate (names.map fun n => "'" ++ n ++ "'")

/-- The tip for passing a word that looks like an option as the input. -/
def asValueTip (word : String) : String :=
  "to pass '" ++ word ++ "' as a value, use '-- " ++ word ++ "'"

/-- An option of a subcommand: a flag, or an option that takes a value. -/
structure Opt where
  long : String
  short : Option Char := none
  /-- The placeholder of the value, for an option that takes one. -/
  value : Option String := none
  /-- A path, which must not be empty. -/
  path : Bool := false
  /-- The option that asks for help. -/
  help : Bool := false
  deriving Repr, Inhabited

/-- The text of an option in messages and usages: its long name and placeholder. -/
def Opt.display (o : Opt) : String :=
  "--" ++ o.long ++ (match o.value with | some v => " <" ++ v ++ ">" | none => "")

/-- The help option every subcommand has. -/
def helpOpt : Opt := { long := "help", short := some 'h', help := true }

/-- A subcommand: its name, help text and options. Each takes one input path. -/
structure Subcommand where
  name : String
  helpText : String
  /-- The options, in the order they are declared, help last. -/
  opts : List Opt
  deriving Repr, Inhabited

/-- The `check` subcommand. -/
def checkCommand : Subcommand where
  name := "check"
  helpText :=
    "Check a program for semantic errors\n\n" ++
    "Usage: implc check [OPTIONS] <INPUT>\n\n" ++
    "Arguments:\n" ++
    "  <INPUT>  Program tree (JSON)\n\n" ++
    "Options:\n" ++
    "      --json  Print diagnostics as a JSON report\n" ++
    "  -h, --help  Print help\n"
  opts := [{ long := "json" }, helpOpt]

/-- The `build` subcommand. -/
def buildCommand : Subcommand where
  name := "build"
  helpText :=
    "Compile a program to Jasmin assembly\n\n" ++
    "Usage: implc build [OPTIONS] <INPUT>\n\n" ++
    "Arguments:\n" ++
    "  <INPUT>  Program tree (JSON)\n\n" ++
    "Options:\n" ++
    "  -o, --output <DIR>   Output directory\n" ++
    "      --class <CLASS>  Name of the generated program class [default: Main]\n" ++
    "      --emit-ir        Print the stack-machine IR instead of writing assembly\n" ++
    "      --no-fold        Do not fold constant expressions\n" ++
    "      --keep-unused    Keep declarations that are never read\n" ++
    "      --no-align       Do not align two-slot locals on even slots\n" ++
    "  -h, --help           Print help\n"
  opts :=
    [{ long := "output", short := some 'o', value := some "DIR", path := true },
     { long := "class", value := some "CLASS" },
     { long := "emit-ir" }, { long := "no-fold" }, { long := "keep-unused" },
     { long := "no-align" }, helpOpt]

/-- The subcommands, in the order the help lists them (`help` apart). -/
def subcommands : List Subcommand := [checkCommand, buildCommand]

/-- The names a subcommand word is compared with. -/
def subcommandNames : List String := ["check", "build", "help"]

/-- The key under which the input is recorded among the given arguments. -/
def inputKey : String := "INPUT"

/-- The text of the input in messages and usages. -/
def inputDisplay : String := "<INPUT>"

namespace Subcommand

/-- The usage with every option folded into `[OPTIONS]`. -/
def fullUsage (sc : Subcommand) : String := "implc " ++ sc.name ++ " [OPTIONS] " ++ inputDisplay

/-- The usage naming every argument of the subcommand as one group: `<INPUT|--json>`. -/
def groupUsage (sc : Subcommand) : String :=
  "implc " ++ sc.name ++ " <" ++
    "|".intercalate ("INPUT" :: (sc.opts.filter (!·.help)).map Opt.display) ++ ">"

/-- The usage naming the given arguments: the options among them, then the input; with none
given, the full usage. -/
def usage (sc : Subcommand) (used : List String) : String :=
  if used.isEmpty then sc.fullUsage
  else
    let named := (used.eraseDups.filterMap fun k => sc.opts.find? (·.long == k)).map Opt.display
    "implc " ++ sc.name ++ String.join (named.map (" " ++ ·)) ++ " " ++ inputDisplay

end Subcommand

/-- Where pending values go: an option that takes a value, or the input. -/
inductive Slot where
  | opt (o : Opt)
  | input
  deriving Repr, Inhabited

namespace Slot

/-- The key a slot is recorded under. -/
def key : Slot → String
  | .opt o => o.long
  | .input => inputKey

/-- The text of a slot in messages. -/
def display : Slot → String
  | .opt o => o.display
  | .input => inputDisplay

/-- Whether a slot holds a path. -/
def isPath : Slot → Bool
  | .opt o => o.path
  | .input => true

end Slot

/-- The reading of a subcommand's words so far. -/
structure Scan where
  /-- The arguments taken, with their values, in the order first taken. -/
  given : List (String × List String) := []
  /-- Values collected for a slot that has not been checked yet. -/
  pending : Option (Slot × List String) := none
  /-- The pending option still waits for its value. -/
  awaiting : Bool := false
  /-- The input word has been seen. -/
  inputSeen : Bool := false
  /-- A `--` has been read: every later word is ordinary. -/
  escaped : Bool := false
  deriving Repr, Inhabited

namespace Scan

/-- Whether an argument has been taken. -/
def has (s : Scan) (key : String) : Bool := s.given.any (·.1 == key)

/-- The keys of the arguments taken, in order. -/
def keys (s : Scan) : List String := s.given.map (·.1)

/-- Checks the pending values and takes their slot: no value, an empty path, or a slot
already taken is an error. -/
def settle (sc : Subcommand) (s : Scan) : Except Reply Scan :=
  match s.pending with
  | none => .ok s
  | some (slot, vals) =>
    let s := { s with pending := none, awaiting := false }
    if vals.isEmpty then .error (emptyValue slot.display)
    else if s.has slot.key then
      .error (usageError ("the argument '" ++ slot.display ++ "' cannot be used multiple times")
        [] sc.fullUsage)
    else if slot.isPath && vals.any (·.isEmpty) then .error (emptyValue slot.display)
    else .ok { s with given := s.given ++ [(slot.key, vals)] }

/-- Settles the pending values when another error is about to be reported: what the check
would have taken is taken, a repeated slot is dropped, and nothing fails. -/
def settleQuietly (s : Scan) : Scan :=
  match s.pending with
  | none => s
  | some (slot, vals) =>
    let s := { s with pending := none, awaiting := false }
    if vals.isEmpty then s
    else if s.has slot.key then { s with given := s.given.filter (·.1 != slot.key) }
    else { s with given := s.given ++ [(slot.key, vals)] }

/-- Takes a flag; the help flag ends the reading with the help. -/
def takeFlag (sc : Subcommand) (s : Scan) (o : Opt) : Except Reply Scan := do
  let s ← settle sc s
  if o.help then throw ⟨0, sc.helpText, ""⟩
  if s.has o.long then
    throw (usageError ("the argument '" ++ o.display ++ "' cannot be used multiple times") []
      sc.fullUsage)
  pure { s with given := s.given ++ [(o.long, [])] }

/-- Takes an option with a value attached to its word. -/
def takeAttached (sc : Subcommand) (s : Scan) (o : Opt) (v : String) : Except Reply Scan := do
  let s ← settle sc s
  settle sc { s with pending := some (.opt o, [v]) }

/-- Opens an option whose value is the next word. -/
def openOption (sc : Subcommand) (s : Scan) (o : Opt) : Except Reply Scan := do
  let s ← settle sc s
  pure { s with pending := some (.opt o, []), awaiting := true }

/-- The error of an unknown long option, offering the most similar one. -/
def unknownLong (sc : Subcommand) (s : Scan) (name : String) : Reply :=
  let s := settleQuietly s
  let word := "--" ++ name
  match Similarity.closest? name (sc.opts.map (·.long)) with
  | some c =>
    let s := if s.has c then s else { s with given := s.given ++ [(c, [])] }
    usageError ("unexpected argument '" ++ word ++ "' found")
      ["a similar argument exists: '--" ++ c ++ "'"] (sc.usage s.keys)
  | none =>
    usageError ("unexpected argument '" ++ word ++ "' found")
      (if s.escaped then [] else [asValueTip word]) (sc.usage s.keys)

/-- Reads a long option word, `name` or `name=value` after the dashes. -/
def long (sc : Subcommand) (s : Scan) (body : String) : Except Reply Scan :=
  let (name, value) := match body.splitOn "=" with
    | [n] => (n, none)
    | n :: rest => (n, some ("=".intercalate rest))
    | [] => (body, none)
  match sc.opts.find? (·.long == name) with
  | none => .error (unknownLong sc s name)
  | some o =>
    match o.value, value with
    | some _, some v => takeAttached sc s o v
    | some _, none => openOption sc s o
    | none, some v =>
      let usage := if s.given.isEmpty then sc.usage [o.long] else sc.groupUsage
      .error (usageError ("unexpected value '" ++ v ++ "' for '" ++ o.display ++
        "' found; no more were expected") [] usage)
    | none, none => takeFlag sc s o

/-- Reads the characters of a run of short options. -/
def shorts (sc : Subcommand) (s : Scan) : List Char → Except Reply Scan
  | [] => .ok s
  | c :: rest =>
    match sc.opts.find? (·.short == some c) with
    | none =>
      let s := settleQuietly s
      let word := "-" ++ c.toString
      .error (usageError ("unexpected argument '" ++ word ++ "' found")
        (if s.escaped then [] else [asValueTip word]) sc.fullUsage)
    | some o =>
      match o.value with
      | none => do shorts sc (← takeFlag sc s o) rest
      | some _ =>
        match rest with
        | [] => openOption sc s o
        | '=' :: v => takeAttached sc s o (String.ofList v)
        | v => takeAttached sc s o (String.ofList v)

/-- Reads an ordinary word: the value of the option waiting for one, else the input. -/
def ordinary (sc : Subcommand) (s : Scan) (word : String) : Except Reply Scan :=
  match s.pending with
  | some (slot, vals) =>
    if s.awaiting && !s.escaped then
      .ok { s with pending := some (slot, vals ++ [word]), awaiting := false }
    else input sc s word
  | none => input sc s word
where
  /-- Takes the word as the input, or refuses a second one. -/
  input (sc : Subcommand) (s : Scan) (word : String) : Except Reply Scan :=
    if s.inputSeen then
      .error (usageError ("unexpected argument '" ++ word ++ "' found") [] sc.fullUsage)
    else do
      let s ← settle sc s
      pure { s with pending := some (.input, [word]), inputSeen := true }

/-- Reads one word. -/
def word (sc : Subcommand) (s : Scan) (w : String) : Except Reply Scan :=
  if s.escaped then ordinary sc s w
  else if w == "--" then .ok { s with escaped := true }
  else if w.startsWith "--" then long sc s (w.drop 2).toString
  else if w.startsWith "-" && w != "-" then shorts sc s (w.drop 1).toString.toList
  else ordinary sc s w

/-- Reads all words, then settles the last values and requires the input. -/
def run (sc : Subcommand) (words : List String) : Except Reply Scan := do
  let s ← words.foldlM (word sc) {}
  let s ← settle sc s
  if s.has inputKey then pure s
  else
    throw (usageError ("the following required arguments were not provided:\n  " ++
      inputDisplay) [] (sc.usage (s.keys ++ [inputKey])))

/-- The single value of an argument, if it was given. -/
def value? (s : Scan) (key : String) : Option String :=
  (s.given.find? (·.1 == key)).bind (·.2.head?)

end Scan

/-- What a `build` asks for. -/
structure BuildRequest where
  input : String
  output : Option String
  className : String
  emitIr : Bool
  fold : Bool
  prune : Bool
  align : Bool
  deriving Repr, Inhabited

/-- What the command line asks to do. -/
inductive Command where
  | check (input : String) (json : Bool)
  | build (request : BuildRequest)
  deriving Repr, Inhabited

/-- The command a subcommand's reading describes. -/
def Command.ofScan (sc : Subcommand) (s : Scan) : Command :=
  let input := (s.value? inputKey).getD ""
  if sc.name == "check" then .check input (s.has "json")
  else
    .build { input, output := s.value? "output", className := (s.value? "class").getD "Main",
             emitIr := s.has "emit-ir", fold := !s.has "no-fold",
             prune := !s.has "keep-unused", align := !s.has "no-align" }

/-- The help that `help` followed by words asks for. -/
def helpFor : List String → Reply
  | [] => ⟨0, mainHelp, ""⟩
  | w :: rest =>
    match subcommands.find? (·.name == w) with
    | some sc =>
      match rest with
      | [] => ⟨0, sc.helpText, ""⟩
      | x :: _ => unrecognizedSubcommand x [] sc.fullUsage
    | none =>
      if w == "help" then
        match rest with
        | [] => ⟨0, helpHelp, ""⟩
        | x :: _ =>
          ⟨2, "", "error: unrecognized subcommand '" ++ x ++ "'\n\nUsage: implc help [COMMAND]...\n"⟩
      else unrecognizedSubcommand w [] mainUsage

/-- The error of an unknown long option before the subcommand: a similar top-level option is
offered, else a similar option of a subcommand named later on the line. -/
def unknownMainLong (name : String) (later : List String) : Reply :=
  let word := "--" ++ name
  let what := "unexpected argument '" ++ word ++ "' found"
  match Similarity.closest? name ["help", "version"] with
  | some c =>
    usageError what ["a similar argument exists: '--" ++ c ++ "'"]
      ("implc --" ++ c ++ " <COMMAND>")
  | none =>
    let offers := subcommands.filterMap fun sc =>
      match Similarity.closest? name (sc.opts.map (·.long)), later.idxOf? sc.name with
      | some c, some i => some (i, sc.name ++ " --" ++ c)
      | _, _ => none
    let best := offers.foldl (fun acc o =>
      match acc with
      | some a => if o.1 < a.1 then some o else some a
      | none => some o) none
    match best with
    | some (_, offer) => usageError what ["'" ++ offer ++ "' exists"] mainUsage
    | none => usageError what [] mainUsage

/-- Reads the words before the subcommand, then hands the rest to it. `escaped` records a
`--` already read. -/
def parseMain (escaped : Bool) : List String → Except Reply Command
  | [] => .error ⟨2, "", mainHelp⟩
  | w :: rest =>
    if !escaped && w == "help" then .error (helpFor rest)
    else if !escaped && (subcommands.any (·.name == w)) then
      let sc := (subcommands.find? (·.name == w)).getD checkCommand
      Command.ofScan sc <$> Scan.run sc rest
    else if !escaped && w == "--" then parseMain true rest
    else if !escaped && w.startsWith "--" then
      let body := (w.drop 2).toString
      match body.splitOn "=" with
      | [n] =>
        if n == "help" then .error ⟨0, mainHelp, ""⟩
        else if n == "version" then .error ⟨0, versionText, ""⟩
        else .error (unknownMainLong n rest)
      | n :: vs =>
        if n == "help" || n == "version" then
          .error (usageError ("unexpected value '" ++ "=".intercalate vs ++ "' for '--" ++ n ++
            "' found; no more were expected") [] ("implc --" ++ n ++ " <COMMAND>"))
        else .error (unknownMainLong n rest)
      | [] => .error (unknownMainLong body rest)
    else if !escaped && w.startsWith "-" && w != "-" then
      match (w.drop 1).toString.toList with
      | 'h' :: _ => .error ⟨0, mainHelp, ""⟩
      | 'V' :: _ => .error ⟨0, versionText, ""⟩
      | c :: _ => .error (usageError ("unexpected argument '-" ++ c.toString ++ "' found") []
          mainUsage)
      | [] => .error (unrecognizedSubcommand w [] mainUsage)
    else if escaped && subcommandNames.contains w then
      .error (usageError ("unexpected argument '" ++ w ++ "' found")
        ["subcommand '" ++ w ++ "' exists; to use it, remove the '--' before it"] mainUsage)
    else
      match Similarity.similar w subcommandNames with
      | [] => .error (unrecognizedSubcommand w [] mainUsage)
      | names => .error (unrecognizedSubcommand w [similarSubcommands names] mainUsage)

/-- Reads a command line (the words after the program name): the command to run, or what to
print and the status to exit with. -/
def parseCommandLine (words : List String) : Except Reply Command := parseMain false words

end Cli

end ImpStack
