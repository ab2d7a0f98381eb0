/-! # What a run needs from its surroundings

A run of the command line reads one file, creates a directory with its parents, writes files,
and prints on two streams. `Host` names these operations, so the run is one definition that
works against the real machine and against a directory kept in memory alike. A failed file
operation is an `IoFault`: its description and the system's error number, printed as
`No such file or directory (os error 2)`.

Paths are text. `parentDir` and `joinPath` compute on that text: the parent of `program.json`
is the empty path, which stands for the working directory, and joining onto the empty path
gives the file name alone.
-/

namespace ImpStack

namespace Cli

/-- A failed file operation: its description and, for a fault the system reports, the
system's error number. -/
structure IoFault where
  text : String
  code : Option Nat
  deriving Repr, Inhabited, DecidableEq

namespace IoFault

/-- A path that names nothing. -/
def notFound : IoFault := ⟨"No such file or directory", some 2⟩

/-- A directory to create that is already a file. -/
def alreadyExists : IoFault := ⟨"File exists", some 17⟩

/-- A path that goes through a file. -/
def notADirectory : IoFault := ⟨"Not a directory", some 20⟩

/-- A file operation on a directory. -/
def isADirectory : IoFault := ⟨"Is a directory", some 21⟩

/-- A chain of directories to create that reaches no existing directory. -/
def incompleteTree : IoFault := ⟨"failed to create whole tree", none⟩

/-- A file whose bytes are not UTF-8 text. -/
def invalidText : IoFault := ⟨"stream did not contain valid UTF-8", none⟩

/-- The text of a fault. -/
def render (f : IoFault) : String :=
  match f.code with
  | some c => f.text ++ " (os error " ++ toString c ++ ")"
  | none => f.text

end IoFault

/-- The operations a run of the command line performs on its surroundings. -/
class Host (m : Type → Type) where
  /-- The whole text of a file. -/
  readFile : String → m (Except IoFault String)
  /-- Creates a directory and any missing parents; an existing directory is fine. -/
  createDirs : String → m (Except IoFault Unit)
  /-- Creates or replaces a file. -/
  writeFile : String → String → m (Except IoFault Unit)
  /-- Prints on the standard output. -/
  printOut : String → m Unit
  /-- Prints on the standard error. -/
  printErr : String → m Unit

/-- The components of a path, each with the number of characters up to its end: the root
(for a path starting with `/`) as `/`, then the names between slashes; empty names and `.`
drop out, except a `.` that starts a relative path. -/
def pathComponents (p : String) : List (String × Nat) :=
  let cs := p.toList
  let absolute := cs.head? == some '/'
  let root := if absolute then [("/", 1)] else []
  let segments := (cs.splitOn '/').map String.ofList
  let (_, _, named) := segments.foldl (fun (acc : Nat × Bool × List (String × Nat)) seg =>
    let (start, first, out) := acc
    let stop := start + seg.length
    let keep := !seg.isEmpty && (seg != "." || (first && !absolute))
    (stop + 1, false, if keep then out ++ [(seg, stop)] else out)) (0, true, [])
  root ++ named

/-- The directory a path lies in: the path up to the end of its second-to-last component, the
empty path for a single name, and none for the root or the empty path. -/
def parentDir (p : String) : Option String :=
  let comps := pathComponents p
  match comps.getLast? with
  | none => none
  | some (last, _) =>
    if last == "/" && comps.length == 1 then none
    else
      match comps.dropLast.getLast? with
      | none => some ""
      | some (_, stop) => some (String.ofList (p.toList.take stop))

/-- A file name placed in a directory: an absolute name stands alone, the empty directory
adds nothing, and a slash separates the two unless the directory ends with one. -/
def joinPath (dir file : String) : String :=
  if file.startsWith "/" then file
  else if dir.isEmpty || dir.endsWith "/" then dir ++ file
  else dir ++ "/" ++ file

end Cli

end ImpStack
