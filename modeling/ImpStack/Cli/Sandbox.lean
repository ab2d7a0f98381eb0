import ImpStack.Cli.Host

/-! # A directory kept in memory

`Sandbox` is a working directory with its files and subdirectories, and the two output
streams, as values: a run against it is a pure function from the starting directory to the
final one.

A path is followed name by name from the working directory, as the system does: every step
starts from a directory, `.` stays there, `..` goes up, any other name goes down, and a path
ending in `/` asks for a directory. So `a/../program.json` fails when `a` does not exist, and
`program.json/.` fails because a file is no directory. Above the working directory lie
directories that hold nothing but what the run puts there; the listing shows only the files
inside the working directory. The faults are those of the system: a missing
name, a path through a file, an existing name to create, a directory where a file is wanted.
-/

namespace ImpStack

namespace Cli

/-- A working directory and what a run has printed. -/
structure Sandbox where
  /-- Files by the names leading to them, in the order created. -/
  files : List (List String × String) := []
  /-- The subdirectories by the names leading to them. -/
  dirs : List (List String) := []
  out : String := ""
  err : String := ""
  deriving Repr, Inhabited

namespace Sandbox

/-- A place a path leads to, by the names leading there from the working directory; a place
above it starts with `..` steps. -/
abbrev Place := List String

/-- What is at a place: a directory, a file, or nothing. -/
inductive Entry where
  | dir
  | file (contents : String)
  | missing

/-- Whether a place is the working directory or one of the directories above it. -/
def isAncestor (place : Place) : Bool := place.all (· == "..")

/-- The entry at a place; the working directory and the directories above it are
directories. -/
def entry (s : Sandbox) (place : Place) : Entry :=
  if isAncestor place || s.dirs.contains place then .dir
  else
    match s.files.lookup place with
    | some c => .file c
    | none => .missing

/-- The place one name leads to from a directory. -/
def step (place : Place) (n : String) : Place :=
  if n == "." then place
  else if n == ".." then (if isAncestor place then place ++ [".."] else place.dropLast)
  else place ++ [n]

/-- The names of a path, empty ones dropped. -/
def names (p : String) : List String := (p.splitOn "/").filter (!·.isEmpty)

/-- Follows names from a place: each step must start from a directory. Gives the place
reached and its entry. -/
def follow (s : Sandbox) : Place × Entry → List String → Except IoFault (Place × Entry)
  | at_, [] => .ok at_
  | (place, e), n :: rest =>
    match e with
    | .file _ => .error .notADirectory
    | .missing => .error .notFound
    | .dir =>
      let next := step place n
      follow s (next, s.entry next) rest

/-- Follows a path from the working directory. -/
def locate (s : Sandbox) (p : String) : Except IoFault (Place × Entry) :=
  s.follow ([], .dir) (names p)

/-- Follows all but the last name of a path: the directory the last name is looked up in,
and that name (none for a path with no names). -/
def locateParent (s : Sandbox) (p : String) : Except IoFault (Place × Option String) := do
  let ns := names p
  let (place, e) ← s.follow ([], .dir) ns.dropLast
  match e with
  | .dir => pure (place, ns.getLast?)
  | .file _ => throw .notADirectory
  | .missing => throw .notFound

/-- Reads a file. -/
def read (s : Sandbox) (p : String) : Except IoFault String := do
  match (← s.locate p).2 with
  | .dir => throw .isADirectory
  | .file c => if p.endsWith "/" then throw .notADirectory else pure c
  | .missing => throw .notFound

/-- Whether a path leads to a directory. -/
def isDir (s : Sandbox) (p : String) : Bool :=
  match s.locate p with
  | .ok (_, .dir) => true
  | _ => false

/-- Creates one directory, whose parent must exist. -/
def makeDir (s : Sandbox) (p : String) : Except IoFault Sandbox := do
  let (parent, last) ← s.locateParent p
  match last with
  | none => throw .notFound
  | some n =>
    if n == "." || n == ".." then throw .alreadyExists
    let place := step parent n
    match s.entry place with
    | .missing => pure { s with dirs := s.dirs ++ [place] }
    | _ => throw .alreadyExists

/-- Creates a directory and its missing parents: the directory itself is tried first, its
parent (by the text of the path) created when missing, and an existing directory is fine. -/
def makeDirs (s : Sandbox) (p : String) : Except IoFault Sandbox :=
  go (p.length + 1) s p
where
  /-- The creation, with one unit of fuel per character of the path. -/
  go : Nat → Sandbox → String → Except IoFault Sandbox
    | 0, _, _ => .error .incompleteTree
    | fuel + 1, s, p =>
      if p.isEmpty then .ok s
      else
        match s.makeDir p with
        | .ok t => .ok t
        | .error f =>
          if f != .notFound then (if s.isDir p then .ok s else .error f)
          else
            match parentDir p with
            | none => .error .incompleteTree
            | some q => do
              let t ← go fuel s q
              match t.makeDir p with
              | .ok u => pure u
              | .error g => if t.isDir p then pure t else throw g

/-- Creates or replaces a file. -/
def write (s : Sandbox) (p : String) (contents : String) : Except IoFault Sandbox := do
  let (parent, last) ← s.locateParent p
  match last with
  | none => throw .isADirectory
  | some n =>
    if n == "." || n == ".." then throw .isADirectory
    let place := step parent n
    match s.entry place with
    | .dir => throw .isADirectory
    | .file _ =>
      pure { s with files := s.files.map fun (k, c) => if k == place then (k, contents) else (k, c) }
    | .missing =>
      if p.endsWith "/" then throw .isADirectory
      pure { s with files := s.files ++ [(place, contents)] }

/-- The files inside the working directory, as paths with their contents, sorted by path. -/
def listing (s : Sandbox) : List (String × String) :=
  ((s.files.filter fun (n, _) => n.head? != some "..").map fun (n, c) =>
    ("/".intercalate n, c)).mergeSort fun a b => decide (a.1 ≤ b.1)

end Sandbox

/-- A run against a directory kept in memory. -/
instance : Host (StateM Sandbox) where
  readFile p := do pure ((← get).read p)
  createDirs p := do
    match (← get).makeDirs p with
    | .ok t => set t; pure (.ok ())
    | .error f => pure (.error f)
  writeFile p c := do
    match (← get).write p c with
    | .ok t => set t; pure (.ok ())
    | .error f => pure (.error f)
  printOut text := modify fun s => { s with out := s.out ++ text }
  printErr text := modify fun s => { s with err := s.err ++ text }

end Cli

end ImpStack
