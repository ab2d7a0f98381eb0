import ImpStack.Lang.Typing

/-! # Scopes

What the checker knows while it walks a program: variables in nested scopes, and two flat
namespaces, one for routines and one for declared types.

The global scope is always there and never left; entering a scope adds an innermost one and
leaving removes it again. Declaring a variable in a scope replaces an earlier declaration of
the name in that same scope; lookups go from the innermost scope outwards. A routine or a type
is declared at most once; built-in type names can never be declared.
-/

namespace ImpStack

/-- The signature of a declared routine. -/
structure RoutineSig where
  name : String
  params : List Ty
  returnType : Ty
  deriving Repr, Inhabited

/-- Routines that return nothing. -/
def RoutineSig.isVoid (s : RoutineSig) : Bool := s.returnType.isVoid

/-- The variables of one scope. -/
abbrev Frame := List (String × Ty)

/-- Sets a name in a scope, replacing an earlier entry for it. -/
def Frame.set (f : Frame) (name : String) (ty : Ty) : Frame :=
  if f.any (·.1 == name) then f.map fun e => if e.1 == name then (name, ty) else e
  else f ++ [(name, ty)]

/-- Whether a scope declares a name. -/
def Frame.declares (f : Frame) (name : String) : Bool := f.any (·.1 == name)

/-- Variables in scopes, routines and declared types. -/
structure Scopes where
  /-- The global scope. -/
  globals : Frame
  /-- The scopes entered since, innermost first. -/
  locals : List Frame
  routines : List (String × RoutineSig)
  types : List (String × Ty)
  deriving Repr, Inhabited

namespace Scopes

/-- Only the global scope, with nothing declared. -/
def empty : Scopes := ⟨[], [], [], []⟩

/-- How many scopes are open, the global one included. -/
def depth (s : Scopes) : Nat := s.locals.length + 1

/-- Opens an innermost scope. -/
def enter (s : Scopes) : Scopes := { s with locals := [] :: s.locals }

/-- Closes the innermost scope; the global scope stays. -/
def exit (s : Scopes) : Scopes := { s with locals := s.locals.drop 1 }

/-- Declares a variable in the innermost scope. -/
def declare (s : Scopes) (name : String) (ty : Ty) : Scopes :=
  match s.locals with
  | [] => { s with globals := s.globals.set name ty }
  | f :: rest => { s with locals := f.set name ty :: rest }

/-- All scopes, innermost first. -/
def frames (s : Scopes) : List Frame := s.locals ++ [s.globals]

/-- Whether a variable is visible. -/
def isDefined (s : Scopes) (name : String) : Bool := s.frames.any (·.declares name)

/-- Whether the innermost scope declares a variable. -/
def isDefinedHere (s : Scopes) (name : String) : Bool :=
  (s.frames.head?.map (·.declares name)).getD false

/-- The type of a visible variable, innermost declaration first. -/
def typeOf? (s : Scopes) (name : String) : Option Ty :=
  s.frames.findSome? (·.lookup name)

/-- The type of a global variable. -/
def globalType? (s : Scopes) (name : String) : Option Ty := s.globals.lookup name

/-- Declares a routine; a name is declared at most once. -/
def declareRoutine (s : Scopes) (name : String) (sig : RoutineSig) : Option Scopes :=
  if (s.routines.lookup name).isSome then none
  else some { s with routines := s.routines ++ [(name, sig)] }

/-- The signature of a routine. -/
def routine? (s : Scopes) (name : String) : Option RoutineSig := s.routines.lookup name

/-- Whether a type name is built in or declared. -/
def isTypeDefined (s : Scopes) (name : String) : Bool :=
  isBuiltinName name || (s.types.lookup name).isSome

/-- Declares a type; built-in names and names already declared are refused. -/
def defineType (s : Scopes) (name : String) (ty : Ty) : Option Scopes :=
  if s.isTypeDefined name then none else some { s with types := s.types ++ [(name, ty)] }

/-- The definition of a declared type. -/
def typeDef? (s : Scopes) (name : String) : Option Ty := s.types.lookup name

/-- The declared types, as the environment type names are resolved in. -/
def env (s : Scopes) : TypeEnv := s.types

end Scopes

end ImpStack
