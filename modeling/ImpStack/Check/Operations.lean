import ImpStack.Check.Scope

/-! # Operations on the scopes

The scopes as a client drives them: one operation at a time, each answering something (or
nothing) and leaving the scopes it changed. A routine or type that is already declared, or a
built-in type name, is refused with a `false` answer and changes nothing.
-/

namespace ImpStack

/-- One operation on the scopes, as a client performs it. -/
inductive TableOp where
  | enterScope
  | exitScope
  | clear
  | declareVariable (name : String) (ty : Ty)
  | declareRoutine (name : String) (sig : RoutineSig)
  | defineType (name : String) (ty : Ty)
  | isDefined (name : String)
  | isDefinedInCurrentScope (name : String)
  | getType (name : String)
  | globalType (name : String)
  | getRoutine (name : String)
  | isTypeDefined (name : String)
  | isBuiltinType (name : String)
  | getTypeDefinition (name : String)
  | scopeDepth

/-- What an operation answers. -/
inductive TableAnswer where
  /-- Operations that change the scopes and answer nothing. -/
  | done
  | flag (b : Bool)
  | type (t : Option Ty)
  | routine (sig : Option RoutineSig)
  | depth (n : Nat)

namespace Scopes

/-- What an operation does to the scopes. -/
def perform : TableOp → Scopes → TableAnswer × Scopes
  | .enterScope, s => (.done, s.enter)
  | .exitScope, s => (.done, s.exit)
  | .clear, _ => (.done, empty)
  | .declareVariable n ty, s => (.done, s.declare n ty)
  | .declareRoutine n sig, s =>
    match s.declareRoutine n sig with
    | some s' => (.flag true, s')
    | none => (.flag false, s)
  | .defineType n ty, s =>
    match s.defineType n ty with
    | some s' => (.flag true, s')
    | none => (.flag false, s)
  | .isDefined n, s => (.flag (s.isDefined n), s)
  | .isDefinedInCurrentScope n, s => (.flag (s.isDefinedHere n), s)
  | .getType n, s => (.type (s.typeOf? n), s)
  | .globalType n, s => (.type (s.globalType? n), s)
  | .getRoutine n, s => (.routine (s.routine? n), s)
  | .isTypeDefined n, s => (.flag (s.isTypeDefined n), s)
  | .isBuiltinType n, s => (.flag (isBuiltinName n), s)
  | .getTypeDefinition n, s => (.type (s.typeDef? n), s)
  | .scopeDepth, s => (.depth s.depth, s)

end Scopes

end ImpStack
