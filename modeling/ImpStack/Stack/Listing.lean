import ImpStack.Stack.Code

/-! # The listing of a module

The human-readable text of lowered code: a header with the module's name and counts, each
record layout, the globals, then the initializer and the routines. A routine's header gives
its parameter and result kinds, its local slots and its stack bound; labels stand two spaces
in, instructions four.
-/

namespace ImpStack

/-- The line of one instruction in a routine listing. -/
def Instr.listingLine (i : Instr) : String :=
  match i with
  | .label _ => "  " ++ i.display ++ "\n"
  | _ => "    " ++ i.display ++ "\n"

/-- The listing of a routine. -/
def RoutineCode.listing (r : RoutineCode) : String :=
  "routine " ++ r.name ++ "(" ++ ", ".intercalate (r.params.map ValueKind.display) ++ ") -> " ++
    r.ret.display ++ " [locals " ++ toString r.maxLocals ++ ", stack " ++ toString r.maxStack ++
    "] \x7b\n" ++ String.join (r.code.map Instr.listingLine) ++ "\x7d\n"

/-- The listing of a record layout. -/
def TypeDef.listing (t : TypeDef) : String :=
  "type " ++ t.name ++ " \x7b\n" ++
    String.join (t.fields.map fun (f, k) => "  " ++ f ++ ": " ++ k.display ++ "\n") ++ "\x7d\n\n"

/-- The listing of a module. -/
def Module.listing (m : Module) : String :=
  "; Module: " ++ m.name ++ "\n" ++
  "; Globals: " ++ toString m.globals.length ++ ", Types: " ++ toString m.types.length ++
    ", Routines: " ++ toString m.routines.length ++ "\n\n" ++
  String.join (m.types.map TypeDef.listing) ++
  String.join (m.globals.map fun g => "global " ++ g.name ++ ": " ++ g.kind.display ++ "\n") ++
  (if m.globals.isEmpty then "" else "\n") ++
  String.join ((m.initializer.toList ++ m.routines).map fun r => r.listing ++ "\n")

end ImpStack
