import ImpStack.Lang.Typing
import ImpStack.Text.Quote
import ImpStack.Number.Decimal

/-! # Stack-machine code

The target of lowering: instructions for a machine with an operand stack and numbered local
slots. Every value has a *kind*, its run-time representation; a real takes two slots (on the
stack and among the locals), nothing takes none, everything else one. A module holds the
program's globals, its record layouts, its routines and the initializer that runs the
top-level statements.

The text of each piece is the one the listing prints: kinds as `int`, `real[]`, `Point`;
constants as the integer, the real in its shortest round-trip form, `true`, or the quoted
string; labels as `L0`.
-/

namespace ImpStack

/-- The run-time representation of a value. -/
inductive ValueKind where
  | int
  | bool
  | real
  | str
  | array (element : ValueKind)
  | record (name : String)
  | void
  deriving DecidableEq, Repr, Inhabited

namespace ValueKind

/-- The kind of a fully resolved type; a name left unresolved has none. -/
def ofResolved : Ty → Except Error ValueKind
  | .prim .integer => .ok .int
  | .prim .real => .ok .real
  | .prim .boolean => .ok .bool
  | .prim .string => .ok .str
  | .prim .void => .ok .void
  | .array e _ => .array <$> ofResolved e
  | .record name _ => .ok (.record name)
  | .named name => .error (.unresolvedType name)

/-- The kind of a type, after resolving it and its array elements; a type that does not
resolve is an error naming it. -/
def of (env : TypeEnv) (t : Ty) : Except Error ValueKind :=
  match t.resolveDeep env with
  | .ok r => ofResolved r
  | .error e => .error (e.orUnresolved t.display)

/-- How many stack or local slots a value takes. -/
def width : ValueKind → Nat
  | .void => 0
  | .real => 2
  | _ => 1

/-- Values that take two slots. -/
def isWide (k : ValueKind) : Bool := k.width == 2

/-- Values that live on the heap. -/
def isReference : ValueKind → Bool
  | .str | .array _ | .record _ => true
  | _ => false

/-- The text of a kind. -/
def display : ValueKind → String
  | .int => "int"
  | .bool => "bool"
  | .real => "real"
  | .str => "str"
  | .array e => e.display ++ "[]"
  | .record name => name
  | .void => "void"

end ValueKind

/-- A constant pushed by an instruction. -/
inductive Constant where
  | int (value : Int)
  | real (value : Float)
  | bool (value : Bool)
  | str (value : String)
  deriving Repr, Inhabited

namespace Constant

/-- The kind of a constant. -/
def kind : Constant → ValueKind
  | .int _ => .int
  | .real _ => .real
  | .bool _ => .bool
  | .str _ => .str

/-- The text of a constant. -/
def display : Constant → String
  | .int n => toString n
  | .real x => Decimal.listingStyle.render x
  | .bool b => if b then "true" else "false"
  | .str s => Quote.debug s

end Constant

/-- A jump target, numbered uniquely within a module. -/
abbrev Label := Nat

/-- The text of a label. -/
def labelText (l : Label) : String := "L" ++ toString l

/-- Arithmetic on the two topmost values. -/
inductive ArithOp where
  | add
  | sub
  | mul
  | div
  | rem
  | xor
  deriving DecidableEq, Repr, Inhabited

/-- The text of an arithmetic operation. -/
def ArithOp.display : ArithOp → String
  | .add => "add"
  | .sub => "sub"
  | .mul => "mul"
  | .div => "div"
  | .rem => "rem"
  | .xor => "xor"

/-- A numeric conversion. -/
inductive Conversion where
  | intToReal
  | realToInt
  deriving DecidableEq, Repr, Inhabited

/-- The text of a conversion. -/
def Conversion.display : Conversion → String
  | .intToReal => "int->real"
  | .realToInt => "real->int"

/-- A branch condition. -/
inductive Condition where
  | eq
  | ne
  | lt
  | le
  | gt
  | ge
  deriving DecidableEq, Repr, Inhabited

/-- The text of a condition. -/
def Condition.display : Condition → String
  | .eq => "eq"
  | .ne => "ne"
  | .lt => "lt"
  | .le => "le"
  | .gt => "gt"
  | .ge => "ge"

/-- An instruction. -/
inductive Instr where
  | push (c : Constant)
  /-- Push a local slot. -/
  | load (slot : Nat) (kind : ValueKind)
  /-- Pop into a local slot. -/
  | store (slot : Nat) (kind : ValueKind)
  | getGlobal (name : String) (kind : ValueKind)
  | putGlobal (name : String) (kind : ValueKind)
  /-- Pop two operands, push the result. -/
  | arith (op : ArithOp) (kind : ValueKind)
  | neg (kind : ValueKind)
  | convert (c : Conversion)
  /-- Pop two operands of `kind`, jump if `left cond right`. -/
  | compareBranch (cond : Condition) (kind : ValueKind) (target : Label)
  /-- Pop an integer, jump if `value cond 0`. -/
  | branchZero (cond : Condition) (target : Label)
  | jump (target : Label)
  | label (l : Label)
  /-- Pop the arguments, push the result unless it is void. -/
  | call (name : String) (params : List ValueKind) (ret : ValueKind)
  /-- Return the top value (nothing for void). -/
  | ret (kind : ValueKind)
  | newRecord (name : String)
  /-- Pop a record, push a field. -/
  | getField (record field : String) (kind : ValueKind)
  /-- Pop a value and a record, store the field. -/
  | putField (record field : String) (kind : ValueKind)
  /-- Pop a size, push a fresh array. -/
  | newArray (element : ValueKind)
  /-- Pop an index and an array, push the element. -/
  | arrayLoad (kind : ValueKind)
  /-- Pop a value, an index and an array, store the element. -/
  | arrayStore (kind : ValueKind)
  | print (kind : ValueKind)
  /-- Duplicate a one-slot top value. -/
  | dup
  | pop (kind : ValueKind)
  deriving Repr, Inhabited

namespace Instr

/-- Stack slots an instruction takes and leaves. -/
def stackEffect : Instr → Nat × Nat
  | .push c => (0, c.kind.width)
  | .load _ k | .getGlobal _ k => (0, k.width)
  | .store _ k | .putGlobal _ k => (k.width, 0)
  | .arith _ k => (2 * k.width, k.width)
  | .neg k => (k.width, k.width)
  | .convert .intToReal => (1, 2)
  | .convert .realToInt => (2, 1)
  | .compareBranch _ k _ => (2 * k.width, 0)
  | .branchZero _ _ => (1, 0)
  | .jump _ | .label _ => (0, 0)
  | .call _ ps r => (ps.foldr (fun k n => k.width + n) 0, r.width)
  | .ret k => (k.width, 0)
  | .newRecord _ => (0, 1)
  | .getField _ _ k => (1, k.width)
  | .putField _ _ k => (1 + k.width, 0)
  | .newArray _ => (1, 1)
  | .arrayLoad k => (2, k.width)
  | .arrayStore k => (2 + k.width, 0)
  | .print k | .pop k => (k.width, 0)
  | .dup => (1, 2)

/-- The text of an instruction. -/
def display : Instr → String
  | .push c => "push " ++ c.display
  | .load s k => "load " ++ toString s ++ ": " ++ k.display
  | .store s k => "store " ++ toString s ++ ": " ++ k.display
  | .getGlobal n k => "getglobal " ++ n ++ ": " ++ k.display
  | .putGlobal n k => "putglobal " ++ n ++ ": " ++ k.display
  | .arith op k => op.display ++ " " ++ k.display
  | .neg k => "neg " ++ k.display
  | .convert c => "convert " ++ c.display
  | .compareBranch c k t => "ifcmp " ++ c.display ++ " " ++ k.display ++ " " ++ labelText t
  | .branchZero c t => "ifz " ++ c.display ++ " " ++ labelText t
  | .jump t => "goto " ++ labelText t
  | .label l => labelText l ++ ":"
  | .call n ps r => "call " ++ n ++ "(" ++ ", ".intercalate (ps.map ValueKind.display) ++ ") -> " ++ r.display
  | .ret k => "ret " ++ k.display
  | .newRecord n => "new " ++ n
  | .getField r f k => "getfield " ++ r ++ "." ++ f ++ ": " ++ k.display
  | .putField r f k => "putfield " ++ r ++ "." ++ f ++ ": " ++ k.display
  | .newArray e => "newarray " ++ e.display
  | .arrayLoad k => "arrayload " ++ k.display
  | .arrayStore k => "arraystore " ++ k.display
  | .print k => "print " ++ k.display
  | .dup => "dup"
  | .pop k => "pop " ++ k.display

end Instr

/-- The deepest the operand stack gets over a straight run of instructions, starting empty.
Paths that meet at a label are not merged, so this may overcount; popping below empty counts
as empty. -/
def maxStackDepth (code : List Instr) : Nat :=
  (code.foldl (fun (depth, best) i =>
    let (pops, pushes) := i.stackEffect
    let d := depth - pops + pushes
    (d, max best d)) (0, 0)).2

/-- A lowered routine. -/
structure RoutineCode where
  name : String
  params : List ValueKind
  ret : ValueKind
  code : List Instr
  /-- Local slots used, parameters included. -/
  maxLocals : Nat
  maxStack : Nat
  deriving Repr, Inhabited

/-- A module-level variable. -/
structure GlobalDef where
  name : String
  kind : ValueKind
  deriving Repr, Inhabited

/-- The layout of a record type. -/
structure TypeDef where
  name : String
  fields : List (String × ValueKind)
  deriving Repr, Inhabited

/-- A whole lowered program. -/
structure Module where
  name : String
  globals : List GlobalDef
  types : List TypeDef
  routines : List RoutineCode
  /-- The global initialization and top-level statements, run once before anything else. -/
  initializer : Option RoutineCode
  deriving Repr, Inhabited

namespace Module

/-- The first routine with the given name; the initializer is not a routine. -/
def routine? (m : Module) (name : String) : Option RoutineCode :=
  m.routines.find? (·.name == name)

/-- The first record layout with the given name. -/
def typeDef? (m : Module) (name : String) : Option TypeDef :=
  m.types.find? (·.name == name)

end Module

end ImpStack
