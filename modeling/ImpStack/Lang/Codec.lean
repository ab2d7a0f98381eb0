import ImpStack.Lang.Syntax
import ImpStack.Json.Schema

/-! # The JSON form of programs

Programs, statements, expressions, types and operators are exchanged as JSON. A choice among
constructors is written as an object of one member whose key is the constructor's tag, or as
the bare tag when the constructor carries nothing; a constructor with named parts carries an
object (or an array in field order); one with a single part carries that part itself.

`Form` names the shapes, `Form.layout` spells each one out as a schema slot, and the readers
here check a text against it (with the schema's exact fault messages) before building the
tree. The writers produce the same form, with absent optional parts written as `null` and
doubles in their shortest round-trip text.
-/

namespace ImpStack

open Json

/-- The shapes of the JSON form that refer to one another. -/
inductive Form where
  | program
  | stmt
  | expr
  | ty
  | prim
  | target
  | param
  | varDecl
  | routineDecl
  | routineCall
  | binOp
  | unOp
  deriving DecidableEq, Repr

/-- The tag of a scalar type. -/
def Prim.tag : Prim → String
  | .integer => "Integer"
  | .real => "Real"
  | .boolean => "Boolean"
  | .string => "String"
  | .void => "Void"

/-- All scalar types. -/
def Prim.all : List Prim := [.integer, .real, .boolean, .string, .void]

/-- The fields of a record type as written: a list of name and type pairs. -/
def fieldListSlot : Slot Form := .list (.pair .string (.named .ty))

/-- A list of statements. -/
def stmtListSlot : Slot Form := .list (.named .stmt)

/-- What each shape must be. -/
def Form.layout : Form → Slot Form
  | .program => .record "struct Program" [("statements", stmtListSlot)]
  | .prim => .choice (Prim.all.map fun p => (p.tag, none))
  | .ty => .choice [
      ("Primitive", some (.named .prim)),
      ("Array", some (.record "struct variant Type::Array"
        [("element", .named .ty), ("size", .int64)])),
      ("Record", some (.record "struct variant Type::Record"
        [("name", .string), ("fields", fieldListSlot)])),
      ("Named", some .string)]
  | .stmt => .choice [
      ("VarDecl", some (.named .varDecl)),
      ("ArrayDecl", some (.record "struct variant Stmt::ArrayDecl"
        [("name", .string), ("element", .named .ty), ("size", .int64)])),
      ("Assignment", some (.record "struct variant Stmt::Assignment"
        [("target", .named .target), ("value", .named .expr)])),
      ("If", some (.record "struct variant Stmt::If"
        [("cond", .named .expr), ("then_branch", stmtListSlot), ("else_branch", stmtListSlot)])),
      ("While", some (.record "struct variant Stmt::While"
        [("cond", .named .expr), ("body", stmtListSlot)])),
      ("For", some (.record "struct variant Stmt::For"
        [("var", .string), ("start", .named .expr), ("end", .named .expr),
         ("reverse", .boolean), ("body", stmtListSlot)])),
      ("RoutineDecl", some (.named .routineDecl)),
      ("Call", some (.named .routineCall)),
      ("Return", some (.option (.named .expr))),
      ("Print", some (.named .expr)),
      ("RecordTypeDecl", some (.record "struct variant Stmt::RecordTypeDecl"
        [("name", .string), ("fields", fieldListSlot)])),
      ("TypeDecl", some (.record "struct variant Stmt::TypeDecl"
        [("name", .string), ("ty", .named .ty)]))]
  | .varDecl => .record "struct VarDecl"
      [("name", .string), ("ty", .option (.named .ty)), ("initializer", .option (.named .expr))]
  | .param => .record "struct Param" [("name", .string), ("ty", .named .ty)]
  | .routineDecl => .record "struct RoutineDecl"
      [("name", .string), ("params", .list (.named .param)),
       ("return_type", .option (.named .ty)), ("body", stmtListSlot)]
  | .routineCall => .record "struct RoutineCall" [("name", .string), ("args", .list (.named .expr))]
  | .target => .choice [
      ("Variable", some .string),
      ("Element", some (.record "struct variant AssignTarget::Element"
        [("array", .string), ("index", .named .expr)])),
      ("Field", some (.record "struct variant AssignTarget::Field"
        [("record", .string), ("field", .string)]))]
  | .expr => .choice [
      ("IntLit", some .int64),
      ("RealLit", some .float64),
      ("BoolLit", some .boolean),
      ("StringLit", some .string),
      ("VarRef", some .string),
      ("Binary", some (.record "struct variant Expr::Binary"
        [("left", .named .expr), ("op", .named .binOp), ("right", .named .expr)])),
      ("Unary", some (.record "struct variant Expr::Unary"
        [("op", .named .unOp), ("operand", .named .expr)])),
      ("ArrayAccess", some (.record "struct variant Expr::ArrayAccess"
        [("array", .string), ("index", .named .expr)])),
      ("FieldAccess", some (.record "struct variant Expr::FieldAccess"
        [("record", .string), ("field", .string)])),
      ("RoutineCall", some (.named .routineCall)),
      ("TypeCast", some (.record "struct variant Expr::TypeCast"
        [("expr", .named .expr), ("target", .named .ty)]))]
  | .binOp => .choice (BinOp.all.map fun o => (o.tag, none))
  | .unOp => .choice [("Neg", none), ("Not", none)]

/-! ## Building trees from checked data

The data have been checked against the layout, so every case below but the first of each
function is unreachable; they give a fixed value to keep the functions total. -/

namespace Decode

/-- A scalar type from its tag. -/
def prim : Datum → Prim
  | .variant name _ => ((Prim.all.find? fun p => p.tag == name)).getD .void
  | _ => .void

/-- A binary operator from its tag. -/
def binOp : Datum → BinOp
  | .variant name _ => (BinOp.all.find? fun o => o.tag == name).getD .add
  | _ => .add

/-- A unary operator from its tag. -/
def unOp : Datum → UnOp
  | .variant "Not" _ => .not
  | _ => .neg

/-- A string datum. -/
def text : Datum → String
  | .string s => s
  | _ => ""

/-- An integer datum. -/
def int : Datum → Int
  | .int n => n
  | _ => 0

/-- A boolean datum. -/
def bool : Datum → Bool
  | .boolean b => b
  | _ => false

/-- A double datum. -/
def float : Datum → Float
  | .float x => x
  | _ => 0.0

mutual

/-- A type. -/
def ty : Datum → Ty
  | .variant "Primitive" p => .prim (prim p)
  | .variant "Array" (.record [e, n]) => .array (ty e) (int n)
  | .variant "Record" (.record [n, .list fs]) => .record (text n) (fields fs)
  | .variant "Named" n => .named (text n)
  | _ => .void

/-- The fields of a record type. -/
def fields : List Datum → List (String × Ty)
  | [] => []
  | .pair n t :: rest => (text n, ty t) :: fields rest
  | _ :: rest => fields rest

end

/-- An optional type. -/
def optTy : Datum → Option Ty
  | .some d => some (ty d)
  | _ => none

mutual

/-- An expression. -/
def expr : Datum → Expr
  | .variant "IntLit" n => .int (int n)
  | .variant "RealLit" x => .real (float x)
  | .variant "BoolLit" b => .bool (bool b)
  | .variant "StringLit" s => .str (text s)
  | .variant "VarRef" s => .var (text s)
  | .variant "Binary" (.record [l, o, r]) => .binary (expr l) (binOp o) (expr r)
  | .variant "Unary" (.record [o, e]) => .unary (unOp o) (expr e)
  | .variant "ArrayAccess" (.record [a, i]) => .index (text a) (expr i)
  | .variant "FieldAccess" (.record [r, f]) => .field (text r) (text f)
  | .variant "RoutineCall" (.record [n, .list as]) => .call (text n) (exprs as)
  | .variant "TypeCast" (.record [e, t]) => .cast (expr e) (ty t)
  | _ => .int 0

/-- A list of expressions. -/
def exprs : List Datum → List Expr
  | [] => []
  | d :: ds => expr d :: exprs ds

end

/-- An optional expression. -/
def optExpr : Datum → Option Expr
  | .some d => some (expr d)
  | _ => none

/-- An assignment target. -/
def target : Datum → Target
  | .variant "Element" (.record [a, i]) => .element (text a) (expr i)
  | .variant "Field" (.record [r, f]) => .field (text r) (text f)
  | .variant _ n => .var (text n)
  | _ => .var ""

/-- Routine parameters. -/
def params : List Datum → List Param
  | [] => []
  | .record [n, t] :: rest => ⟨text n, ty t⟩ :: params rest
  | _ :: rest => params rest

mutual

/-- A statement. -/
def stmt : Datum → Stmt
  | .variant "VarDecl" (.record [n, t, i]) => .varDecl (text n) (optTy t) (optExpr i)
  | .variant "ArrayDecl" (.record [n, e, s]) => .arrayDecl (text n) (ty e) (int s)
  | .variant "Assignment" (.record [t, v]) => .assign (target t) (expr v)
  | .variant "If" (.record [c, .list t, .list e]) => .ifThen (expr c) (stmts t) (stmts e)
  | .variant "While" (.record [c, .list b]) => .whileDo (expr c) (stmts b)
  | .variant "For" (.record [v, s, e, r, .list b]) =>
    .forRange (text v) (expr s) (expr e) (bool r) (stmts b)
  | .variant "RoutineDecl" (.record [n, .list ps, r, .list b]) =>
    .routine (text n) (params ps) (optTy r) (stmts b)
  | .variant "Call" (.record [n, .list as]) => .call (text n) (exprs as)
  | .variant "Return" v => .ret (optExpr v)
  | .variant "Print" v => .print (expr v)
  | .variant "RecordTypeDecl" (.record [n, .list fs]) => .recordType (text n) (fields fs)
  | .variant "TypeDecl" (.record [n, t]) => .typeAlias (text n) (ty t)
  | _ => .ret none

/-- A list of statements. -/
def stmts : List Datum → List Stmt
  | [] => []
  | d :: ds => stmt d :: stmts ds

end

/-- A program. -/
def program : Datum → Program
  | .record [.list ss] => ⟨stmts ss⟩
  | _ => ⟨[]⟩

/-- A list of name and type pairs. -/
def namedTypes : Datum → List (String × Ty)
  | .list fs => fields fs
  | _ => []

/-- A list of statements. -/
def stmtList : Datum → List Stmt
  | .list ss => stmts ss
  | _ => []

/-- A list of expressions. -/
def exprList : Datum → List Expr
  | .list es => exprs es
  | _ => []

end Decode

/-! ## Readers -/

/-- Reads a whole text against a slot of the form and builds the value. -/
def readForm {α : Type} (s : Slot Form) (build : Datum → α) (text : String) :
    Except ReadError α :=
  (readDocument Form.layout s text).map build

/-- Reads a program. -/
def Program.read : String → Except ReadError Program := readForm (.named .program) Decode.program

/-- Reads a type. -/
def Ty.read : String → Except ReadError Ty := readForm (.named .ty) Decode.ty

/-- Reads an optional type. -/
def Ty.readOption : String → Except ReadError (Option Ty) :=
  readForm (.option (.named .ty)) Decode.optTy

/-- Reads an expression. -/
def Expr.read : String → Except ReadError Expr := readForm (.named .expr) Decode.expr

/-- Reads an optional expression. -/
def Expr.readOption : String → Except ReadError (Option Expr) :=
  readForm (.option (.named .expr)) Decode.optExpr

/-- Reads a list of expressions. -/
def Expr.readList : String → Except ReadError (List Expr) :=
  readForm (.list (.named .expr)) Decode.exprList

/-- Reads a statement. -/
def Stmt.read : String → Except ReadError Stmt := readForm (.named .stmt) Decode.stmt

/-- Reads a list of statements. -/
def Stmt.readList : String → Except ReadError (List Stmt) := readForm stmtListSlot Decode.stmtList

/-- Reads a list of name and type pairs. -/
def readNamedTypes : String → Except ReadError (List (String × Ty)) :=
  readForm fieldListSlot Decode.namedTypes

/-- Reads a binary operator. -/
def BinOp.read : String → Except ReadError BinOp := readForm (.named .binOp) Decode.binOp

/-- Reads a unary operator. -/
def UnOp.read : String → Except ReadError UnOp := readForm (.named .unOp) Decode.unOp

/-- Reads a string. -/
def readText : String → Except ReadError String := readForm .string Decode.text

/-- Reads a 64-bit integer. -/
def readInt : String → Except ReadError Int := readForm .int64 Decode.int

/-- Reads a double. -/
def readFloat : String → Except ReadError Float := readForm .float64 Decode.float

/-- Reads a boolean. -/
def readBool : String → Except ReadError Bool := readForm .boolean Decode.bool

/-- Reads a list of strings. -/
def readTexts : String → Except ReadError (List String) :=
  readForm (.list .string) fun
    | .list xs => xs.map Decode.text
    | _ => []

/-- Reads a list of types. -/
def Ty.readList : String → Except ReadError (List Ty) :=
  readForm (.list (.named .ty)) fun
    | .list xs => xs.map Decode.ty
    | _ => []

/-! ## Writers -/

/-- A constructor with content, as an object of one member. -/
def tagged (tag : String) (content : Json) : Json := .object [(tag, content)]

/-- The JSON form of a type. -/
def Ty.toJson : Ty → Json
  | .prim p => tagged "Primitive" (.string p.tag)
  | .array e n => tagged "Array" (.object [("element", e.toJson), ("size", .ofInt n)])
  | .record n fs =>
    tagged "Record" (.object [("name", .string n), ("fields", .array (fieldsJson fs))])
  | .named n => tagged "Named" (.string n)
where
  /-- The fields of a record type, as name and type pairs. -/
  fieldsJson : List (String × Ty) → List Json
    | [] => []
    | (n, t) :: rest => .array [.string n, t.toJson] :: fieldsJson rest

/-- The JSON form of a list of name and type pairs. -/
def namedTypesJson (fs : List (String × Ty)) : Json := .array (Ty.toJson.fieldsJson fs)

/-- The JSON form of an expression. -/
def Expr.toJson : Expr → Json
  | .int n => tagged "IntLit" (.ofInt n)
  | .real x => tagged "RealLit" (.ofFloat x)
  | .bool b => tagged "BoolLit" (.bool b)
  | .str s => tagged "StringLit" (.string s)
  | .var n => tagged "VarRef" (.string n)
  | .binary l o r =>
    tagged "Binary" (.object [("left", l.toJson), ("op", .string o.tag), ("right", r.toJson)])
  | .unary o e => tagged "Unary" (.object [("op", .string o.tag), ("operand", e.toJson)])
  | .index a i => tagged "ArrayAccess" (.object [("array", .string a), ("index", i.toJson)])
  | .field r f => tagged "FieldAccess" (.object [("record", .string r), ("field", .string f)])
  | .call n args =>
    tagged "RoutineCall" (.object [("name", .string n), ("args", .array (argsJson args))])
  | .cast e t => tagged "TypeCast" (.object [("expr", e.toJson), ("target", t.toJson)])
where
  /-- The JSON forms of arguments. -/
  argsJson : List Expr → List Json
    | [] => []
    | e :: rest => e.toJson :: argsJson rest

/-- The JSON form of an assignment target. -/
def Target.toJson : Target → Json
  | .var n => tagged "Variable" (.string n)
  | .element a i => tagged "Element" (.object [("array", .string a), ("index", i.toJson)])
  | .field r f => tagged "Field" (.object [("record", .string r), ("field", .string f)])

/-- The JSON form of a statement. -/
def Stmt.toJson : Stmt → Json
  | .varDecl n t i =>
    tagged "VarDecl" (.object [("name", .string n), ("ty", Json.ofOption Ty.toJson t),
      ("initializer", Json.ofOption Expr.toJson i)])
  | .arrayDecl n e s =>
    tagged "ArrayDecl" (.object [("name", .string n), ("element", e.toJson), ("size", .ofInt s)])
  | .assign t v => tagged "Assignment" (.object [("target", t.toJson), ("value", v.toJson)])
  | .ifThen c t e =>
    tagged "If" (.object [("cond", c.toJson), ("then_branch", .array (listJson t)),
      ("else_branch", .array (listJson e))])
  | .whileDo c b => tagged "While" (.object [("cond", c.toJson), ("body", .array (listJson b))])
  | .forRange v s e r b =>
    tagged "For" (.object [("var", .string v), ("start", s.toJson), ("end", e.toJson),
      ("reverse", .bool r), ("body", .array (listJson b))])
  | .routine n ps r b =>
    tagged "RoutineDecl" (.object [("name", .string n),
      ("params", .array (ps.map fun p => .object [("name", .string p.name), ("ty", p.ty.toJson)])),
      ("return_type", Json.ofOption Ty.toJson r), ("body", .array (listJson b))])
  | .call n args =>
    tagged "Call" (.object [("name", .string n), ("args", .array (Expr.toJson.argsJson args))])
  | .ret v => tagged "Return" (Json.ofOption Expr.toJson v)
  | .print v => tagged "Print" v.toJson
  | .recordType n fs => tagged "RecordTypeDecl" (.object [("name", .string n), ("fields", namedTypesJson fs)])
  | .typeAlias n t => tagged "TypeDecl" (.object [("name", .string n), ("ty", t.toJson)])
where
  /-- The JSON forms of a list of statements. -/
  listJson : List Stmt → List Json
    | [] => []
    | s :: rest => s.toJson :: listJson rest

/-- The JSON form of a list of statements. -/
def Stmt.listToJson (ss : List Stmt) : Json := .array (Stmt.toJson.listJson ss)

/-- The JSON form of a program. -/
def Program.toJson (p : Program) : Json := .object [("statements", Stmt.listToJson p.statements)]

end ImpStack
