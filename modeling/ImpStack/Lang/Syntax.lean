import ImpStack.Lang.Typing

/-! # Programs

The tree of a program: a list of statements. Statements declare variables, arrays, routines
and types, assign, branch, loop, call, return and print; expressions are literals, variable
reads, operators, element and field reads, calls and casts.

Besides the constructors, this module holds the shorthand builders programs are assembled
with and three structural questions: whether a statement list always ends in a return,
whether an expression may call a routine, and whether it is a literal.
-/

namespace ImpStack

/-- An expression. -/
inductive Expr where
  /-- An integer literal; its value is a 64-bit signed integer. -/
  | int (value : Int)
  | real (value : Float)
  | bool (value : Bool)
  | str (value : String)
  /-- A variable read. -/
  | var (name : String)
  | binary (left : Expr) (op : BinOp) (right : Expr)
  | unary (op : UnOp) (operand : Expr)
  /-- An array element read, `array[index]`. -/
  | index (array : String) (index : Expr)
  /-- A record field read, `record.field`. -/
  | field (record field : String)
  | call (name : String) (args : List Expr)
  /-- An explicit conversion of `expr` to `target`. -/
  | cast (expr : Expr) (target : Ty)
  deriving Repr, Inhabited

/-- What an assignment writes to. -/
inductive Target where
  | var (name : String)
  | element (array : String) (index : Expr)
  | field (record field : String)
  deriving Repr, Inhabited

/-- The variable an assignment writes through. -/
def Target.root : Target → String
  | .var name => name
  | .element array _ => array
  | .field record _ => record

/-- A routine parameter. -/
structure Param where
  name : String
  ty : Ty
  deriving Repr, Inhabited

/-- A statement. -/
inductive Stmt where
  /-- `var name : ty is init`; a missing type is inferred from the initializer. -/
  | varDecl (name : String) (ty : Option Ty) (init : Option Expr)
  /-- `var name : array[size] element`. -/
  | arrayDecl (name : String) (element : Ty) (size : Int)
  | assign (target : Target) (value : Expr)
  | ifThen (cond : Expr) (thenBranch elseBranch : List Stmt)
  | whileDo (cond : Expr) (body : List Stmt)
  /-- `for var in start..stop [reverse] loop body end`. -/
  | forRange (var : String) (start stop : Expr) (reverse : Bool) (body : List Stmt)
  /-- A routine declaration; a missing return type means the routine returns nothing. -/
  | routine (name : String) (params : List Param) (returnType : Option Ty) (body : List Stmt)
  | call (name : String) (args : List Expr)
  | ret (value : Option Expr)
  | print (value : Expr)
  /-- `type name is record fields end`. -/
  | recordType (name : String) (fields : List (String × Ty))
  /-- `type name is ty`. -/
  | typeAlias (name : String) (ty : Ty)
  deriving Repr, Inhabited

/-- A whole program. -/
structure Program where
  statements : List Stmt
  deriving Repr, Inhabited

/-! ## Shorthand builders -/

namespace Stmt

/-- A variable declaration with a written type. -/
def declare (name : String) (ty : Ty) (init : Option Expr) : Stmt := .varDecl name (some ty) init

/-- An assignment to a variable. -/
def assignVar (name : String) (value : Expr) : Stmt := .assign (.var name) value

/-- An assignment to an array element. -/
def assignElement (array : String) (index value : Expr) : Stmt :=
  .assign (.element array index) value

/-- An assignment to a record field. -/
def assignField (record field : String) (value : Expr) : Stmt := .assign (.field record field) value

/-- A return of a value. -/
def returning (value : Expr) : Stmt := .ret (some value)

/-- A routine with parameters given as name and type. -/
def routineOf (name : String) (params : List (String × Ty)) (returnType : Option Ty)
    (body : List Stmt) : Stmt :=
  .routine name (params.map fun (n, t) => ⟨n, t⟩) returnType body

end Stmt

/-- The declared return type of a routine, `void` when none is written. -/
def returnTypeOrVoid (returnType : Option Ty) : Ty := returnType.getD .void

/-! ## Structural questions -/

/-- Whether control cannot run off the end of a statement list: its last statement is a
return, or a branch both of whose arms end that way. -/
def endsWithReturn : List Stmt → Bool
  | [] => false
  | [.ret _] => true
  | [.ifThen _ thenBranch elseBranch] => endsWithReturn thenBranch && endsWithReturn elseBranch
  | [_] => false
  | _ :: rest => endsWithReturn rest

namespace Expr

/-- Literals of the four scalar kinds. -/
def isLiteral : Expr → Bool
  | .int _ | .real _ | .bool _ | .str _ => true
  | _ => false

/-- Whether evaluating the expression may call a routine. -/
def containsCall : Expr → Bool
  | .call _ _ => true
  | .binary l _ r => l.containsCall || r.containsCall
  | .unary _ e => e.containsCall
  | .index _ i => i.containsCall
  | .cast e _ => e.containsCall
  | _ => false

end Expr

end ImpStack
