/-! # Operators

Binary operators are arithmetic (`+ - * / %`), comparisons (`< <= > >= = !=`) or logical
(`and or xor`); unary operators are negation `-` and `not`.
-/

namespace ImpStack

/-- A binary operator. -/
inductive BinOp where
  | add | sub | mul | div | mod
  | lt | le | gt | ge | eq | ne
  | and | or | xor
  deriving DecidableEq, Repr, Inhabited

namespace BinOp

/-- The operator as a program writes it. -/
def symbol : BinOp → String
  | .add => "+" | .sub => "-" | .mul => "*" | .div => "/" | .mod => "%"
  | .lt => "<" | .le => "<=" | .gt => ">" | .ge => ">=" | .eq => "=" | .ne => "!="
  | .and => "and" | .or => "or" | .xor => "xor"

def isComparison : BinOp → Bool
  | .lt | .le | .gt | .ge | .eq | .ne => true
  | _ => false

def isLogical : BinOp → Bool
  | .and | .or | .xor => true
  | _ => false

def isArithmetic : BinOp → Bool
  | .add | .sub | .mul | .div | .mod => true
  | _ => false

/-- All binary operators, in their tag order. -/
def all : List BinOp := [.add, .sub, .mul, .div, .mod, .lt, .le, .gt, .ge, .eq, .ne, .and, .or, .xor]

/-- The tag of an operator in a JSON tree. -/
def tag : BinOp → String
  | .add => "Add" | .sub => "Sub" | .mul => "Mul" | .div => "Div" | .mod => "Mod"
  | .lt => "Lt" | .le => "Le" | .gt => "Gt" | .ge => "Ge" | .eq => "Eq" | .ne => "Ne"
  | .and => "And" | .or => "Or" | .xor => "Xor"

end BinOp

/-- A unary operator. -/
inductive UnOp where
  | neg
  | not
  deriving DecidableEq, Repr, Inhabited

namespace UnOp

/-- The operator as a program writes it. -/
def symbol : UnOp → String
  | .neg => "-"
  | .not => "not"

/-- The tag of an operator in a JSON tree. -/
def tag : UnOp → String
  | .neg => "Neg"
  | .not => "Not"

end UnOp

end ImpStack
