import ImpStack.Lang.Syntax
import ImpStack.Number.Binary64

/-! # Constant folding

Replaces an operator applied to literals by the literal it computes, bottom-up, so that a
parent sees its operands already reduced. The rules:

* two integers: `+ - * / %` fold when the 64-bit operation does not overflow (division and
  remainder truncate toward zero, and dividing by zero never folds) and the result fits a
  32-bit word; comparisons always fold;
* two booleans: `and or xor = !=` fold;
* otherwise, when both operands are numeric literals, they are taken as doubles (an integer
  rounded to the nearest double): `+ - * / %` fold when the result is finite (and never for a
  zero divisor, `%` being the remainder with the dividend's sign), comparisons always;
* `-` folds on an integer whose negation fits a 32-bit word and on any real; `not` on a
  boolean.

A pass reports whether it folded anything.
-/

namespace ImpStack

namespace Fold

/-- The smallest 64-bit signed integer. -/
def int64Min : Int := -9223372036854775808

/-- An integer literal for a result that fits a 32-bit word. -/
def word (v : Int) : Option Expr :=
  if -2147483648 ≤ v ∧ v ≤ 2147483647 then some (.int v) else none

/-- Folds an operator on two integer literals. -/
def onInts (op : BinOp) (l r : Int) : Option Expr :=
  match op with
  | .add => word (l + r)
  | .sub => word (l - r)
  | .mul => word (l * r)
  | .div => if r == 0 || (l == int64Min && r == -1) then none else word (l.tdiv r)
  | .mod => if r == 0 || (l == int64Min && r == -1) then none else word (l.tmod r)
  | .eq => some (.bool (l == r))
  | .ne => some (.bool (l != r))
  | .lt => some (.bool (decide (l < r)))
  | .le => some (.bool (decide (l ≤ r)))
  | .gt => some (.bool (decide (l > r)))
  | .ge => some (.bool (decide (l ≥ r)))
  | .and | .or | .xor => none

/-- A real literal for a finite result. -/
def finite (x : Float) : Option Expr := if x.isFinite then some (.real x) else none

/-- Folds an operator on two doubles. -/
def onReals (op : BinOp) (l r : Float) : Option Expr :=
  match op with
  | .add => finite (l + r)
  | .sub => finite (l - r)
  | .mul => finite (l * r)
  | .div => if r == 0.0 then none else finite (l / r)
  | .mod => if r == 0.0 then none else finite (Binary64.fmod l r)
  | .eq => some (.bool (l == r))
  | .ne => some (.bool (l != r))
  | .lt => some (.bool (l < r))
  | .le => some (.bool (l ≤ r))
  | .gt => some (.bool (l > r))
  | .ge => some (.bool (l ≥ r))
  | .and | .or | .xor => none

/-- Folds an operator on two boolean literals. -/
def onBools (op : BinOp) (l r : Bool) : Option Expr :=
  match op with
  | .and => some (.bool (l && r))
  | .or => some (.bool (l || r))
  | .xor => some (.bool (l ^^ r))
  | .eq => some (.bool (l == r))
  | .ne => some (.bool (l != r))
  | _ => none

/-- A numeric literal as a double. -/
def asReal : Expr → Option Float
  | .real x => some x
  | .int n => some (Binary64.ofInt n)
  | _ => none

/-- The literal an operator on literal operands computes, when it folds. -/
def evaluate : Expr → Option Expr
  | .binary (.int l) op (.int r) => onInts op l r
  | .binary (.bool l) op (.bool r) => onBools op l r
  | .binary l op r => do onReals op (← asReal l) (← asReal r)
  | .unary .neg (.int v) => word (-v)
  | .unary .neg (.real x) => some (.real (-x))
  | .unary .not (.bool b) => some (.bool (!b))
  | _ => none

/-- Replaces an expression by its folded value, when it folds. -/
def settle (e : Expr) (changed : Bool) : Expr × Bool :=
  match evaluate e with
  | some v => (v, true)
  | none => (e, changed)

mutual

/-- Folds an expression bottom-up; the flag says whether anything folded. -/
def expr : Expr → Expr × Bool
  | .binary l op r =>
    let (l', cl) := expr l
    let (r', cr) := expr r
    settle (.binary l' op r') (cl || cr)
  | .unary op e =>
    let (e', c) := expr e
    settle (.unary op e') c
  | .index a i =>
    let (i', c) := expr i
    settle (.index a i') c
  | .cast e t =>
    let (e', c) := expr e
    settle (.cast e' t) c
  | .call n args =>
    let (args', c) := exprs args
    settle (.call n args') c
  | e => settle e false

/-- Folds each expression of a list. -/
def exprs : List Expr → List Expr × Bool
  | [] => ([], false)
  | e :: rest =>
    let (e', c) := expr e
    let (rest', cs) := exprs rest
    (e' :: rest', c || cs)

end

/-- Folds an optional expression. -/
def optExpr : Option Expr → Option Expr × Bool
  | some e => let (e', c) := expr e; (some e', c)
  | none => (none, false)

mutual

/-- Folds the expressions of a statement and, through nested blocks, of its statements. -/
def stmt : Stmt → Stmt × Bool
  | .varDecl n t i => let (i', c) := optExpr i; (.varDecl n t i', c)
  | .assign (.element a idx) v =>
    let (idx', ci) := expr idx
    let (v', cv) := expr v
    (.assign (.element a idx') v', ci || cv)
  | .assign t v => let (v', c) := expr v; (.assign t v', c)
  | .ifThen c t e =>
    let (c', cc) := expr c
    let (t', ct) := block t
    let (e', ce) := block e
    (.ifThen c' t' e', cc || ct || ce)
  | .whileDo c b =>
    let (c', cc) := expr c
    let (b', cb) := block b
    (.whileDo c' b', cc || cb)
  | .forRange v s e r b =>
    let (s', cs) := expr s
    let (e', ce) := expr e
    let (b', cb) := block b
    (.forRange v s' e' r b', cs || ce || cb)
  | .routine n ps r b => let (b', c) := block b; (.routine n ps r b', c)
  | .call n args => let (args', c) := exprs args; (.call n args', c)
  | .ret v => let (v', c) := optExpr v; (.ret v', c)
  | .print v => let (v', c) := expr v; (.print v', c)
  | s => (s, false)

/-- Folds every statement of a block. -/
def block : List Stmt → List Stmt × Bool
  | [] => ([], false)
  | s :: rest =>
    let (s', c) := stmt s
    let (rest', cs) := block rest
    (s' :: rest', c || cs)

end

end Fold

/-- Folds the constants of a whole program; the flag says whether anything folded. -/
def foldConstants (p : Program) : Program × Bool :=
  let (ss, c) := Fold.block p.statements
  (⟨ss⟩, c)

end ImpStack
