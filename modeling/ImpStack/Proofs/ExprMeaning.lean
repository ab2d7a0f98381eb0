import ImpStack.Stack.Machine
import ImpStack.Stack.Lower

/-! # What an expression computes on the target

  An expression runs as the code lowering gives it, on the machine, and its operators compute
  with the machine's own operations: two integers with the 32-bit wrapping ones, where a zero
  divisor traps; two numbers otherwise with the double ones, an integer widened first;
  comparisons with the machine's tests on JVM `int`s and on doubles; `and` and `or` by a short
  circuit; `not` by a test for zero. A literal is the value `push` pushes. What an expression
  reads and calls comes from its surroundings (`Surroundings`): variables, array elements,
  record fields, routines and conversions, acting in any monad, which carries whatever store,
  traps and calls that never return the run has. `Expr.eval` is that meaning.

  Two facts tie the machine's operations to the numbers they stand for. The machine tests a
  condition on two doubles through their IEEE order, in which NaN is unordered
  (`Machine.realHolds_eq_order`), and that order is the one `Float`'s own comparisons use
  (`Binary64.lt_iff_order` and its siblings). On 32-bit words, taking an integer to a JVM `int`
  keeps its order (`Machine.intHolds_ofInt`).
-/

namespace ImpStack

/-! ## The order of doubles -/

namespace Binary64

open Float.Model in
/-- The IEEE order of two doubles: `none` when either is NaN; `0.0` and `-0.0` are equal. -/
def order (x y : Float) : Option Ordering := x.toModel.unpack.compare y.toModel.unpack

theorem lt_iff_order {x y : Float} : x < y ↔ order x y = some .lt := by
  show x.lt y = true ↔ _
  simp [Float.lt, order, LT.lt, Float.Model.lt, Float.Model.UnpackedFloat.lt]

theorem le_iff_order {x y : Float} : x ≤ y ↔ (order x y).any Ordering.isLE := by
  show decide (x.toModel.le y.toModel = true) = true ↔ _
  rw [decide_eq_true_iff]
  rfl

theorem beq_eq_order (x y : Float) : (x == y) = (order x y == some .eq) := by
  show x.beq y = _
  rfl

open Float.Model in
/-- The order read the other way round is the order reversed. The cases follow the
comparison: signs, then exponents and mantissas of two finite doubles. -/
theorem order_swap (x y : Float) : order y x = (order x y).map Ordering.swap := by
  unfold order
  generalize x.toModel.unpack = a
  generalize y.toModel.unpack = b
  cases a with
  | notANumber => cases b <;> rfl
  | infinity s =>
    cases b with
    | infinity s' => cases s <;> cases s' <;> rfl
    | notANumber => rfl
    | zero s' => cases s <;> rfl
    | finite s' m e h => cases s <;> cases s' <;> rfl
  | zero s =>
    cases b with
    | infinity s' => cases s' <;> rfl
    | notANumber => rfl
    | zero s' => rfl
    | finite s' m e h => cases s' <;> rfl
  | finite s m e h =>
    cases b with
    | infinity s' => cases s <;> cases s' <;> rfl
    | notANumber => rfl
    | zero s' => cases s <;> rfl
    | finite s' m' e' h' =>
      -- same signs: exponents, then mantissas, compared the other way round
      cases s <;> cases s'
      · show some ((compare e' e).then (compare m' m)).swap =
          some ((compare e e').then (compare m m')).swap.swap
        rw [Ordering.swap_swap, Ordering.swap_then, Int.compare_swap, Nat.compare_swap]
      · rfl
      · rfl
      · show some ((compare e' e).then (compare m' m)) =
          some ((compare e e').then (compare m m')).swap
        rw [Ordering.swap_then, Int.compare_swap, Nat.compare_swap]

open Float.Model in
/-- Two doubles neither of which is NaN are ordered. -/
theorem order_isSome {x y : Float} (hx : x.isNaN = false) (hy : y.isNaN = false) :
    (order x y).isSome := by
  change x.toModel.unpack.isNaN = false at hx
  change y.toModel.unpack.isNaN = false at hy
  unfold order
  generalize x.toModel.unpack = a at hx ⊢
  generalize y.toModel.unpack = b at hy ⊢
  -- a NaN operand contradicts its hypothesis; every other pair is compared
  rcases a with s | _ | s | ⟨s, m, e, h⟩ <;>
    rcases b with s' | _ | s' | ⟨s', m', e', h'⟩ <;>
    (try cases s) <;> (try cases s') <;>
    first | rfl | exact absurd hx.symm Bool.false_ne_true | exact absurd hy.symm Bool.false_ne_true

open Float.Model in
/-- A NaN is ordered with nothing. -/
theorem order_nan {x y : Float} (h : (x.isNaN || y.isNaN) = true) : order x y = none := by
  change (x.toModel.unpack.isNaN || y.toModel.unpack.isNaN) = true at h
  unfold order
  generalize x.toModel.unpack = a at h ⊢
  generalize y.toModel.unpack = b at h ⊢
  cases a with
  | notANumber => rfl
  | _ => cases b <;> first | rfl | exact absurd h Bool.false_ne_true

end Binary64

/-! ## The machine's tests -/

namespace Machine

open Binary64 in
/-- The machine tests a condition on two doubles through their IEEE order; unordered doubles
satisfy only `≠`. -/
theorem realHolds_eq_order (c : Condition) (x y : Float) :
    realHolds c x y =
      match order x y with
      | none => c == .ne
      | some o => holds c o := by
  unfold realHolds
  cases hn : (x.isNaN || y.isNaN)
  · -- ordered: the nested test reads the order off `<` and `==`
    obtain ⟨o, ho⟩ := Option.isSome_iff_exists.mp
      (order_isSome (Bool.or_eq_false_iff.mp hn).1 (Bool.or_eq_false_iff.mp hn).2)
    have hlt : (x < y) ↔ o = .lt := by rw [lt_iff_order, ho, Option.some.injEq]
    have heq : (x == y) = (o == .eq) := by rw [beq_eq_order, ho]; cases o <;> rfl
    simp only [Bool.false_eq_true, ↓reduceIte, ho]
    cases o <;> simp_all
  · simp [order_nan hn]

/-- A 32-bit word: the integers a JVM `int` holds. -/
def IsWord (v : Int) : Prop := -2147483648 ≤ v ∧ v ≤ 2147483647

instance (v : Int) : Decidable (IsWord v) := inferInstanceAs (Decidable (_ ∧ _))

theorem toInt_ofInt_word {v : Int} (h : IsWord v) : (Int32.ofInt v).toInt = v :=
  Int32.toInt_ofInt_of_le h.1 (by have := h.2; omega)

/-- On words, a JVM `int` keeps the order of the integer it holds. -/
theorem intHolds_ofInt (c : Condition) {a b : Int} (ha : IsWord a) (hb : IsWord b) :
    intHolds c (Int32.ofInt a) (Int32.ofInt b) =
      holds c (if a < b then .lt else if a = b then .eq else .gt) := by
  have hlt : Int32.ofInt a < Int32.ofInt b ↔ a < b := by
    rw [Int32.lt_iff_toInt_lt, toInt_ofInt_word ha, toInt_ofInt_word hb]
  have heq : Int32.ofInt a = Int32.ofInt b ↔ a = b := by
    rw [← Int32.toInt_inj, toInt_ofInt_word ha, toInt_ofInt_word hb]
  simp only [intHolds, hlt, heq]

end Machine

/-! ## Values as operands -/

namespace Value

/-- A number as a double: a real as it is, an integer widened as the machine widens it. -/
def toDouble? : Value → Option Float
  | .real x => some x
  | .int a => some (Binary64.ofInt a.toInt)
  | _ => none

/-- The outcome of a conditional branch on a JVM `int`: whether it is nonzero. -/
def truth? : Value → Option Bool
  | .int a => some (a != 0)
  | _ => none

@[simp] theorem truth_ofBool (b : Bool) : (ofBool b).truth? = some b := by
  cases b <;> rfl

end Value

namespace Meaning

/-- An arithmetic operation on two values, as the lowered code performs it: the 32-bit one on
two integers, else the double one on two numbers. -/
def arith (op : ArithOp) : Value → Value → Except Outcome Value
  | .int a, .int b =>
    match Machine.intArith op a b with
    | .ok v => .ok (.int v)
    | .error t => .error (.trap t)
  | l, r =>
    match l.toDouble?, r.toDouble? with
    | some x, some y =>
      match Machine.realArith op x y with
      | some z => .ok (.real z)
      | none => .error .invalid
    | _, _ => .error .invalid

/-- A condition on two values, as the lowered code tests it: on two integers as JVM `int`s, on
two numbers otherwise as doubles, and on references by identity, for `=` and `≠` only. -/
def test (c : Condition) : Value → Value → Except Outcome Bool
  | .int a, .int b => .ok (Machine.intHolds c a b)
  | l, r =>
    match l.toDouble?, r.toDouble? with
    | some x, some y => .ok (Machine.realHolds c x y)
    | _, _ =>
      match c with
      | .eq => .ok (l.sameObject r)
      | .ne => .ok (!l.sameObject r)
      | _ => .error .invalid

/-- A value as a boolean result: a JVM `int` made `0` or `1`. -/
def asBool (b : Value) : Except Outcome Value :=
  match b.truth? with
  | some y => .ok (Value.ofBool y)
  | none => .error .invalid

/-- `and` (`decider` false) and `or` (`decider` true) on two values: the right one counts only
when the left one does not decide. -/
def shortCircuit (decider : Bool) (a b : Value) : Except Outcome Value :=
  match a.truth? with
  | none => .error .invalid
  | some x => if x = decider then .ok (Value.ofBool decider) else asBool b

/-- A binary operator on two values already computed. -/
def binary (op : BinOp) (a b : Value) : Except Outcome Value :=
  match op with
  | .and => shortCircuit false a b
  | .or => shortCircuit true a b
  | .xor => arith .xor a b
  | .add | .sub | .mul | .div | .mod => arith (Lower.arithmetic op) a b
  | .lt | .le | .gt | .ge | .eq | .ne => (test (Lower.comparison op) a b).map Value.ofBool

/-- `not` and negation on a value. -/
def unary : UnOp → Value → Except Outcome Value
  | .not, .int x => .ok (Value.ofBool (x == 0))
  | .neg, .int x => .ok (.int (-x))
  | .neg, .real x => .ok (.real (-x))
  | _, _ => .error .invalid

end Meaning

/-! ## Expressions in their surroundings -/

/-- What an expression reads and calls, acting in the monad `m` of the run. -/
structure Surroundings (m : Type → Type) where
  /-- Reads a variable. -/
  var : String → m Value
  /-- Reads the element of an array variable at an index. -/
  element : String → Value → m Value
  /-- Reads a field of a record variable. -/
  field : String → String → m Value
  /-- Calls a routine on its arguments and gives its result. -/
  call : String → List Value → m Value
  /-- Converts a value to a type. -/
  convert : Value → Ty → m Value
  /-- Ends the run. -/
  stop : Outcome → m Value

namespace Surroundings

variable {m : Type → Type} [Monad m] (w : Surroundings m)

/-- A step of the run that may end it. -/
def lift : Except Outcome Value → m Value
  | .ok v => pure v
  | .error o => w.stop o

/-- `and` (`decider` false) and `or` (`decider` true): the right operand runs only when the
left one does not decide. -/
def shortCircuit (decider : Bool) (left right : m Value) : m Value := do
  match (← left).truth? with
  | none => w.stop .invalid
  | some a =>
    if a = decider then pure (Value.ofBool decider)
    else do w.lift (Meaning.asBool (← right))

/-- A binary operator on the runs of its operands, the left one first. -/
def binary (op : BinOp) (left right : m Value) : m Value :=
  match op with
  | .and => w.shortCircuit false left right
  | .or => w.shortCircuit true left right
  | _ => do
    let a ← left
    let b ← right
    w.lift (Meaning.binary op a b)

end Surroundings

variable {m : Type → Type} [Monad m]

mutual

/-- What an expression computes in its surroundings. -/
def Expr.eval (w : Surroundings m) : Expr → m Value
  | .int v => pure (Value.ofConstant (.int v))
  | .real x => pure (Value.ofConstant (.real x))
  | .bool b => pure (Value.ofConstant (.bool b))
  | .str s => pure (Value.ofConstant (.str s))
  | .var n => w.var n
  | .binary l op r => w.binary op (Expr.eval w l) (Expr.eval w r)
  | .unary op e => do w.lift (Meaning.unary op (← Expr.eval w e))
  | .index a i => do w.element a (← Expr.eval w i)
  | .field r f => w.field r f
  | .call n args => do w.call n (← Expr.evalArgs w args)
  | .cast e t => do w.convert (← Expr.eval w e) t

/-- What call arguments compute, left to right. -/
def Expr.evalArgs (w : Surroundings m) : List Expr → m (List Value)
  | [] => pure []
  | e :: es => do
    let v ← Expr.eval w e
    let vs ← Expr.evalArgs w es
    pure (v :: vs)

end

/-- With both operands computed, an operator is its value-level meaning: the short circuit
of `and` and `or` runs nothing more. -/
theorem Surroundings.binary_pure [LawfulMonad m] (w : Surroundings m) (op : BinOp) (a b : Value) :
    w.binary op (pure a) (pure b) = w.lift (Meaning.binary op a b) := by
  cases op with
  | and | or =>
    simp only [Surroundings.binary, Surroundings.shortCircuit, pure_bind, Meaning.binary,
      Meaning.shortCircuit]
    cases a.truth? with
    | none => rfl
    | some x => cases x <;> rfl
  | _ => simp [Surroundings.binary]

end ImpStack
