import ImpStack.Proofs.ExprMeaning
import ImpStack.Proofs.Folding

/-! # Folding keeps what an expression computes

  Constant folding computes integer operations on the exact integers: it never wraps, and an
  integer it produces is a 32-bit word and the exact result of the operation it replaced,
  division and remainder truncated toward zero (`Fold.evaluate_int`).

  The machine computes on JVM `int`s, which wrap at 32 bits, so the two agree only on words:
  when every integer literal of an expression is a word (`Expr.literalsFit`), the folded
  expression computes what the expression computes (`Fold.eval_fold`), in every surroundings
  and every monad, so with the same value, the same effects in the same order and the same
  trap. One folding step is the heart of it (`Fold.eval_evaluate`): an operator on literals
  that folds computes its result without trapping, whether on words (`eval_onInts`), on
  booleans (`eval_onBools`) or on doubles (`eval_onReals`), where the IEEE comparisons folding
  uses are the machine's tests (`onReals_comparison`). The rest is an induction over the
  expression: folding rebuilds every other node around its folded operands, and what a node
  computes depends only on what its operands compute.
-/

namespace ImpStack

open Machine

/-! ## Integer literals that are words -/

mutual

/-- Every integer literal of the expression is a 32-bit word. -/
def Expr.literalsFit : Expr → Bool
  | .int v => decide (IsWord v)
  | .binary l _ r => Expr.literalsFit l && Expr.literalsFit r
  | .unary _ e => Expr.literalsFit e
  | .index _ i => Expr.literalsFit i
  | .cast e _ => Expr.literalsFit e
  | .call _ args => Expr.argsFit args
  | .real _ | .bool _ | .str _ | .var _ | .field _ _ => true

/-- Every integer literal of the arguments is a 32-bit word. -/
def Expr.argsFit : List Expr → Bool
  | [] => true
  | e :: es => Expr.literalsFit e && Expr.argsFit es

end

namespace Fold

/-! ## Exact integer results -/

/-- The exact integer an arithmetic operator computes, division and remainder truncating
toward zero; nothing for a zero divisor or an operator that is not arithmetic. -/
def exactArith : BinOp → Int → Int → Option Int
  | .add, l, r => some (l + r)
  | .sub, l, r => some (l - r)
  | .mul, l, r => some (l * r)
  | .div, l, r => if r = 0 then none else some (l.tdiv r)
  | .mod, l, r => if r = 0 then none else some (l.tmod r)
  | _, _, _ => none

theorem word_eq_some {n : Int} {v : Expr} (h : word n = some v) : v = .int n ∧ IsWord n := by
  unfold word at h
  split at h
  · next hn => cases h; exact ⟨rfl, hn⟩
  · cases h

/-- An integer folded from two integer literals is a word and the exact result. -/
theorem onInts_int {op : BinOp} {a b v : Int} (h : onInts op a b = some (.int v)) :
    IsWord v ∧ exactArith op a b = some v := by
  cases op with
  | add | sub | mul =>
    obtain ⟨hv, hw⟩ := word_eq_some h
    cases hv
    exact ⟨hw, rfl⟩
  | div | mod =>
    simp only [onInts] at h
    split at h
    · cases h
    · next hz =>
      obtain ⟨hv, hw⟩ := word_eq_some h
      cases hv
      have hb : b ≠ 0 := fun hb => hz (by simp [hb])
      exact ⟨hw, by simp [exactArith, hb]⟩
  | eq | ne | lt | le | gt | ge => simp [onInts] at h
  | and | or | xor => simp [onInts] at h

theorem onBools_not_int {op : BinOp} {a b : Bool} {v : Int} : onBools op a b ≠ some (.int v) := by
  cases op <;> simp [onBools]

theorem onReals_not_int {op : BinOp} {x y : Float} {v : Int} :
    onReals op x y ≠ some (.int v) := by
  intro h
  cases op <;> simp only [onReals, finite, reduceCtorEq, Option.some.injEq] at h <;>
    (try split at h) <;> (try split at h) <;> simp_all

/-- An integer literal folding produces is a word and the exact result of the integer
operation it replaced, or the negation of an integer literal. -/
theorem evaluate_int {e : Expr} {v : Int} (h : evaluate e = some (.int v)) :
    IsWord v ∧ ((∃ l op r, e = .binary (.int l) op (.int r) ∧ exactArith op l r = some v) ∨
      ∃ n, e = .unary .neg (.int n) ∧ v = -n) := by
  cases e with
  | binary l op r =>
    rcases evaluate_binary h with ⟨a, b, rfl, rfl, hv⟩ | ⟨a, b, -, -, hv⟩ |
      ⟨-, x, y, -, -, hv⟩
    · obtain ⟨hw, hx⟩ := onInts_int hv
      exact ⟨hw, .inl ⟨a, op, b, rfl, hx⟩⟩
    · exact absurd hv onBools_not_int
    · exact absurd hv onReals_not_int
  | unary op e =>
    rcases evaluate_unary h with ⟨rfl, n, rfl, hv⟩ | ⟨-, x, -, hv⟩ | ⟨-, b, -, hv⟩
    · obtain ⟨hv, hw⟩ := word_eq_some hv
      cases hv
      exact ⟨hw, .inr ⟨n, rfl, rfl⟩⟩
    · cases hv
    · cases hv
  | _ => simp [evaluate] at h

/-! ## One folding step computes what it replaces -/

section

variable {m : Type → Type} [Monad m] [LawfulMonad m] (w : Surroundings m)

/-- The comparisons folding computes on two integers are the machine's tests on them. -/
theorem onInts_comparison {op : BinOp} (hop : op.isComparison = true) (a b : Int) :
    onInts op a b = some (.bool (holds (Lower.comparison op)
      (if a < b then .lt else if a = b then .eq else .gt))) := by
  cases op <;> simp only [BinOp.isComparison, Bool.false_eq_true] at hop <;>
    simp only [onInts, Lower.comparison, Option.some.injEq, Expr.bool.injEq] <;>
    by_cases hlt : a < b <;> by_cases heq : a = b <;> simp +decide [hlt, heq, holds, bne] <;> omega

/-- An operator on two integer words that folds computes its result: the machine's wrapping
operation is the exact one on words, and no zero divisor is left. -/
theorem eval_onInts {op : BinOp} {a b : Int} {v : Expr} (ha : IsWord a) (hb : IsWord b)
    (h : onInts op a b = some v) : v.eval w = (Expr.binary (.int a) op (.int b)).eval w := by
  have operands : (Expr.binary (.int a) op (.int b)).eval w =
      w.lift (Meaning.binary op (.int (Int32.ofInt a)) (.int (Int32.ofInt b))) :=
    w.binary_pure op _ _
  rw [operands]
  cases op with
  | add | sub | mul =>
    obtain ⟨rfl, -⟩ := word_eq_some h
    simp [Expr.eval, Meaning.binary, Meaning.arith, Lower.arithmetic, intArith,
      Surroundings.lift, Value.ofConstant, Int32.ofInt_add, Int32.ofInt_sub, Int32.ofInt_mul]
  | div | mod =>
    simp only [onInts] at h
    split at h
    · cases h
    · next hz =>
      obtain ⟨rfl, -⟩ := word_eq_some h
      have nonzero : Int32.ofInt b ≠ 0 := by
        intro h0
        apply hz
        have hb0 : b = 0 := by rw [← toInt_ofInt_word hb, h0]; rfl
        simp [hb0]
      simp [Expr.eval, Meaning.binary, Meaning.arith, Lower.arithmetic, intArith, nonzero,
        Surroundings.lift, Value.ofConstant, Int32.ofInt_tdiv ha.1 ha.2 hb.1 hb.2,
        Int32.ofInt_tmod ha.1 ha.2 hb.1 hb.2]
  | eq | ne | lt | le | gt | ge =>
    rw [onInts_comparison rfl, Option.some.injEq] at h
    subst h
    simp [Expr.eval, Meaning.binary, Meaning.test, Except.map, Surroundings.lift,
      Value.ofConstant, intHolds_ofInt _ ha hb]
  | and | or | xor => simp [onInts] at h

/-- An operator on two boolean literals that folds computes its result. -/
theorem eval_onBools {op : BinOp} {a b : Bool} {v : Expr} (h : onBools op a b = some v) :
    v.eval w = (Expr.binary (.bool a) op (.bool b)).eval w := by
  have operands : (Expr.binary (.bool a) op (.bool b)).eval w =
      w.lift (Meaning.binary op (Value.ofBool a) (Value.ofBool b)) :=
    w.binary_pure op _ _
  rw [operands]
  cases op <;> simp only [onBools, Option.some.injEq, reduceCtorEq] at h <;> subst h <;>
    cases a <;> cases b <;> rfl

/-- The IEEE comparisons folding computes are the machine's tests on the two doubles. -/
theorem onReals_comparison {op : BinOp} (hop : op.isComparison = true) (x y : Float) :
    onReals op x y = some (.bool (realHolds (Lower.comparison op) x y)) := by
  have swapped : Binary64.order y x = (Binary64.order x y).map Ordering.swap :=
    Binary64.order_swap x y
  rw [realHolds_eq_order]
  cases op <;> simp only [BinOp.isComparison, Bool.false_eq_true] at hop <;>
    simp only [onReals, Lower.comparison, Option.some.injEq, Expr.bool.injEq] <;>
    simp only [GT.gt, GE.ge, Binary64.lt_iff_order, Binary64.le_iff_order,
      Binary64.beq_eq_order, bne, swapped] <;>
    cases Binary64.order x y <;> (try rename_i o; cases o) <;> decide

omit [LawfulMonad m] in
/-- A number literal as a double: a real as it is, an integer word widened. -/
theorem asReal_eval {l : Expr} {x : Float} (hfit : l.literalsFit = true)
    (h : asReal l = some x) :
    ∃ L, l.eval w = pure L ∧ L.toDouble? = some x ∧
      ∀ a, L = .int a → ∃ n, l = .int n := by
  cases l with
  | real y =>
    simp only [asReal, Option.some.injEq] at h
    subst h
    exact ⟨.real y, rfl, rfl, fun _ h => by cases h⟩
  | int a =>
    simp only [asReal, Option.some.injEq] at h
    subst h
    have ha : IsWord a := by simpa [Expr.literalsFit] using hfit
    refine ⟨.int (Int32.ofInt a), rfl, ?_, fun _ _ => ⟨a, rfl⟩⟩
    simp [Value.toDouble?, toInt_ofInt_word ha]
  | _ => simp [asReal] at h

/-- On two numbers that are not both integers, the machine widens and computes on doubles. -/
theorem arith_doubles {L R : Value} {x y z : Float} (hL : L.toDouble? = some x)
    (hR : R.toDouble? = some y) (hnot : ∀ a b, L = .int a → R = .int b → False) {op : ArithOp}
    (h : realArith op x y = some z) : Meaning.arith op L R = .ok (.real z) := by
  cases L <;> cases R <;> simp_all [Meaning.arith, Value.toDouble?]

theorem test_doubles {L R : Value} {x y : Float} (hL : L.toDouble? = some x)
    (hR : R.toDouble? = some y) (hnot : ∀ a b, L = .int a → R = .int b → False)
    (c : Condition) :
    Meaning.test c L R = .ok (realHolds c x y) := by
  cases L <;> cases R <;> simp_all [Meaning.test, Value.toDouble?]

/-- An operator on two number literals, not both integers, that folds computes its result:
the double operation, which folding keeps only when it is finite and has no zero divisor. -/
theorem eval_onReals {op : BinOp} {l r v : Expr} {x y : Float} (hl : l.literalsFit = true)
    (hr : r.literalsFit = true) (hnot : ∀ a b, l = .int a → r = .int b → False)
    (hx : asReal l = some x) (hy : asReal r = some y) (h : onReals op x y = some v) :
    v.eval w = (Expr.binary l op r).eval w := by
  obtain ⟨L, hL, hLx, hLi⟩ := asReal_eval w hl hx
  obtain ⟨R, hR, hRy, hRi⟩ := asReal_eval w hr hy
  have notInts : ∀ a b, L = .int a → R = .int b → False := by
    intro a b ha hb
    obtain ⟨n, rfl⟩ := hLi a ha
    obtain ⟨k, rfl⟩ := hRi b hb
    exact hnot n k rfl rfl
  have operands : (Expr.binary l op r).eval w = w.lift (Meaning.binary op L R) := by
    simp only [Expr.eval, hL, hR]
    exact w.binary_pure op L R
  rw [operands]
  cases op with
  | add | sub | mul =>
    simp only [onReals, finite] at h
    split at h
    · cases h
      simp [Expr.eval, Meaning.binary, Lower.arithmetic, arith_doubles hLx hRy notInts,
        realArith, Surroundings.lift, Value.ofConstant]
    · cases h
  | div | mod =>
    simp only [onReals, finite] at h
    split at h
    · cases h
    · split at h
      · cases h
        simp [Expr.eval, Meaning.binary, Lower.arithmetic, arith_doubles hLx hRy notInts,
          realArith, Surroundings.lift, Value.ofConstant]
      · cases h
  | eq | ne | lt | le | gt | ge =>
    rw [onReals_comparison rfl] at h
    cases h
    simp [Expr.eval, Meaning.binary, test_doubles hLx hRy notInts, Except.map,
      Surroundings.lift, Value.ofConstant]
  | and | or | xor => simp [onReals] at h

/-- A folding step computes what it replaces: the literal an operator on literals folds to is
the value the operator computes there, with no effect and no trap. -/
theorem eval_evaluate {e v : Expr} (hfit : e.literalsFit = true) (h : evaluate e = some v) :
    v.eval w = e.eval w := by
  cases e with
  | binary l op r =>
    have fits : l.literalsFit = true ∧ r.literalsFit = true := by
      simpa [Expr.literalsFit] using hfit
    rcases evaluate_binary h with ⟨a, b, rfl, rfl, hv⟩ | ⟨a, b, rfl, rfl, hv⟩ |
      ⟨hnot, x, y, hx, hy, hv⟩
    · have ha : IsWord a := by simpa [Expr.literalsFit] using fits.1
      have hb : IsWord b := by simpa [Expr.literalsFit] using fits.2
      exact eval_onInts w ha hb hv
    · exact eval_onBools w hv
    · exact eval_onReals w fits.1 fits.2 hnot hx hy hv
  | unary op e =>
    rcases evaluate_unary h with ⟨rfl, n, rfl, hv⟩ | ⟨rfl, x, rfl, rfl⟩ |
      ⟨rfl, b, rfl, rfl⟩
    · obtain ⟨rfl, -⟩ := word_eq_some hv
      simp [Expr.eval, Meaning.unary, Surroundings.lift, Value.ofConstant]
    · simp [Expr.eval, Meaning.unary, Surroundings.lift, Value.ofConstant]
    · cases b <;> simp [Expr.eval, Meaning.unary, Surroundings.lift, Value.ofConstant,
        Value.ofBool]
  | _ => simp [evaluate] at h

/-- Settling a node computes what the node computes. -/
theorem eval_settle {e : Expr} (hfit : e.literalsFit = true) (c : Bool) :
    (settle e c).1.eval w = e.eval w := by
  unfold settle
  cases hv : evaluate e with
  | some v => exact eval_evaluate w hfit hv
  | none => rfl

end

/-! ## Folding keeps integer literals words -/

theorem literalsFit_evaluate {e v : Expr} (h : evaluate e = some v) : v.literalsFit = true := by
  obtain ⟨o, literal⟩ := evaluate_literal h
  cases literal with
  | int n => simpa [Expr.literalsFit] using (evaluate_int h).1
  | real x => rfl
  | bool b => rfl

theorem literalsFit_settle {e : Expr} (hfit : e.literalsFit = true) (c : Bool) :
    (settle e c).1.literalsFit = true := by
  unfold settle
  cases hv : evaluate e with
  | some v => exact literalsFit_evaluate hv
  | none => exact hfit

mutual

theorem literalsFit_expr :
    ∀ e : Expr, e.literalsFit = true → (expr e).1.literalsFit = true := by
  intro e he
  cases e with
  | int _ | real _ | bool _ | str _ | var _ | field _ _ => exact literalsFit_settle he false
  | binary l op r =>
    have fits : l.literalsFit = true ∧ r.literalsFit = true := by
      simpa [Expr.literalsFit] using he
    rw [expr_binary]
    refine literalsFit_settle ?_ _
    simp [Expr.literalsFit, literalsFit_expr l fits.1, literalsFit_expr r fits.2]
  | unary op e =>
    rw [expr_unary]
    exact literalsFit_settle (by simpa [Expr.literalsFit] using literalsFit_expr e he) _
  | index a i =>
    rw [expr_index]
    exact literalsFit_settle (by simpa [Expr.literalsFit] using literalsFit_expr i he) _
  | cast e t =>
    rw [expr_cast]
    exact literalsFit_settle (by simpa [Expr.literalsFit] using literalsFit_expr e he) _
  | call n args =>
    rw [expr_call]
    exact literalsFit_settle (by simpa [Expr.literalsFit] using literalsFit_exprs args he) _

theorem literalsFit_exprs :
    ∀ es : List Expr, Expr.argsFit es = true → Expr.argsFit (exprs es).1 = true := by
  intro es hes
  cases es with
  | nil => rfl
  | cons e es =>
    have fits : e.literalsFit = true ∧ Expr.argsFit es = true := by
      simpa [Expr.argsFit] using hes
    simp [exprs_cons, Expr.argsFit, literalsFit_expr e fits.1, literalsFit_exprs es fits.2]

end

/-! ## Folding keeps what an expression computes -/

mutual

/-- A folded expression computes what the expression computes, when its integer literals are
words. The induction follows the expression: every node is rebuilt around its folded operands
and then settled, and settling keeps what the node computes. -/
theorem eval_fold {m : Type → Type} [Monad m] [LawfulMonad m] (w : Surroundings m) :
    ∀ e : Expr, e.literalsFit = true → (expr e).1.eval w = e.eval w := by
  intro e he
  cases e with
  | int _ | real _ | bool _ | str _ | var _ | field _ _ => exact eval_settle w he false
  | binary l op r =>
    have fits : l.literalsFit = true ∧ r.literalsFit = true := by
      simpa [Expr.literalsFit] using he
    rw [expr_binary, eval_settle w (by simp [Expr.literalsFit, literalsFit_expr l fits.1,
      literalsFit_expr r fits.2])]
    simp only [Expr.eval, eval_fold w l fits.1, eval_fold w r fits.2]
  | unary op e =>
    have fits : e.literalsFit = true := by simpa [Expr.literalsFit] using he
    rw [expr_unary, eval_settle w (by simpa [Expr.literalsFit] using literalsFit_expr e fits)]
    simp only [Expr.eval, eval_fold w e fits]
  | index a i =>
    have fits : i.literalsFit = true := by simpa [Expr.literalsFit] using he
    rw [expr_index, eval_settle w (by simpa [Expr.literalsFit] using literalsFit_expr i fits)]
    simp only [Expr.eval, eval_fold w i fits]
  | cast e t =>
    have fits : e.literalsFit = true := by simpa [Expr.literalsFit] using he
    rw [expr_cast, eval_settle w (by simpa [Expr.literalsFit] using literalsFit_expr e fits)]
    simp only [Expr.eval, eval_fold w e fits]
  | call n args =>
    have fits : Expr.argsFit args = true := by simpa [Expr.literalsFit] using he
    rw [expr_call, eval_settle w (by simpa [Expr.literalsFit] using literalsFit_exprs args fits)]
    simp only [Expr.eval, evalArgs_fold w args fits]

theorem evalArgs_fold {m : Type → Type} [Monad m] [LawfulMonad m] (w : Surroundings m) :
    ∀ es : List Expr, Expr.argsFit es = true →
    Expr.evalArgs w (exprs es).1 = Expr.evalArgs w es := by
  intro es hes
  cases es with
  | nil => rfl
  | cons e es =>
    have fits : e.literalsFit = true ∧ Expr.argsFit es = true := by
      simpa [Expr.argsFit] using hes
    simp only [exprs_cons, Expr.evalArgs, eval_fold w e fits.1, evalArgs_fold w es fits.2]

end

end Fold

/-- Constant folding is exact and keeps what expressions compute. An integer literal it
produces is a 32-bit word and the exact integer result of the operation it replaced, division
and remainder truncated, or the negation of a literal, so it never wraps whatever the literals
it starts from; it leaves every integer literal a word when all were. And on an expression whose
integer literals are words, the folded expression computes, in every surroundings and every
monad, what the expression computes: the same value, the same effects in the same order and the
same trap, under 32-bit wrapping integers, trapping division, IEEE doubles with integers widened
in mixed operations, and short-circuit `and` and `or`. -/
theorem folding_is_exact_and_keeps_meaning :
    (∀ (e : Expr) (v : Int), Fold.evaluate e = some (.int v) →
      IsWord v ∧ ((∃ l op r, e = .binary (.int l) op (.int r) ∧ Fold.exactArith op l r = some v) ∨
        ∃ n, e = .unary .neg (.int n) ∧ v = -n)) ∧
    (∀ e : Expr, e.literalsFit = true → (Fold.expr e).1.literalsFit = true) ∧
    (∀ {m : Type → Type} [Monad m] [LawfulMonad m] (w : Surroundings m) (e : Expr),
      e.literalsFit = true → (Fold.expr e).1.eval w = e.eval w) :=
  ⟨fun _ _ h => Fold.evaluate_int h, Fold.literalsFit_expr, fun w e h => Fold.eval_fold w e h⟩

/-- Surroundings that read every variable as `1`, keep a value through a conversion and end
the run at every other step. -/
def readsOne : Surroundings (Except Outcome) where
  var _ := .ok (.int 1)
  element _ _ := .error .invalid
  field _ _ := .error .invalid
  call _ _ := .error .invalid
  convert v _ := .ok v
  stop o := .error o

theorem halving_seven_folds_exactly :
    Fold.evaluate (.binary (.int 7) .div (.int (-2))) = some (.int (-3)) ∧ IsWord (-3) ∧
    (Expr.binary (.var "x") .add (.binary (.int 7) .div (.int (-2)))).literalsFit = true ∧
    (Fold.expr (.binary (.var "x") .add (.binary (.int 7) .div (.int (-2))))).1.literalsFit ∧
    (Fold.expr (.binary (.var "x") .add (.binary (.int 7) .div (.int (-2))))).1.eval readsOne =
      (Expr.binary (.var "x") .add (.binary (.int 7) .div (.int (-2)))).eval readsOne := by
  obtain ⟨exact, fits, faithful⟩ := folding_is_exact_and_keeps_meaning
  have folded : Fold.evaluate (.binary (.int 7) .div (.int (-2))) = some (.int (-3)) := rfl
  have source : (Expr.binary (.var "x") .add (.binary (.int 7) .div (.int (-2)))).literalsFit =
      true := by decide
  exact ⟨folded, (exact _ _ folded).1, source, fits _ source, faithful readsOne _ source⟩

end ImpStack
