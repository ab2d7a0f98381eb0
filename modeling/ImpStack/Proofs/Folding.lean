import ImpStack.Proofs.Recheck
import ImpStack.Rewrite.Optimizer

/-! # Folding keeps what the checker established

  Constant folding replaces an operator applied to literals by the literal it computes. That
  literal has the type the operator had (`Infers.evaluate`), so folding keeps the typing of
  every expression (`Infers.fold`), the judgment of every statement and block
  (`StmtChecks.fold`), and a whole accepted program (`Accepts.fold`), while keeping every
  top-level statement's heading.

  Folding ends in a settled program: a second fold changes nothing (`Fold.expr_idem`,
  `Fold.block_idem`). So the optimizer with folding as its only pass folds once
  (`optimize_fold`), and changes nothing on what it returned.
-/

namespace ImpStack

namespace Ty

theorem binaryResult_real {op : BinOp} {L R : Ty} (hop : op.isArithmetic = true)
    (hL : L = .integer ∨ L = .real) (hR : R = .integer ∨ R = .real)
    (hreal : L = .real ∨ R = .real) : binaryResult op L R = some .real := by
  have hc : op.isComparison = false := by
    cases op <;> simp_all [BinOp.isArithmetic, BinOp.isComparison]
  have hl : op.isLogical = false := by cases op <;> simp_all [BinOp.isArithmetic, BinOp.isLogical]
  simp only [binaryResult, hc, hl, Bool.false_eq_true, ↓reduceIte]
  rcases hL with rfl | rfl <;> rcases hR with rfl | rfl
  · simp [Ty.integer, Ty.real] at hreal
  all_goals rfl

theorem binaryResult_numeric_comparison {op : BinOp} {L R : Ty} (hop : op.isComparison = true)
    (hL : L = .integer ∨ L = .real) (hR : R = .integer ∨ R = .real) :
    binaryResult op L R = some .boolean := by
  simp only [binaryResult, hop, ↓reduceIte]
  rcases hL with rfl | rfl <;> rcases hR with rfl | rfl <;> rfl

end Ty

namespace Fold

/-! ## What one fold computes -/

theorem expr_binary (l : Expr) (op : BinOp) (r : Expr) :
    expr (.binary l op r) = settle (.binary (expr l).1 op (expr r).1) ((expr l).2 || (expr r).2) :=
  rfl

theorem expr_unary (op : UnOp) (e : Expr) :
    expr (.unary op e) = settle (.unary op (expr e).1) (expr e).2 := rfl

theorem expr_index (a : String) (i : Expr) :
    expr (.index a i) = settle (.index a (expr i).1) (expr i).2 := rfl

theorem expr_cast (e : Expr) (t : Ty) : expr (.cast e t) = settle (.cast (expr e).1 t) (expr e).2 :=
  rfl

theorem expr_call (n : String) (args : List Expr) :
    expr (.call n args) = settle (.call n (exprs args).1) (exprs args).2 := rfl

theorem exprs_cons (e : Expr) (es : List Expr) :
    exprs (e :: es) = ((expr e).1 :: (exprs es).1, (expr e).2 || (exprs es).2) := rfl

theorem evaluate_binary {l r v : Expr} {op : BinOp} (h : evaluate (.binary l op r) = some v) :
    (∃ a b, l = .int a ∧ r = .int b ∧ onInts op a b = some v) ∨
    (∃ a b, l = .bool a ∧ r = .bool b ∧ onBools op a b = some v) ∨
    ((∀ a b, l = .int a → r = .int b → False) ∧
      ∃ x y, asReal l = some x ∧ asReal r = some y ∧ onReals op x y = some v) := by
  unfold evaluate at h
  split at h
  next _ a op' b heq =>
    simp only [Expr.binary.injEq] at heq
    obtain ⟨rfl, rfl, rfl⟩ := heq
    exact .inl ⟨a, b, rfl, rfl, h⟩
  next _ a op' b heq =>
    simp only [Expr.binary.injEq] at heq
    obtain ⟨rfl, rfl, rfl⟩ := heq
    exact .inr (.inl ⟨a, b, rfl, rfl, h⟩)
  next _ l' op' r' hint _ heq =>
    simp only [Expr.binary.injEq] at heq
    obtain ⟨rfl, rfl, rfl⟩ := heq
    simp only [Option.bind_eq_bind, Option.bind_eq_some_iff] at h
    obtain ⟨x, hx, y, hy, hv⟩ := h
    exact .inr (.inr ⟨hint, x, y, hx, hy, hv⟩)
  next _ _ heq => cases heq
  next _ _ heq => cases heq
  next _ _ heq => cases heq
  next => cases h

theorem evaluate_unary {e v : Expr} {op : UnOp} (h : evaluate (.unary op e) = some v) :
    (op = .neg ∧ ∃ n, e = .int n ∧ word (-n) = some v) ∨
    (op = .neg ∧ ∃ x, e = .real x ∧ v = .real (-x)) ∨
    (op = .not ∧ ∃ b, e = .bool b ∧ v = .bool !b) := by
  unfold evaluate at h
  split at h
  next _ _ _ _ heq => cases heq
  next _ _ _ _ heq => cases heq
  next _ _ _ _ _ _ heq => cases heq
  next _ n heq =>
    simp only [Expr.unary.injEq] at heq
    obtain ⟨rfl, rfl⟩ := heq
    exact .inl ⟨rfl, n, rfl, h⟩
  next _ x heq =>
    simp only [Expr.unary.injEq] at heq
    obtain ⟨rfl, rfl⟩ := heq
    cases h
    exact .inr (.inl ⟨rfl, x, rfl, rfl⟩)
  next _ b heq =>
    simp only [Expr.unary.injEq] at heq
    obtain ⟨rfl, rfl⟩ := heq
    cases h
    exact .inr (.inr ⟨rfl, b, rfl, rfl⟩)
  next => cases h

theorem word_eq {n : Int} {v : Expr} (h : word n = some v) : v = .int n := by
  unfold word at h
  split at h
  · cases h; rfl
  · cases h

theorem finite_eq {x : Float} {v : Expr} (h : finite x = some v) : v = .real x := by
  unfold finite at h
  split at h
  · cases h; rfl
  · cases h

/-- What folding produces: an integer, real or boolean literal, with its type. -/
inductive Literal : Expr → Option Ty → Prop
  | int (n : Int) : Literal (.int n) (some .integer)
  | real (x : Float) : Literal (.real x) (some .real)
  | bool (b : Bool) : Literal (.bool b) (some .boolean)

theorem Literal.infers {sc : Scopes} {v : Expr} {o : Option Ty} (h : Literal v o) :
    Infers sc v o := by
  cases h with
  | int n => exact .int n
  | real x => exact .real x
  | bool b => exact .bool b

/-- A literal does not fold further. -/
theorem Literal.settled {v : Expr} {o : Option Ty} (h : Literal v o) : expr v = (v, false) := by
  cases h <;> rfl

section Literals

variable {op : BinOp} {v : Expr}

/-- Folding two integers gives a literal of the operator's type on integers. -/
theorem onInts_literal {a b : Int} (h : onInts op a b = some v) :
    Literal v (Ty.binaryResult op .integer .integer) := by
  cases op with
  | add | sub | mul =>
    obtain rfl := word_eq h
    exact .int _
  | div | mod =>
    simp only [onInts] at h
    split at h
    · cases h
    · obtain rfl := word_eq h
      exact .int _
  | lt | le | gt | ge | eq | ne =>
    simp only [onInts] at h
    cases h
    exact .bool _
  | and | or | xor => cases h

/-- Folding two booleans gives a boolean, the operator's type on booleans. -/
theorem onBools_literal {a b : Bool} (h : onBools op a b = some v) :
    Literal v (Ty.binaryResult op .boolean .boolean) := by
  cases op with
  | and | or | xor | eq | ne =>
    simp only [onBools] at h
    cases h
    exact .bool _
  | add | sub | mul | div | mod | lt | le | gt | ge => cases h

/-- Folding two numbers of which one is real gives a literal of the operator's type on them. -/
theorem onReals_literal {x y : Float} {L R : Ty} (h : onReals op x y = some v)
    (hL : L = .integer ∨ L = .real) (hR : R = .integer ∨ R = .real)
    (hreal : L = .real ∨ R = .real) : Literal v (Ty.binaryResult op L R) := by
  cases op with
  | add | sub | mul =>
    obtain rfl := finite_eq h
    rw [Ty.binaryResult_real rfl hL hR hreal]
    exact .real _
  | div | mod =>
    simp only [onReals] at h
    split at h
    · cases h
    · obtain rfl := finite_eq h
      rw [Ty.binaryResult_real rfl hL hR hreal]
      exact .real _
  | lt | le | gt | ge | eq | ne =>
    simp only [onReals] at h
    cases h
    rw [Ty.binaryResult_numeric_comparison rfl hL hR]
    exact .bool _
  | and | or | xor => cases h

/-- An operator that folds gives a literal. -/
theorem evaluate_literal {e : Expr} (h : evaluate e = some v) : ∃ o, Literal v o := by
  cases e with
  | binary l op r =>
    rcases evaluate_binary h with ⟨a, b, rfl, rfl, hv⟩ | ⟨a, b, rfl, rfl, hv⟩ | ⟨_, x, y, _, _, hv⟩
    · exact ⟨_, onInts_literal hv⟩
    · exact ⟨_, onBools_literal hv⟩
    · -- the type does not matter here; read both operands as reals
      exact ⟨_, onReals_literal hv (.inr rfl) (.inr rfl) (.inl (rfl : Ty.real = .real))⟩
  | unary op e =>
    rcases evaluate_unary h with ⟨rfl, n, rfl, hv⟩ | ⟨rfl, x, rfl, rfl⟩ | ⟨rfl, b, rfl, rfl⟩
    · obtain rfl := word_eq hv
      exact ⟨_, .int _⟩
    · exact ⟨_, .real _⟩
    · exact ⟨_, .bool _⟩
  | _ => cases h

end Literals

end Fold

/-! ## Folding keeps types -/

section Typing

variable {sc : Scopes}

/-- A numeric literal read as a double was an integer or a real. -/
theorem Infers.asReal {l : Expr} {ol : Option Ty} {x : Float} (h : Infers sc l ol)
    (hx : Fold.asReal l = some x) :
    ∃ L, ol = some L ∧ (L = .integer ∨ L = .real) ∧ (L = .integer → ∃ a, l = .int a) := by
  cases l with
  | int a =>
    cases h
    exact ⟨_, rfl, .inl rfl, fun _ => ⟨a, rfl⟩⟩
  | real z =>
    cases h
    exact ⟨_, rfl, .inr rfl, fun h => by simp [Ty.real, Ty.integer] at h⟩
  | _ => cases hx

/-- The literal an operator folds to has the operator's type. -/
theorem Infers.evaluate {e v : Expr} {o : Option Ty} (he : Infers sc e o)
    (h : Fold.evaluate e = some v) : Fold.Literal v o := by
  cases he with
  | @binary l r op ol or left right suits =>
    rcases Fold.evaluate_binary h with ⟨a, b, rfl, rfl, hv⟩ | ⟨a, b, rfl, rfl, hv⟩ |
      ⟨hint, x, y, hx, hy, hv⟩
    · cases left
      cases right
      exact Fold.onInts_literal hv
    · cases left
      cases right
      exact Fold.onBools_literal hv
    · -- mixed numbers: one of the two is real
      obtain ⟨L, rfl, hL, hLint⟩ := left.asReal hx
      obtain ⟨R, rfl, hR, hRint⟩ := right.asReal hy
      have hreal : L = .real ∨ R = .real := by
        rcases hL with rfl | rfl
        · rcases hR with rfl | rfl
          · obtain ⟨a, rfl⟩ := hLint rfl
            obtain ⟨b, rfl⟩ := hRint rfl
            exact (hint a b rfl rfl).elim
          · exact .inr rfl
        · exact .inl rfl
      exact Fold.onReals_literal hv hL hR hreal
  | unary operand suits =>
    rcases Fold.evaluate_unary h with ⟨rfl, n, rfl, hv⟩ | ⟨rfl, x, rfl, rfl⟩ | ⟨rfl, b, rfl, rfl⟩
    · cases operand
      obtain rfl := Fold.word_eq hv
      exact .int _
    · cases operand
      exact .real _
    · cases operand
      exact .bool _
  | _ => cases h

theorem Infers.settle {e : Expr} {o : Option Ty} (he : Infers sc e o) (c : Bool) :
    Infers sc (Fold.settle e c).1 o := by
  unfold Fold.settle
  split
  · rename_i v hv
    exact (he.evaluate hv).infers
  · exact he

theorem ArgsInfer.length_eq {ps : List Ty} {args : List Expr} (h : ArgsInfer sc ps args) :
    ps.length = args.length := by
  cases h with
  | nil => rfl
  | cons _ _ tail => simp [tail.length_eq]

mutual

/-- Folding an expression keeps its type. -/
theorem Infers.fold : ∀ {e : Expr} {o : Option Ty}, Infers sc e o → Infers sc (Fold.expr e).1 o := by
  intro e o he
  cases he with
  | int v => exact (Infers.int v).settle false
  | real x => exact (Infers.real x).settle false
  | bool b => exact (Infers.bool b).settle false
  | str s => exact (Infers.str s).settle false
  | var found => exact (Infers.var found).settle false
  | binary left right suits =>
    rw [Fold.expr_binary]
    exact (Infers.binary left.fold right.fold suits).settle _
  | unary operand suits =>
    rw [Fold.expr_unary]
    exact (Infers.unary operand.fold suits).settle _
  | index found index integer =>
    rw [Fold.expr_index]
    exact (Infers.index found index.fold integer).settle _
  | field found record member => exact (Infers.field found record member).settle false
  | call found count arguments nonVoid =>
    have arguments' := arguments.fold
    rw [Fold.expr_call]
    exact (Infers.call found arguments'.length_eq arguments' nonVoid).settle _
  | cast operand valid resolved castable =>
    rw [Fold.expr_cast]
    exact (Infers.cast operand.fold valid resolved castable).settle _

/-- Folding call arguments keeps their typing against the parameters. -/
theorem ArgsInfer.fold : ∀ {ps : List Ty} {args : List Expr}, ArgsInfer sc ps args →
    ArgsInfer sc ps (Fold.exprs args).1 := by
  intro ps args ha
  cases ha with
  | nil => exact .nil
  | cons head suits tail =>
    rw [Fold.exprs_cons]
    exact .cons head.fold suits tail.fold

end

end Typing


/-! ## Folding keeps statements checked -/

namespace Fold

theorem optExpr_some (e : Expr) : optExpr (some e) = (some (expr e).1, (expr e).2) := rfl

theorem stmt_varDecl (n : String) (t : Option Ty) (i : Option Expr) :
    stmt (.varDecl n t i) = (.varDecl n t (optExpr i).1, (optExpr i).2) := rfl

theorem stmt_assign_var (n : String) (v : Expr) :
    stmt (.assign (.var n) v) = (.assign (.var n) (expr v).1, (expr v).2) := rfl

theorem stmt_assign_element (a : String) (i v : Expr) :
    stmt (.assign (.element a i) v) =
      (.assign (.element a (expr i).1) (expr v).1, (expr i).2 || (expr v).2) := rfl

theorem stmt_assign_field (r f : String) (v : Expr) :
    stmt (.assign (.field r f) v) = (.assign (.field r f) (expr v).1, (expr v).2) := rfl

theorem stmt_ifThen (c : Expr) (t e : List Stmt) :
    stmt (.ifThen c t e) =
      (.ifThen (expr c).1 (block t).1 (block e).1, (expr c).2 || (block t).2 || (block e).2) := rfl

theorem stmt_whileDo (c : Expr) (b : List Stmt) :
    stmt (.whileDo c b) = (.whileDo (expr c).1 (block b).1, (expr c).2 || (block b).2) := rfl

theorem stmt_forRange (v : String) (s e : Expr) (r : Bool) (b : List Stmt) :
    stmt (.forRange v s e r b) =
      (.forRange v (expr s).1 (expr e).1 r (block b).1, (expr s).2 || (expr e).2 || (block b).2) :=
  rfl

theorem stmt_routine (n : String) (ps : List Param) (r : Option Ty) (b : List Stmt) :
    stmt (.routine n ps r b) = (.routine n ps r (block b).1, (block b).2) := rfl

theorem stmt_call (n : String) (args : List Expr) :
    stmt (.call n args) = (.call n (exprs args).1, (exprs args).2) := rfl

theorem stmt_ret (v : Option Expr) : stmt (.ret v) = (.ret (optExpr v).1, (optExpr v).2) := rfl

theorem stmt_print (e : Expr) : stmt (.print e) = (.print (expr e).1, (expr e).2) := rfl

theorem block_cons (s : Stmt) (ss : List Stmt) :
    block (s :: ss) = ((stmt s).1 :: (block ss).1, (stmt s).2 || (block ss).2) := rfl

theorem block_fst (ss : List Stmt) : (block ss).1 = ss.map fun s => (stmt s).1 := by
  induction ss with
  | nil => rfl
  | cons s ss ih =>
    show (stmt s).1 :: (block ss).1 = _
    rw [ih, List.map_cons]

/-- Folding keeps a statement's heading, so the passes see the same declarations. -/
theorem stmt_heading (s : Stmt) : (stmt s).1.heading = s.heading := by
  cases s with
  | assign t v => cases t <;> rfl
  | _ => rfl

/-- A folded routine declaration is the declaration with its body folded. -/
theorem stmt_eq_routine {s : Stmt} {n : String} {ps : List Param} {r : Option Ty}
    {b : List Stmt} (h : (stmt s).1 = .routine n ps r b) :
    ∃ b₀, s = .routine n ps r b₀ ∧ b = (block b₀).1 := by
  cases s with
  | routine n' ps' r' b₀ =>
    cases h
    exact ⟨b₀, rfl, rfl⟩
  | assign t v => cases t <;> cases h
  | _ => cases h

theorem endsWithReturn_cons_cons (s s' : Stmt) (rest : List Stmt) :
    endsWithReturn (s :: s' :: rest) = endsWithReturn (s' :: rest) := by
  simp only [endsWithReturn]

/-- Folding keeps whether a block ends in a return on every path. -/
theorem endsWithReturn_block : ∀ b : List Stmt, endsWithReturn (block b).1 = endsWithReturn b := by
  intro b
  cases b with
  | nil => rfl
  | cons s rest =>
    cases rest with
    | nil =>
      -- a last statement: a return, a conditional whose branches are looked at, or neither
      cases s with
      | ifThen c t e =>
        show endsWithReturn [.ifThen _ (block t).1 (block e).1] = _
        simp only [endsWithReturn, endsWithReturn_block t, endsWithReturn_block e]
      | assign t v => cases t <;> simp [Fold.block_fst, Fold.stmt, endsWithReturn]
      | _ => simp [Fold.block_fst, Fold.stmt, endsWithReturn]
    | cons s' rest =>
      show endsWithReturn ((stmt s).1 :: (stmt s').1 :: (block rest).1) = _
      rw [endsWithReturn_cons_cons, endsWithReturn_cons_cons]
      exact endsWithReturn_block (s' :: rest)

end Fold

section Statements

variable {loops : Bool} {ret : Option Ty}

theorem StoresInto.fold {sc : Scopes} {T : Ty} {v : Expr} (h : StoresInto sc T v) :
    StoresInto sc T (Fold.expr v).1 := by
  obtain ⟨o, hv, hc⟩ := h
  exact ⟨o, hv.fold, hc⟩

mutual

/-- Folding a statement keeps its judgment: the same scopes before and after. -/
theorem StmtChecks.fold : ∀ {sc sc' : Scopes} {s : Stmt}, StmtChecks loops ret sc s sc' →
    StmtChecks loops ret sc (Fold.stmt s).1 sc' := by
  intro sc sc' s h
  cases h with
  | @declare _ n t T init fresh valid resolved initial =>
    refine .declare fresh valid resolved fun i hi => ?_
    cases init with
    | none => cases hi
    | some i₀ =>
      cases hi
      exact (initial i₀ rfl).fold
  | declareUntyped fresh initial => exact .declareUntyped fresh initial.fold
  | array fresh positive valid resolved => exact .array fresh positive valid resolved
  | assign target value =>
    cases target with
    | var found => exact .assign (.var found) fun T hT => (value T hT).fold
    | element found index integer =>
      exact .assign (.element found index.fold integer) fun T hT => (value T hT).fold
    | field found record member =>
      exact .assign (.field found record member) fun T hT => (value T hT).fold
  | ifThen cond boolean thenBranch elseBranch =>
    exact .ifThen cond.fold boolean thenBranch.fold elseBranch.fold
  | whileDo cond boolean body => exact .whileDo cond.fold boolean body.fold
  | forRange start startInteger stop stopInteger loopVariable stopInLoop body =>
    exact .forRange start.fold startInteger stop.fold stopInteger loopVariable stopInLoop.fold
      body.fold
  | call found count arguments =>
    have arguments' := arguments.fold
    exact .call found arguments'.length_eq arguments'
  | retValue routine nonVoid value => exact .retValue routine nonVoid value.fold
  | retNone routine void => exact .retNone routine void
  | print value printable => exact .print value.fold printable

/-- Folding a block keeps its judgment. -/
theorem BlockChecks.fold : ∀ {sc sc' : Scopes} {ss : List Stmt}, BlockChecks loops ret sc ss sc' →
    BlockChecks loops ret sc (Fold.block ss).1 sc' := by
  intro sc sc' ss h
  cases h with
  | nil => exact .nil
  | cons head tail => exact .cons head.fold tail.fold

end

theorem RoutineChecks.fold {sc : Scopes} {ps : List Param} {r : Option Ty} {b : List Stmt}
    (h : RoutineChecks loops sc ps r b) : RoutineChecks loops sc ps r (Fold.block b).1 := by
  obtain ⟨params, returns, body, ends⟩ := h
  refine .intro params returns body.fold fun hR => ?_
  rw [Fold.endsWithReturn_block]
  exact ends hR

/-- Folding an accepted program keeps it accepted, from and to the same scopes. -/
theorem Accepts.fold {sc sc' : Scopes} {ss : List Stmt} (h : Accepts loops sc sc' ss) :
    Accepts loops sc sc' (Fold.block ss).1 where
  globals := by
    -- folding commutes with picking the globals, which it does not change the kind of
    have keeps : ∀ s, ((Fold.stmt s).1).declaresGlobal = s.declaresGlobal := fun s => by
      rw [Stmt.declaresGlobal_eq_heading, Fold.stmt_heading, ← Stmt.declaresGlobal_eq_heading]
    have hfilter : ((Fold.block ss).1).filter Stmt.declaresGlobal =
        (Fold.block (ss.filter Stmt.declaresGlobal)).1 := by
      rw [Fold.block_fst, Fold.block_fst, List.filter_map, List.map_inj_left.mpr fun _ _ => rfl]
      congr 1
      exact List.filter_congr fun s _ => keeps s
    rw [hfilter]
    exact h.globals.fold
  routines := by
    intro n ps r b hb
    rw [Fold.block_fst, List.mem_map] at hb
    obtain ⟨s, hs, hfold⟩ := hb
    obtain ⟨b₀, rfl, rfl⟩ := Fold.stmt_eq_routine hfold
    exact (h.routines n ps r b₀ hs).fold
  main := by
    intro s hs hdecl
    rw [Fold.block_fst, List.mem_map] at hs
    obtain ⟨s₀, hs₀, rfl⟩ := hs
    have hdecl₀ : Check.isDeclaration s₀ = false := by
      rw [Stmt.isDeclaration_eq_heading, ← Fold.stmt_heading, ← Stmt.isDeclaration_eq_heading]
      exact hdecl
    exact (h.main s₀ hs₀ hdecl₀).fold

end Statements

/-! ## Folding twice -/

namespace Fold

/-- Settling an operator whose operands are settled gives a settled expression: either the
literal it folds to, or the operator itself, which folds no further. -/
theorem settle_idem {e : Expr} (c : Bool) (h : evaluate e = none → expr e = (e, false)) :
    expr (settle e c).1 = ((settle e c).1, false) := by
  unfold settle
  cases hv : evaluate e with
  | some v =>
    obtain ⟨_, literal⟩ := evaluate_literal hv
    exact literal.settled
  | none => exact h hv

mutual

/-- A folded expression folds no further. -/
theorem expr_idem : ∀ e : Expr, expr (expr e).1 = ((expr e).1, false) := by
  intro e
  cases e with
  | int _ | real _ | bool _ | str _ | var _ | field _ _ => exact settle_idem false fun _ => rfl
  | binary l op r =>
    rw [expr_binary]
    refine settle_idem _ fun hv => ?_
    simp only [expr_binary, expr_idem l, expr_idem r, Bool.or_false, settle, hv]
  | unary op e =>
    rw [expr_unary]
    refine settle_idem _ fun hv => ?_
    simp only [expr_unary, expr_idem e, settle, hv]
  | index a i =>
    rw [expr_index]
    refine settle_idem _ fun hv => ?_
    simp only [expr_index, expr_idem i, settle, hv]
  | call n args =>
    rw [expr_call]
    refine settle_idem _ fun hv => ?_
    simp only [expr_call, exprs_idem args, settle, hv]
  | cast e t =>
    rw [expr_cast]
    refine settle_idem _ fun hv => ?_
    simp only [expr_cast, expr_idem e, settle, hv]

theorem exprs_idem : ∀ es : List Expr, exprs (exprs es).1 = ((exprs es).1, false) := by
  intro es
  cases es with
  | nil => rfl
  | cons e es => simp only [exprs_cons, expr_idem e, exprs_idem es, Bool.or_false]

end

theorem optExpr_idem (i : Option Expr) : optExpr (optExpr i).1 = ((optExpr i).1, false) := by
  cases i with
  | none => rfl
  | some e => simp only [optExpr_some, expr_idem]

mutual

/-- A folded statement folds no further. -/
theorem stmt_idem : ∀ s : Stmt, stmt (stmt s).1 = ((stmt s).1, false) := by
  intro s
  cases s with
  | varDecl n t i => simp only [stmt_varDecl, optExpr_idem]
  | arrayDecl | recordType | typeAlias => rfl
  | assign t v =>
    cases t with
    | var n => simp only [stmt_assign_var, expr_idem]
    | element a i => simp only [stmt_assign_element, expr_idem, Bool.or_false]
    | field r f => simp only [stmt_assign_field, expr_idem]
  | ifThen c t e => simp only [stmt_ifThen, expr_idem, block_idem t, block_idem e, Bool.or_false]
  | whileDo c b => simp only [stmt_whileDo, expr_idem, block_idem b, Bool.or_false]
  | forRange v s e r b => simp only [stmt_forRange, expr_idem, block_idem b, Bool.or_false]
  | routine n ps r b => simp only [stmt_routine, block_idem b]
  | call n args => simp only [stmt_call, exprs_idem]
  | ret v => simp only [stmt_ret, optExpr_idem]
  | print e => simp only [stmt_print, expr_idem]

/-- A folded block folds no further. -/
theorem block_idem : ∀ ss : List Stmt, block (block ss).1 = ((block ss).1, false) := by
  intro ss
  cases ss with
  | nil => rfl
  | cons s ss => simp only [block_cons, stmt_idem s, block_idem ss, Bool.or_false]

end

end Fold

theorem foldConstants_eq (p : Program) :
    foldConstants p = (⟨(Fold.block p.statements).1⟩, (Fold.block p.statements).2) := rfl

/-- A folded program folds no further. -/
theorem foldConstants_idem (p : Program) :
    foldConstants (foldConstants p).1 = ((foldConstants p).1, false) := by
  rw [foldConstants_eq, foldConstants_eq]
  simp only [Fold.block_idem]

/-! ## The optimizer with folding alone -/

/-- With no pass, the optimizer returns the program it was given. -/
theorem optimize_nil (p : Program) : (optimize [] p).1 = p := rfl

theorem optimizeFor_succ (passes : List Pass) (n : Nat) (p : Program) :
    optimizeFor passes (n + 1) p =
      if (optimizeRound passes p).2.1 then
        ((optimizeFor passes n (optimizeRound passes p).1).1,
          (optimizeRound passes p).2.2 ++ (optimizeFor passes n (optimizeRound passes p).1).2)
      else ((optimizeRound passes p).1, (optimizeRound passes p).2.2) := rfl

/-- One round of folding alone folds once, and says whether that changed anything. -/
theorem optimizeRound_fold (p : Program) :
    (optimizeRound [.fold] p).1 = (foldConstants p).1 ∧
      (optimizeRound [.fold] p).2.1 = (foldConstants p).2 := by
  simp only [optimizeRound, List.foldl_cons, List.foldl_nil, Pass.run]
  by_cases hc : (foldConstants p).2 = true <;> simp [hc]

/-- Folding alone stops at once on a program that folding leaves as it is. -/
theorem optimizeFor_fold_settled {p : Program} (h : foldConstants p = (p, false)) :
    ∀ n, (optimizeFor [.fold] n p).1 = p := by
  intro n
  cases n with
  | zero => rfl
  | succ n =>
    obtain ⟨h₁, h₂⟩ := optimizeRound_fold p
    rw [h] at h₁ h₂
    rw [optimizeFor_succ, h₂]
    exact h₁

/-- The optimizer with folding alone folds once: the second round, if there is one, finds
nothing left to fold. -/
theorem optimize_fold (p : Program) : (optimize [.fold] p).1 = (foldConstants p).1 := by
  obtain ⟨h₁, h₂⟩ := optimizeRound_fold p
  show (optimizeFor [.fold] (9 + 1) p).1 = _
  rw [optimizeFor_succ]
  cases hc : (optimizeRound [.fold] p).2.1
  · exact h₁
  · rw [if_pos rfl, h₁]
    exact optimizeFor_fold_settled (foldConstants_idem p) 9

end ImpStack
