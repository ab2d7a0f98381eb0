import ImpStack.Proofs.Reanalysis

/-! # Folding is invisible to the checker

  The checker types an expression by a computation in its state monad: a result, diagnostics,
  and the names it used. Folding an expression leaves that whole computation as it was
  (`typeOf_fold`), whether the expression is well typed or not. The reason is local: an
  operator folds only when its operands are literals whose types the operator accepts, and it
  folds to a literal of exactly the operator's result type (`evaluate_typed`); typing such a
  node reports nothing, and neither does typing the literal.

  Statement by statement the same holds, up to the statements the checker hands back: checking
  a folded statement is checking the statement and folding what comes back (`checkStmt_fold`),
  and so for the whole walk (`walk_fold`). Hence the diagnostics of a folded program are those
  of the program.
-/

namespace ImpStack

open Fold

/-! ## One operator -/

section Nodes

variable {l r x v : Expr} {op : BinOp} {a b t : Ty}

theorem Fold.Literal.typeOf {o : Option Ty} (h : Literal v o) : Check.typeOf v = pure o := by
  cases h <;> rfl

theorem Fold.Literal.isSome {o : Option Ty} (h : Literal v o) : ∃ T, o = some T := by
  cases h <;> exact ⟨_, rfl⟩

theorem Check.binaryType_of_result (h : Ty.binaryResult op a b = some t) :
    Check.binaryType op a b = pure (some t) := by
  simp [Check.binaryType, h]

/-- An operator on two literals is typed by the operator's rule alone. -/
theorem typeOf_binary_literals (hl : Literal l (some a)) (hr : Literal r (some b)) :
    Check.typeOf (.binary l op r) = Check.binaryType op a b := by
  cases hl <;> cases hr <;> rfl

/-- A numeric literal read as a double is an integer or a real literal. -/
theorem asReal_literal {x : Float} (h : asReal l = some x) :
    ∃ L, Literal l (some L) ∧ (L = .integer ∨ L = .real) ∧ (L = .integer → ∃ n, l = .int n) := by
  cases l with
  | int n => exact ⟨_, .int n, .inl rfl, fun _ => ⟨n, rfl⟩⟩
  | real y => exact ⟨_, .real y, .inr rfl, fun h => by simp [Ty.real, Ty.integer] at h⟩
  | _ => cases h

/-- A binary operator folds only on literals that it accepts, and to a literal of its type. -/
theorem evaluate_binary_typed (h : evaluate (.binary l op r) = some v) :
    ∃ a b t, Literal l (some a) ∧ Literal r (some b) ∧ Ty.binaryResult op a b = some t ∧
      Literal v (some t) := by
  rcases evaluate_binary h with ⟨m, n, rfl, rfl, hv⟩ | ⟨m, n, rfl, rfl, hv⟩ |
    ⟨hint, y, z, hy, hz, hv⟩
  · have literal := onInts_literal hv
    obtain ⟨T, hT⟩ := literal.isSome
    exact ⟨_, _, T, .int m, .int n, hT, hT ▸ literal⟩
  · have literal := onBools_literal hv
    obtain ⟨T, hT⟩ := literal.isSome
    exact ⟨_, _, T, .bool m, .bool n, hT, hT ▸ literal⟩
  · -- mixed numbers: at least one operand is a real
    obtain ⟨L, hl, hL, hLint⟩ := asReal_literal hy
    obtain ⟨R, hr, hR, hRint⟩ := asReal_literal hz
    have hreal : L = .real ∨ R = .real := by
      rcases hL with rfl | rfl
      · rcases hR with rfl | rfl
        · obtain ⟨m, rfl⟩ := hLint rfl
          obtain ⟨n, rfl⟩ := hRint rfl
          exact (hint m n rfl rfl).elim
        · exact .inr rfl
      · exact .inl rfl
    have literal := onReals_literal hv hL hR hreal
    obtain ⟨T, hT⟩ := literal.isSome
    exact ⟨L, R, T, hl, hr, hT, hT ▸ literal⟩

/-- A unary operator folds only on a literal that it accepts, and to a literal of its type. -/
theorem evaluate_unary_typed {op : UnOp} (h : evaluate (.unary op x) = some v) :
    ∃ a t, Literal x (some a) ∧ Ty.unaryResult op a = some t ∧ Literal v (some t) := by
  rcases evaluate_unary h with ⟨rfl, n, rfl, hv⟩ | ⟨rfl, y, rfl, rfl⟩ | ⟨rfl, c, rfl, rfl⟩
  · obtain rfl := word_eq hv
    exact ⟨_, _, .int n, rfl, .int _⟩
  · exact ⟨_, _, .real y, rfl, .real _⟩
  · exact ⟨_, _, .bool c, rfl, .bool _⟩

/-- Folding replaces only an operator on literals that it accepts, by a literal of its result
type. -/
theorem evaluate_typed {e : Expr} (h : evaluate e = some v) :
    (∃ l op r a b t, e = .binary l op r ∧ Literal l (some a) ∧ Literal r (some b) ∧
      Ty.binaryResult op a b = some t ∧ Literal v (some t)) ∨
    (∃ op x a t, e = .unary op x ∧ Literal x (some a) ∧ Ty.unaryResult op a = some t ∧
      Literal v (some t)) := by
  cases e with
  | binary l op r =>
    obtain ⟨a, b, t, hl, hr, ht, hv⟩ := evaluate_binary_typed h
    exact .inl ⟨l, op, r, a, b, t, rfl, hl, hr, ht, hv⟩
  | unary op x =>
    obtain ⟨a, t, hx, ht, hv⟩ := evaluate_unary_typed h
    exact .inr ⟨op, x, a, t, rfl, hx, ht, hv⟩
  | _ => cases h

/-- What an operator folds to is typed as the operator was, with nothing reported either way. -/
theorem typeOf_evaluate {e : Expr} (h : evaluate e = some v) : Check.typeOf v = Check.typeOf e := by
  rcases evaluate_typed h with ⟨l, op, r, a, b, t, rfl, hl, hr, ht, hv⟩ |
    ⟨op, x, a, t, rfl, hx, ht, hv⟩
  · rw [hv.typeOf, typeOf_binary_literals hl hr, Check.binaryType_of_result ht]
  · rw [hv.typeOf]
    cases hx <;> simp only [Check.typeOf, pure_bind, ht]

theorem typeOf_settle (e : Expr) (c : Bool) : Check.typeOf (settle e c).1 = Check.typeOf e := by
  unfold settle
  cases hv : evaluate e with
  | some v => exact typeOf_evaluate hv
  | none => rfl

end Nodes

/-! ## Expressions -/

theorem Fold.exprs_length : ∀ es : List Expr, (exprs es).1.length = es.length := by
  intro es
  induction es with
  | nil => rfl
  | cons e es ih => simp [exprs_cons, ih]

/-- The callee of a call is looked up by name and checked against the number of arguments. -/
theorem Check.callee_congr {name : String} {args args' : List Expr}
    (h : args'.length = args.length) : Check.callee name args' = Check.callee name args := by
  simp only [Check.callee, h]

mutual

/-- Typing a folded expression is typing the expression: the same result, the same reports and
the same names used, from every state. -/
theorem typeOf_fold : ∀ e : Expr, Check.typeOf (expr e).1 = Check.typeOf e := by
  intro e
  cases e with
  | int _ | real _ | bool _ | str _ | var _ | field _ _ => exact typeOf_settle _ false
  | binary l op r =>
    rw [expr_binary, typeOf_settle, Check.typeOf, Check.typeOf, typeOf_fold l, typeOf_fold r]
  | unary op e => rw [expr_unary, typeOf_settle, Check.typeOf, Check.typeOf, typeOf_fold e]
  | index a i => rw [expr_index, typeOf_settle, Check.typeOf, Check.typeOf, typeOf_fold i]
  | cast e t => rw [expr_cast, typeOf_settle, Check.typeOf, Check.typeOf, typeOf_fold e]
  | call n args =>
    rw [expr_call, typeOf_settle, Check.typeOf, Check.typeOf,
      Check.callee_congr (exprs_length args)]
    simp only [checkArguments_fold]

theorem checkArguments_fold (name : String) (params : List Ty) :
    ∀ (index : Nat) (args : List Expr),
      Check.checkArguments name params index (exprs args).1 =
        Check.checkArguments name params index args := by
  intro index args
  cases args with
  | nil => rfl
  | cons a rest =>
    rw [exprs_cons, Check.checkArguments, Check.checkArguments, typeOf_fold a,
      checkArguments_fold name params (index + 1) rest]

end

/-! ## Statements -/

/-- Checking a declaration with a folded initializer is checking it and folding the statement
it returns: the initializer is only typed, and handed back. -/
theorem checkVarDecl_fold (n : String) (t : Option Ty) (i : Option Expr) :
    Check.checkVarDecl n t (optExpr i).1 = (fun s => (stmt s).1) <$> Check.checkVarDecl n t i := by
  -- the two sides run the same steps; split them branch by branch, down to the statement returned
  cases i with
  | none =>
    simp only [optExpr, Check.checkVarDecl, map_bind]
    congr 1; funext sc
    split
    · simp [stmt_varDecl, optExpr]
    · cases t with
      | some t =>
        simp only [map_bind]
        congr 1; funext r
        cases r <;> simp [stmt_varDecl, optExpr]
      | none => simp [stmt_varDecl, optExpr]
  | some e =>
    simp only [optExpr_some, Check.checkVarDecl, typeOf_fold, map_bind]
    congr 1; funext sc
    split
    · simp [stmt_varDecl, optExpr_some]
    · cases t with
      | some t =>
        simp only [map_bind]
        congr 1; funext r
        cases r with
        | none => simp [stmt_varDecl, optExpr_some]
        | some d =>
          simp only [map_bind]
          congr 1; funext a
          cases a with
          | none => simp [stmt_varDecl, optExpr_some]
          | some a => cases hc : d.compatible a <;> simp [hc, stmt_varDecl, optExpr_some]
      | none =>
        simp only [map_bind]
        congr 1; funext a
        cases a <;> simp [stmt_varDecl, optExpr_some]

theorem checkReturn_fold (v : Option Expr) : Check.checkReturn (optExpr v).1 = Check.checkReturn v := by
  cases v with
  | none => rfl
  | some e => simp only [optExpr_some, Check.checkReturn, typeOf_fold]

theorem checkPrint_fold (e : Expr) : Check.checkPrint (expr e).1 = Check.checkPrint e := by
  simp only [Check.checkPrint, typeOf_fold]

/-- An array element is typed by its array and index; the folded index is typed as the index. -/
theorem targetType_element_fold (a : String) (i : Expr) :
    Check.targetType (.element a (expr i).1) = Check.targetType (.element a i) := by
  simp only [Check.targetType, typeOf_fold]

/-- An assignment is checked by its target's type and root and its value's type. -/
theorem checkAssignment_fold {t t' : Target} (ht : Check.targetType t' = Check.targetType t)
    (hr : t'.root = t.root) (v : Expr) :
    Check.checkAssignment t' (expr v).1 = Check.checkAssignment t v := by
  simp only [Check.checkAssignment, ht, hr, typeOf_fold]

mutual

/-- Checking a folded statement is checking the statement and folding what the check returns. -/
theorem checkStmt_fold : ∀ s : Stmt,
    Check.checkStmt (stmt s).1 = (fun s' => (stmt s').1) <$> Check.checkStmt s := by
  intro s
  cases s with
  | varDecl n t i => rw [stmt_varDecl, Check.checkStmt, Check.checkStmt]; exact checkVarDecl_fold n t i
  | arrayDecl n e size => simp [Check.checkStmt, stmt]
  | assign t v =>
    cases t with
    | var n => simp [stmt_assign_var, Check.checkStmt, checkAssignment_fold rfl rfl]
    | element a i =>
      simp [stmt_assign_element, Check.checkStmt,
        checkAssignment_fold (targetType_element_fold a i) rfl]
    | field r f => simp [stmt_assign_field, Check.checkStmt, checkAssignment_fold rfl rfl]
  | ifThen c t e =>
    simp [stmt_ifThen, Check.checkStmt, typeOf_fold, checkStmts_fold t, checkStmts_fold e]
  | whileDo c b => simp [stmt_whileDo, Check.checkStmt, typeOf_fold, checkStmts_fold b]
  | forRange v s e r b =>
    simp [stmt_forRange, Check.checkStmt, typeOf_fold, checkStmts_fold b]
  | routine n ps r b => simp [stmt_routine, Check.checkStmt]
  | call n args =>
    simp only [stmt_call, Check.checkStmt, Check.callee_congr (exprs_length args),
      checkArguments_fold, map_bind]
    congr 1; funext sig
    cases sig <;> simp [stmt_call]
  | ret v => simp [stmt_ret, Check.checkStmt, checkReturn_fold]
  | print e => simp [stmt_print, Check.checkStmt, checkPrint_fold]
  | recordType n fs => simp [Check.checkStmt, stmt]
  | typeAlias n t => simp [Check.checkStmt, stmt]

theorem checkStmts_fold : ∀ ss : List Stmt,
    Check.checkStmts (block ss).1 = (fun ss' => (block ss').1) <$> Check.checkStmts ss := by
  intro ss
  cases ss with
  | nil => simp [Check.checkStmts, block]
  | cons s rest => simp [block_cons, Check.checkStmts, checkStmt_fold s, checkStmts_fold rest]

end

/-! ## The walk -/

section Walk

open Check

theorem checkRoutineBody_fold (n : String) (ps : List Param) (r : Option Ty) (b : List Stmt) :
    checkRoutineBody n ps r (block b).1 = (fun b' => (block b').1) <$> checkRoutineBody n ps r b := by
  cases r <;> simp [checkRoutineBody, checkStmts_fold, endsWithReturn_block,
    apply_ite (fun m : CheckM (List Stmt) => (fun b' => (block b').1) <$> m)]

theorem checkGlobal_fold (s : Stmt) :
    checkGlobal (stmt s).1 = (fun s' => (stmt s').1) <$> checkGlobal s := by
  rw [checkGlobal_eq, checkGlobal_eq, Stmt.declaresGlobal_eq_heading, stmt_heading,
    ← Stmt.declaresGlobal_eq_heading]
  split
  · exact checkStmt_fold s
  · simp

theorem checkRoutine_fold (s : Stmt) :
    checkRoutine (stmt s).1 = (fun s' => (stmt s').1) <$> checkRoutine s := by
  cases s with
  | routine n ps r b => simp [stmt_routine, checkRoutine, checkRoutineBody_fold]
  | assign t v => cases t <;> simp [checkRoutine, stmt]
  | _ => simp [checkRoutine, stmt]

theorem checkMain_fold (s : Stmt) :
    checkMain (stmt s).1 = (fun s' => (stmt s').1) <$> checkMain s := by
  rw [checkMain, checkMain, Stmt.isDeclaration_eq_heading, stmt_heading,
    ← Stmt.isDeclaration_eq_heading]
  split
  · simp
  · exact checkStmt_fold s

/-- A pass run statement by statement over a folded block is the pass run over the block, its
statements folded afterwards, when that holds of each statement. -/
theorem mapM_fold {f g : Stmt → CheckM Stmt}
    (h : ∀ s, g (stmt s).1 = (fun s' => (stmt s').1) <$> f s) :
    ∀ ss : List Stmt, (block ss).1.mapM g = (fun ss' => (block ss').1) <$> ss.mapM f := by
  intro ss
  induction ss with
  | nil => simp [block]
  | cons s rest ih => simp [block_cons, List.mapM_cons, h, ih]

/-- Walking a folded program is walking the program and folding what the walk returns. -/
theorem walk_fold (p : Program) :
    walk (foldConstants p).1 = (fun q => (foldConstants q).1) <$> walk p := by
  obtain ⟨ss⟩ := p
  -- the first two passes read only the statements' headings, which folding keeps
  have hdecl : declarations (block ss).1 = declarations ss := by
    have hhead : (block ss).1.map Stmt.heading = ss.map Stmt.heading := by
      rw [block_fst, List.map_map]
      exact List.map_congr_left fun s _ => stmt_heading s
    obtain ⟨hsig, htypes⟩ := declarations_congr ss (block ss).1 hhead
    simp only [declarations, hsig, htypes]
  rw [walk_eq, walk_eq, foldConstants_eq]
  simp [hdecl, mapM_fold checkGlobal_fold, mapM_fold checkRoutine_fold, mapM_fold checkMain_fold,
    foldConstants_eq]

end Walk

/-- Folding constants is invisible to the checker. Typing a folded expression is typing the
expression: the same result, the same reports and the same names used, from every state. A
folded program, checked with both rewrites off, gets exactly the diagnostics of the program.
And folding replaces only an operator whose literal operands it accepts, by a literal of the
operator's result type. -/
theorem folding_keeps_checker_verdicts :
    (∀ e : Expr, Check.typeOf (Fold.expr e).1 = Check.typeOf e) ∧
    (∀ (p : Program) (o : CheckOptions),
      (analyze { foldConstants := false, removeUnused := false } (foldConstants p).1).diagnostics =
        (analyze o p).diagnostics) ∧
    (∀ e v : Expr, Fold.evaluate e = some v →
      (∃ l op r a b t, e = .binary l op r ∧ Literal l (some a) ∧ Literal r (some b) ∧
        Ty.binaryResult op a b = some t ∧ Literal v (some t)) ∨
      (∃ op x a t, e = .unary op x ∧ Literal x (some a) ∧ Ty.unaryResult op a = some t ∧
        Literal v (some t))) := by
  refine ⟨typeOf_fold, fun p o => ?_, fun e v h => evaluate_typed h⟩
  rw [analyze_diagnostics, analyze_diagnostics, walk_fold]
  rfl

/-- `1 + 2` folds to `3`, an operator on two integers that it accepts, giving an integer. -/
theorem sum_of_literals_folds_typed :
    Fold.evaluate (.binary (.int 1) .add (.int 2)) = some (.int 3) ∧
      ((∃ l op r a b t, Expr.binary (.int 1) .add (.int 2) = .binary l op r ∧
          Literal l (some a) ∧ Literal r (some b) ∧ Ty.binaryResult op a b = some t ∧
          Literal (.int 3) (some t)) ∨
        (∃ op x a t, Expr.binary (.int 1) .add (.int 2) = .unary op x ∧ Literal x (some a) ∧
          Ty.unaryResult op a = some t ∧ Literal (.int 3) (some t))) :=
  ⟨rfl, folding_keeps_checker_verdicts.2.2 _ _ rfl⟩

end ImpStack
