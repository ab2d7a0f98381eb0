import ImpStack.Proofs.Folding
import ImpStack.Proofs.Linking

/-! # Folding and pruning settle in two rounds

  Both passes of the optimizer report exactly whether they changed the program
  (`foldConstants_flag`, `pruneDead_flag`): folding replaces an operator by a literal, which is
  never the operator itself, and pruning drops whole statements. Both are idempotent, and the
  two commute (`pruneDead_foldConstants`): folding keeps every declaration's name and type and
  never folds a call away, so it keeps which declarations are dead.

  Hence the optimizer running folding then pruning is done after the first round: the second
  one finds nothing to fold (what was folded and then pruned is pruned and then folded, and
  folding is idempotent) and nothing to prune. The cap on the number of rounds is never reached.
-/

namespace ImpStack

namespace Fold

/-! ## The folding flag -/

/-- A literal is not an operator, an index, a cast or a call. -/
theorem evaluate_ne {e v e₀ : Expr} (hv : evaluate e = some v) (h₀ : ∀ o, ¬ Literal e₀ o) :
    v ≠ e₀ := by
  obtain ⟨o, literal⟩ := evaluate_literal hv
  rintro rfl
  exact h₀ o literal

/-- Settling reports a change exactly when its result differs from `e₀`, once the flag it is
given is exact for the rebuilt node `e` and nothing `e` folds to is `e₀`. -/
theorem settle_flag {e e₀ : Expr} {c : Bool} (hc : c = true ↔ e ≠ e₀)
    (hfold : ∀ v, evaluate e = some v → v ≠ e₀) :
    (settle e c).2 = true ↔ (settle e c).1 ≠ e₀ := by
  unfold settle
  cases hv : evaluate e with
  | some v => simp [hfold v hv]
  | none => exact hc

mutual

/-- Folding an expression reports a change exactly when it changes it. -/
theorem expr_flag : ∀ e : Expr, (expr e).2 = true ↔ (expr e).1 ≠ e := by
  intro e
  cases e with
  | int _ | real _ | bool _ | str _ | var _ | field _ _ => simp [expr, settle, evaluate]
  | binary l op r =>
    rw [expr_binary]
    refine settle_flag ?_ fun v hv => evaluate_ne hv fun o h => by cases h
    simp [expr_flag l, expr_flag r, imp_iff_not_or]
  | unary op e =>
    rw [expr_unary]
    refine settle_flag ?_ fun v hv => evaluate_ne hv fun o h => by cases h
    simp [expr_flag e]
  | index a i =>
    rw [expr_index]
    refine settle_flag ?_ fun v hv => evaluate_ne hv fun o h => by cases h
    simp [expr_flag i]
  | call n args =>
    rw [expr_call]
    refine settle_flag ?_ fun v hv => evaluate_ne hv fun o h => by cases h
    simp [exprs_flag args]
  | cast e t =>
    rw [expr_cast]
    refine settle_flag ?_ fun v hv => evaluate_ne hv fun o h => by cases h
    simp [expr_flag e]

theorem exprs_flag : ∀ es : List Expr, (exprs es).2 = true ↔ (exprs es).1 ≠ es := by
  intro es
  cases es with
  | nil => simp [exprs]
  | cons e es => simp [exprs_cons, expr_flag e, exprs_flag es, imp_iff_not_or]

end

theorem optExpr_flag (i : Option Expr) : (optExpr i).2 = true ↔ (optExpr i).1 ≠ i := by
  cases i with
  | none => simp [optExpr]
  | some e => simp [optExpr_some, expr_flag e]

mutual

/-- Folding a statement reports a change exactly when it changes it. -/
theorem stmt_flag : ∀ s : Stmt, (stmt s).2 = true ↔ (stmt s).1 ≠ s := by
  intro s
  cases s with
  | varDecl n t i => simp [stmt_varDecl, optExpr_flag i]
  | arrayDecl | recordType | typeAlias => simp [stmt]
  | assign t v =>
    cases t with
    | var n => simp [stmt_assign_var, expr_flag v]
    | element a i => simp [stmt_assign_element, expr_flag i, expr_flag v, imp_iff_not_or]
    | field r f => simp [stmt_assign_field, expr_flag v]
  | ifThen c t e =>
    simp [stmt_ifThen, expr_flag c, block_flag t, block_flag e, imp_iff_not_or, or_assoc]
  | whileDo c b => simp [stmt_whileDo, expr_flag c, block_flag b, imp_iff_not_or]
  | forRange v s e r b =>
    simp [stmt_forRange, expr_flag s, expr_flag e, block_flag b, imp_iff_not_or, or_assoc]
  | routine n ps r b => simp [stmt_routine, block_flag b]
  | call n args => simp [stmt_call, exprs_flag args]
  | ret v => simp [stmt_ret, optExpr_flag v]
  | print e => simp [stmt_print, expr_flag e]

/-- Folding a block reports a change exactly when it changes it. -/
theorem block_flag : ∀ ss : List Stmt, (block ss).2 = true ↔ (block ss).1 ≠ ss := by
  intro ss
  cases ss with
  | nil => simp [block]
  | cons s ss => simp [block_cons, stmt_flag s, block_flag ss, imp_iff_not_or]

end

/-! ## Folding keeps what pruning looks at -/

/-- Only operators on literals fold, and a literal calls nothing. -/
theorem evaluate_callFree {e v : Expr} (h : evaluate e = some v) :
    e.containsCall = false ∧ v.containsCall = false := by
  obtain ⟨o, literal⟩ := evaluate_literal h
  have hv : v.containsCall = false := by cases literal <;> rfl
  refine ⟨?_, hv⟩
  cases e with
  | binary l op r =>
    rcases evaluate_binary h with ⟨a, b, rfl, rfl, -⟩ | ⟨a, b, rfl, rfl, -⟩ | ⟨-, x, y, hx, hy, -⟩
    · rfl
    · rfl
    · cases l <;> cases r <;> simp_all [asReal, Expr.containsCall]
  | unary op e =>
    rcases evaluate_unary h with ⟨-, n, rfl, -⟩ | ⟨-, x, rfl, -⟩ | ⟨-, b, rfl, -⟩ <;> rfl
  | _ => cases h

theorem settle_containsCall (e : Expr) (c : Bool) :
    (settle e c).1.containsCall = e.containsCall := by
  unfold settle
  cases hv : evaluate e with
  | some v => rw [(evaluate_callFree hv).1, (evaluate_callFree hv).2]
  | none => rfl

/-- Folding never folds a call away, nor makes one. -/
theorem expr_containsCall : ∀ e : Expr, (expr e).1.containsCall = e.containsCall := by
  intro e
  induction e using Expr.rec (motive_2 := fun _ => True) with
  | binary l op r ihl ihr =>
    rw [expr_binary, settle_containsCall]
    simp [Expr.containsCall, ihl, ihr]
  | unary op e ih => rw [expr_unary, settle_containsCall]; simp [Expr.containsCall, ih]
  | index a i ih => rw [expr_index, settle_containsCall]; simp [Expr.containsCall, ih]
  | cast e t ih => rw [expr_cast, settle_containsCall]; simp [Expr.containsCall, ih]
  | call n args _ => rw [expr_call, settle_containsCall]; rfl
  | int | real | bool | str | var | field => rfl
  | nil => trivial
  | cons => trivial

end Fold

namespace Liveness

variable (live : Liveness)

/-- Folding keeps which statements are dead declarations. -/
theorem isDead_fold (s : Stmt) : live.isDead (Fold.stmt s).1 = live.isDead s := by
  cases s with
  | varDecl n t i =>
    cases i with
    | none => rfl
    | some e => simp [Fold.stmt_varDecl, Fold.optExpr_some, isDead, Fold.expr_containsCall]
  | assign t v => cases t <;> rfl
  | _ => rfl

/-- Pruning inside a statement keeps whether it is a dead declaration. -/
theorem isDead_inner (s : Stmt) : live.isDead (live.inner s).1 = live.isDead s := by
  cases s <;> simp [inner, isDead]

theorem prune_cons (s : Stmt) (rest : List Stmt) :
    live.prune (s :: rest) =
      if live.isDead s then ((live.prune rest).1, true)
      else ((live.inner s).1 :: (live.prune rest).1, (live.inner s).2 || (live.prune rest).2) := by
  rw [prune]

/-- Pruning never lengthens a block. -/
theorem prune_length_le : ∀ ss : List Stmt, (live.prune ss).1.length ≤ ss.length := by
  intro ss
  induction ss with
  | nil => simp [prune]
  | cons s rest ih =>
    rw [prune_cons]
    split <;> simp only [List.length_cons] <;> omega

/-! ## The pruning flag -/

mutual

/-- Pruning the blocks inside a statement reports a change exactly when it changes it. -/
theorem inner_flag : ∀ s : Stmt, (live.inner s).2 = true ↔ (live.inner s).1 ≠ s := by
  intro s
  cases s with
  | ifThen c t e => simp [inner, prune_flag t, prune_flag e, imp_iff_not_or]
  | whileDo c b => simp [inner, prune_flag b]
  | forRange v s e r b => simp [inner, prune_flag b]
  | routine n ps r b => simp [inner, prune_flag b]
  | varDecl | arrayDecl | assign | call | ret | print | recordType | typeAlias => simp [inner]

/-- Pruning a block reports a change exactly when it changes it. -/
theorem prune_flag : ∀ ss : List Stmt, (live.prune ss).2 = true ↔ (live.prune ss).1 ≠ ss := by
  intro ss
  cases ss with
  | nil => simp [prune]
  | cons s rest =>
    rw [prune_cons]
    split
    · -- a dropped statement leaves a shorter block
      have hshort := prune_length_le live rest
      simp only [true_iff]
      intro heq
      have := congrArg List.length heq
      simp only [List.length_cons] at this
      omega
    · simp [inner_flag s, prune_flag rest, imp_iff_not_or]

end

/-! ## Pruning twice -/

mutual

/-- Pruning the blocks inside a pruned statement changes nothing. -/
theorem inner_idem : ∀ s : Stmt, live.inner (live.inner s).1 = ((live.inner s).1, false) := by
  intro s
  cases s with
  | ifThen c t e => simp [inner, prune_idem t, prune_idem e]
  | whileDo c b => simp [inner, prune_idem b]
  | forRange v s e r b => simp [inner, prune_idem b]
  | routine n ps r b => simp [inner, prune_idem b]
  | varDecl | arrayDecl | assign | call | ret | print | recordType | typeAlias => simp [inner]

/-- A pruned block prunes no further. -/
theorem prune_idem : ∀ ss : List Stmt, live.prune (live.prune ss).1 = ((live.prune ss).1, false) := by
  intro ss
  cases ss with
  | nil => simp [prune]
  | cons s rest =>
    rw [prune_cons]
    split
    · exact prune_idem rest
    · rename_i hlive
      rw [prune_cons, isDead_inner, if_neg hlive, inner_idem s, prune_idem rest]
      rfl

end

/-! ## Pruning and folding commute -/

mutual

theorem inner_fold : ∀ s : Stmt, (live.inner (Fold.stmt s).1).1 = (Fold.stmt (live.inner s).1).1 := by
  intro s
  cases s with
  | ifThen c t e => simp [inner, Fold.stmt_ifThen, prune_fold t, prune_fold e]
  | whileDo c b => simp [inner, Fold.stmt_whileDo, prune_fold b]
  | forRange v s e r b => simp [inner, Fold.stmt_forRange, prune_fold b]
  | routine n ps r b => simp [inner, Fold.stmt_routine, prune_fold b]
  | assign t v => cases t <;> rfl
  | varDecl | arrayDecl | call | ret | print | recordType | typeAlias => rfl

/-- Pruning a folded block gives the folded pruned block. -/
theorem prune_fold : ∀ ss : List Stmt,
    (live.prune (Fold.block ss).1).1 = (Fold.block (live.prune ss).1).1 := by
  intro ss
  cases ss with
  | nil => rfl
  | cons s rest =>
    rw [Fold.block_cons, prune_cons, prune_cons, isDead_fold]
    split
    · exact prune_fold rest
    · simp only [Fold.block_cons, inner_fold s, prune_fold rest]

end

end Liveness

/-! ## Whole programs -/

theorem pruneDead_eq (live : Liveness) (p : Program) :
    pruneDead live p = (⟨(live.prune p.statements).1⟩, (live.prune p.statements).2) := rfl

theorem foldConstants_flag (p : Program) :
    (foldConstants p).2 = true ↔ (foldConstants p).1 ≠ p := by
  obtain ⟨ss⟩ := p
  simp [foldConstants_eq, Fold.block_flag ss]

theorem pruneDead_flag (live : Liveness) (p : Program) :
    (pruneDead live p).2 = true ↔ (pruneDead live p).1 ≠ p := by
  obtain ⟨ss⟩ := p
  simp [pruneDead_eq, live.prune_flag ss]

theorem pruneDead_idem (live : Liveness) (p : Program) :
    pruneDead live (pruneDead live p).1 = ((pruneDead live p).1, false) := by
  simp only [pruneDead_eq, live.prune_idem]

/-- Pruning a folded program gives the folded pruned program. -/
theorem pruneDead_foldConstants (live : Liveness) (p : Program) :
    (pruneDead live (foldConstants p).1).1 = (foldConstants (pruneDead live p).1).1 := by
  simp only [pruneDead_eq, foldConstants_eq, live.prune_fold]

/-! ## The optimizer with both passes -/

section Rounds

variable (live : Liveness)

/-- One round folds, then prunes what folding left, and reports whether either changed. -/
theorem optimizeRound_both (p : Program) :
    (optimizeRound [.fold, .prune live] p).1 = (pruneDead live (foldConstants p).1).1 ∧
      (optimizeRound [.fold, .prune live] p).2.1 =
        ((foldConstants p).2 || (pruneDead live (foldConstants p).1).2) := by
  simp only [optimizeRound, List.foldl_cons, List.foldl_nil, Pass.run]
  by_cases h₁ : (foldConstants p).2 = true <;>
    by_cases h₂ : (pruneDead live (foldConstants p).1).2 = true <;> simp [h₁, h₂]

/-- What one round leaves, a second round leaves as it is and reports unchanged. -/
theorem optimizeRound_settled (p : Program) :
    (optimizeRound [.fold, .prune live] (pruneDead live (foldConstants p).1).1).1 =
        (pruneDead live (foldConstants p).1).1 ∧
      (optimizeRound [.fold, .prune live] (pruneDead live (foldConstants p).1).1).2.1 = false := by
  set q := (pruneDead live (foldConstants p).1).1
  have hprune : pruneDead live q = (q, false) := pruneDead_idem live (foldConstants p).1
  -- folding what was folded and pruned is pruning what was folded twice
  have hfold : (foldConstants q).1 = q := by
    rw [← pruneDead_foldConstants, foldConstants_idem]
  have hflag : (foldConstants q).2 = false := by
    cases h : (foldConstants q).2
    · rfl
    · exact absurd hfold ((foldConstants_flag q).1 h)
  obtain ⟨h₁, h₂⟩ := optimizeRound_both live q
  rw [hfold, hprune] at h₁ h₂
  rw [hflag] at h₂
  exact ⟨h₁, h₂⟩

/-- Rounds over a program that a round leaves unchanged stop after that one round. -/
theorem optimizeFor_settled (passes : List Pass) {q : Program}
    (h : (optimizeRound passes q).2.1 = false) (n : Nat) :
    optimizeFor passes (n + 1) q = optimizeFor passes 1 q := by
  rw [optimizeFor_succ, optimizeFor_succ, h]
  rfl

/-- Rounds over a program that a round leaves as it is, reporting no change, return it. -/
theorem optimizeFor_fixed {passes : List Pass} {q : Program} (h₁ : (optimizeRound passes q).1 = q)
    (h₂ : (optimizeRound passes q).2.1 = false) : ∀ n, (optimizeFor passes n q).1 = q
  | 0 => rfl
  | n + 1 => by
    rw [optimizeFor_succ, h₂]
    exact h₁

/-- From two rounds on, every cap on the rounds of both passes gives the same result and the
same log. -/
theorem optimizeFor_fold_prune_settled (p : Program) (n : Nat) :
    optimizeFor [.fold, .prune live] (n + 2) p = optimizeFor [.fold, .prune live] 2 p := by
  obtain ⟨r₁, -⟩ := optimizeRound_both live p
  obtain ⟨-, s₂⟩ := optimizeRound_settled live p
  -- after the first round every further round is the settled one
  rw [optimizeFor_succ, optimizeFor_succ (n := 1)]
  rw [← r₁] at s₂
  rw [optimizeFor_settled _ s₂ n]

/-- The optimizer running both passes prunes the folded program. -/
theorem optimize_fold_prune (p : Program) :
    (optimize [.fold, .prune live] p).1 = (pruneDead live (foldConstants p).1).1 := by
  obtain ⟨r₁, -⟩ := optimizeRound_both live p
  obtain ⟨s₁, s₂⟩ := optimizeRound_settled live p
  show (optimizeFor _ (8 + 2) p).1 = _
  rw [optimizeFor_fold_prune_settled, optimizeFor_succ]
  cases hc : (optimizeRound [.fold, .prune live] p).2.1
  · simpa only [Bool.false_eq_true, ↓reduceIte] using r₁
  · simp only [↓reduceIte, r₁]
    rw [optimizeFor_succ, s₂]
    simpa only [Bool.false_eq_true, ↓reduceIte] using s₁

/-- One round of pruning alone prunes once, and says whether that changed anything. -/
theorem optimizeRound_prune (p : Program) :
    (optimizeRound [.prune live] p).1 = (pruneDead live p).1 ∧
      (optimizeRound [.prune live] p).2.1 = (pruneDead live p).2 := by
  simp only [optimizeRound, List.foldl_cons, List.foldl_nil, Pass.run]
  by_cases hc : (pruneDead live p).2 = true <;> simp [hc]

/-- The optimizer with pruning alone prunes once: the second round, if there is one, finds
nothing left to drop. -/
theorem optimize_prune (p : Program) : (optimize [.prune live] p).1 = (pruneDead live p).1 := by
  obtain ⟨h₁, -⟩ := optimizeRound_prune live p
  obtain ⟨s₁, s₂⟩ := optimizeRound_prune live (pruneDead live p).1
  simp only [pruneDead_idem] at s₁ s₂
  show (optimizeFor [.prune live] (9 + 1) p).1 = _
  rw [optimizeFor_succ]
  cases hc : (optimizeRound [.prune live] p).2.1
  · exact h₁
  · rw [if_pos rfl, h₁]
    exact optimizeFor_fixed s₁ s₂ 9

end Rounds

/-- Folding and dead-declaration removal each report a change exactly when they make one; each
is idempotent; the two commute; and the optimizer running both yields pruning of the folded
program, with every cap on the rounds from two on giving the same result and the same log. -/
theorem folding_and_pruning_settle (live : Liveness) :
    (∀ p, (foldConstants p).2 = true ↔ (foldConstants p).1 ≠ p) ∧
    (∀ p, (pruneDead live p).2 = true ↔ (pruneDead live p).1 ≠ p) ∧
    (∀ p, foldConstants (foldConstants p).1 = ((foldConstants p).1, false)) ∧
    (∀ p, pruneDead live (pruneDead live p).1 = ((pruneDead live p).1, false)) ∧
    (∀ p, (pruneDead live (foldConstants p).1).1 = (foldConstants (pruneDead live p).1).1) ∧
    (∀ p, (optimize [.fold, .prune live] p).1 = (pruneDead live (foldConstants p).1).1 ∧
      ∀ n, optimizeFor [.fold, .prune live] (n + 2) p = optimizeFor [.fold, .prune live] 2 p) :=
  ⟨foldConstants_flag, pruneDead_flag live, foldConstants_idem, pruneDead_idem live,
    pruneDead_foldConstants live, fun p =>
      ⟨optimize_fold_prune live p, optimizeFor_fold_prune_settled live p⟩⟩

end ImpStack
