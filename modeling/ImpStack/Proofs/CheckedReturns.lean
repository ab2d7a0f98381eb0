import ImpStack.Proofs.Returns
import ImpStack.Proofs.Labels
import ImpStack.Proofs.Linking

/-! # Returns of compiled routines

  The previous module lowers programs whose routines with a result end in a return and hold no
  `return` without a value (`ReturnsChecked`) to code whose returns all give the routine's
  result kind and whose last instruction is such a return. Here the analyzer's programs are
  shown to be such programs.

  1. The judgment admits a `return` without a value only in a routine whose result is void
     (`BlockChecks.returnsBare_eq_false`), and an accepted routine with a result ends in a
     return (`RoutineChecks.returnsChecked`). The environment routines are checked in is the
     one the first two passes declare: no statement declares a type
     (`BlockChecks.types_eq`, `walk_types`).
  2. The optimizer keeps both facts. Folding changes no statement's shape
     (`Fold.blockReturnsBare_block`, `Fold.endsWithReturn_block`); dead-declaration removal
     drops only variable declarations, which neither return nor end a block that ends in a
     return (`Liveness.blockReturnsBare_prune`, `Liveness.endsWithReturn_prune`).

  `compiled_returns_agree_and_end` puts the two modules together, with the fragment form of
  the second fact: the code of a block that ends in a return on every path ends in a return and
  jumps only to labels of its own, so control leaves it through a return alone.
-/

namespace ImpStack

/-! ## What the judgment says of returns -/

section Judgment

variable {loops : Bool} {ret : Option Ty} {R : Ty}

mutual

/-- In a routine whose result is not void, an accepted statement holds no `return` without a
value. -/
theorem StmtChecks.returnsBare_eq_false (hR : R.isVoid = false) :
    ∀ {sc sc' : Scopes} {s : Stmt}, StmtChecks loops (some R) sc s sc' → s.returnsBare = false := by
  intro sc sc' s h
  cases h with
  | ifThen _ _ thenBranch elseBranch =>
    simp only [Stmt.returnsBare, BlockChecks.returnsBare_eq_false hR thenBranch,
      BlockChecks.returnsBare_eq_false hR elseBranch, Bool.or_self]
  | whileDo _ _ body => exact BlockChecks.returnsBare_eq_false hR body
  | forRange _ _ _ _ _ _ body => exact BlockChecks.returnsBare_eq_false hR body
  | retNone routine void =>
    -- the judgment admits a bare return only when the routine's result is void
    obtain rfl := Option.some.inj routine
    rw [hR] at void
    cases void
  | _ => rfl

/-- In a routine whose result is not void, an accepted block holds no `return` without a
value. -/
theorem BlockChecks.returnsBare_eq_false (hR : R.isVoid = false) :
    ∀ {sc sc' : Scopes} {ss : List Stmt}, BlockChecks loops (some R) sc ss sc' →
      Stmt.blockReturnsBare ss = false := by
  intro sc sc' ss h
  cases h with
  | nil => rfl
  | cons head tail =>
    simp only [Stmt.blockReturnsBare, StmtChecks.returnsBare_eq_false hR head,
      BlockChecks.returnsBare_eq_false hR tail, Bool.or_self]

end

/-- An accepted statement declares no type. -/
theorem StmtChecks.types_eq {sc sc' : Scopes} {s : Stmt} (h : StmtChecks loops ret sc s sc') :
    sc'.types = sc.types := by
  cases h with
  | declare | array => exact Scopes.declare_types _ _ _
  | _ => rfl

theorem BlockChecks.types_eq :
    ∀ {sc sc' : Scopes} {ss : List Stmt}, BlockChecks loops ret sc ss sc' → sc'.types = sc.types
  | _, _, _, .nil => rfl
  | _, _, _, .cons head tail => tail.types_eq.trans head.types_eq

/-- An accepted routine whose return type resolves to a type other than void ends in a return on
every path and holds no `return` without a value. -/
theorem RoutineChecks.returnsChecked {sc : Scopes} {ps : List Param} {r : Option Ty}
    {b : List Stmt} (h : RoutineChecks loops sc ps r b) {R' : Ty}
    (hR' : (returnTypeOrVoid r).resolveDeep sc.env = .ok R') (nonVoid : R'.isVoid = false) :
    Stmt.blockReturnsBare b = false ∧ endsWithReturn b = true := by
  obtain @⟨_, _, R, _, returns, body, ends⟩ := h
  -- the result type the judgment resolved is the one lowering resolves
  have hR : R' = R := by
    cases r with
    | none =>
      have hv : Ty.void.resolveDeep sc.env = .ok .void :=
        Ty.resolveDeep_of_resolved (Ty.resolved_prim _)
      exact (Except.ok.inj (hR'.symm.trans hv)).trans returns.symm
    | some t => exact Except.ok.inj (hR'.symm.trans returns.2)
  subst hR
  exact ⟨BlockChecks.returnsBare_eq_false nonVoid body, ends nonVoid⟩

/-- A program the judgment accepts from scopes `sc` has its routines' returns checked in the
environment of `sc`. -/
theorem Accepts.returnsChecked {sc sc' : Scopes} {ss : List Stmt} (h : Accepts loops sc sc' ss) :
    ReturnsChecked sc.env ss := by
  intro n ps r b hmem R hR nonVoid
  -- the globals declare no type, so the routines see the environment of `sc`
  have henv : sc'.env = sc.env := h.globals.types_eq
  rw [← henv] at hR
  exact (h.routines n ps r b hmem).returnsChecked hR nonVoid

end Judgment

/-! ## Through the optimizer -/

namespace Fold

mutual

/-- Folding keeps whether a statement holds a `return` without a value. -/
theorem returnsBare_stmt : ∀ s : Stmt, (stmt s).1.returnsBare = s.returnsBare := by
  intro s
  cases s with
  | ifThen c t e =>
    rw [stmt_ifThen]
    simp only [Stmt.returnsBare, blockReturnsBare_block t, blockReturnsBare_block e]
  | whileDo c b =>
    rw [stmt_whileDo]
    exact blockReturnsBare_block b
  | forRange v s e r b =>
    rw [stmt_forRange]
    exact blockReturnsBare_block b
  | assign t v => cases t <;> rfl
  | ret v => cases v <;> rfl
  | _ => rfl

/-- Folding keeps whether a block holds a `return` without a value. -/
theorem blockReturnsBare_block :
    ∀ ss : List Stmt, Stmt.blockReturnsBare (block ss).1 = Stmt.blockReturnsBare ss := by
  intro ss
  cases ss with
  | nil => rfl
  | cons s ss =>
    rw [block_cons]
    simp only [Stmt.blockReturnsBare, returnsBare_stmt s, blockReturnsBare_block ss]

end

end Fold

namespace Liveness

variable (live : Liveness)

theorem inner_ifThen (c : Expr) (t e : List Stmt) :
    (live.inner (.ifThen c t e)).1 = .ifThen c (live.prune t).1 (live.prune e).1 := by
  rw [inner]

theorem inner_whileDo (c : Expr) (b : List Stmt) :
    (live.inner (.whileDo c b)).1 = .whileDo c (live.prune b).1 := by
  rw [inner]

theorem inner_forRange (v : String) (s e : Expr) (r : Bool) (b : List Stmt) :
    (live.inner (.forRange v s e r b)).1 = .forRange v s e r (live.prune b).1 := by
  rw [inner]

theorem inner_routine (n : String) (ps : List Param) (r : Option Ty) (b : List Stmt) :
    (live.inner (.routine n ps r b)).1 = .routine n ps r (live.prune b).1 := by
  rw [inner]

theorem prune_nil_fst : (live.prune []).1 = [] := by
  rw [prune]

/-- Only variable declarations are dead. -/
theorem eq_varDecl_of_isDead {s : Stmt} (h : live.isDead s = true) :
    ∃ n t i, s = .varDecl n t i := by
  cases s with
  | varDecl n t i => exact ⟨n, t, i, rfl⟩
  | _ => cases h

/-- A routine of a pruned block is a routine of the block, with its body pruned. -/
theorem mem_prune_routine {n : String} {ps : List Param} {r : Option Ty} {b : List Stmt} :
    ∀ {ss : List Stmt}, Stmt.routine n ps r b ∈ (live.prune ss).1 →
      ∃ b₀, Stmt.routine n ps r b₀ ∈ ss ∧ b = (live.prune b₀).1
  | [], h => by
    rw [prune_nil_fst] at h
    cases h
  | s :: rest, h => by
    rw [prune_cons_fst] at h
    split at h
    · obtain ⟨b₀, hm, rfl⟩ := mem_prune_routine h
      exact ⟨b₀, List.mem_cons_of_mem _ hm, rfl⟩
    · rcases List.mem_cons.mp h with he | hm
      · -- pruning a statement keeps its shape, so the routine was one before
        cases s with
        | routine n' ps' r' b' =>
          rw [inner_routine] at he
          cases he
          exact ⟨b', List.mem_cons_self, rfl⟩
        | ifThen c t e =>
          rw [inner_ifThen] at he
          cases he
        | whileDo c b' =>
          rw [inner_whileDo] at he
          cases he
        | forRange v s e r' b' =>
          rw [inner_forRange] at he
          cases he
        | _ => cases he
      · obtain ⟨b₀, hm', rfl⟩ := mem_prune_routine hm
        exact ⟨b₀, List.mem_cons_of_mem _ hm', rfl⟩

mutual

/-- Pruning the blocks of a statement keeps whether it holds a `return` without a value. -/
theorem returnsBare_inner : ∀ s : Stmt, (live.inner s).1.returnsBare = s.returnsBare := by
  intro s
  cases s with
  | ifThen c t e =>
    rw [inner_ifThen]
    simp only [Stmt.returnsBare, blockReturnsBare_prune t, blockReturnsBare_prune e]
  | whileDo c b =>
    rw [inner_whileDo]
    exact blockReturnsBare_prune b
  | forRange v s e r b =>
    rw [inner_forRange]
    exact blockReturnsBare_prune b
  | routine n ps r b =>
    rw [inner_routine]
    rfl
  | _ => rfl

/-- Dead-declaration removal keeps whether a block holds a `return` without a value: what it
drops is a declaration. -/
theorem blockReturnsBare_prune :
    ∀ ss : List Stmt, Stmt.blockReturnsBare (live.prune ss).1 = Stmt.blockReturnsBare ss := by
  intro ss
  cases ss with
  | nil => rw [prune_nil_fst]
  | cons s rest =>
    rw [prune_cons_fst]
    split
    · next hd =>
      obtain ⟨n, t, i, rfl⟩ := live.eq_varDecl_of_isDead hd
      rw [blockReturnsBare_prune rest]
      rfl
    · simp only [Stmt.blockReturnsBare, returnsBare_inner s, blockReturnsBare_prune rest]

end

theorem ne_nil_of_endsWithReturn {ss : List Stmt} (h : endsWithReturn ss = true) : ss ≠ [] := by
  rintro rfl
  simp [endsWithReturn] at h

/-- Dead-declaration removal keeps a block that ends in a return on every path such: the
statements it drops are declarations, never a last return or conditional. -/
theorem endsWithReturn_prune (ss : List Stmt) (h : endsWithReturn ss = true) :
    endsWithReturn (live.prune ss).1 = true := by
  fun_induction endsWithReturn ss with
  | case1 => cases h
  | case2 v =>
    show endsWithReturn [Stmt.ret v] = true
    simp [endsWithReturn]
  | case3 c t e iht ihe =>
    simp only [Bool.and_eq_true] at h
    rw [prune_cons_fst, if_neg (by simp [isDead]), inner_ifThen, prune_nil_fst]
    simp only [endsWithReturn, iht h.1, ihe h.2, Bool.and_self]
  | case4 => cases h
  | case5 s rest _ _ _ ih =>
    have hr := ih h
    rw [prune_cons_fst]
    split
    · exact hr
    · -- the pruned rest still has a last statement, which ends the block
      obtain ⟨y, ys, hy⟩ := List.exists_cons_of_ne_nil (ne_nil_of_endsWithReturn hr)
      rw [hy, Fold.endsWithReturn_cons_cons, ← hy]
      exact hr

end Liveness

namespace ReturnsChecked

variable {env : TypeEnv} {ss : List Stmt}

/-- Folding keeps the routines' returns checked. -/
theorem fold (h : ReturnsChecked env ss) : ReturnsChecked env (Fold.block ss).1 := by
  intro n ps r b hmem R hR nonVoid
  rw [Fold.block_fst] at hmem
  obtain ⟨s, hs, he⟩ := List.mem_map.mp hmem
  obtain ⟨b₀, rfl, rfl⟩ := Fold.stmt_eq_routine he
  obtain ⟨bare, ends⟩ := h n ps r b₀ hs R hR nonVoid
  exact ⟨by rw [Fold.blockReturnsBare_block, bare], by rw [Fold.endsWithReturn_block, ends]⟩

/-- Dead-declaration removal keeps the routines' returns checked. -/
theorem prune (h : ReturnsChecked env ss) (live : Liveness) :
    ReturnsChecked env (live.prune ss).1 := by
  intro n ps r b hmem R hR nonVoid
  obtain ⟨b₀, hs, rfl⟩ := live.mem_prune_routine hmem
  obtain ⟨bare, ends⟩ := h n ps r b₀ hs R hR nonVoid
  exact ⟨by rw [live.blockReturnsBare_prune, bare], live.endsWithReturn_prune b₀ ends⟩

/-- The optimizer keeps the routines' returns checked. -/
theorem optimize (passes : List Pass) {p : Program} (h : ReturnsChecked env p.statements) :
    ReturnsChecked env (ImpStack.optimize passes p).1.statements := by
  refine optimize_preserves (fun q q' => ReturnsChecked env q.statements →
    ReturnsChecked env q'.statements) (fun _ h => h) (fun h₁ h₂ h => h₂ (h₁ h)) ?_ passes p h
  intro pass q hq
  cases pass with
  | fold => exact hq.fold
  | prune live => exact hq.prune live

end ReturnsChecked

/-! ## The analyzer's programs -/

namespace Check

/-- The walk ends in scopes with the types the first two passes declare. -/
theorem walk_types (p : Program) :
    CSat (walk p) ⟨Scopes.empty, [], [], [], []⟩
      (fun _ st' => st'.scopes.types = (declared p.statements).scopes.types) := by
  rw [walk_eq]
  simp only [csat_bind, csat_note, csat_get, csat_pure]
  refine (declarations_sat p.statements _ fun _ _ h => absurd h List.not_mem_nil).with_state.mono
    fun _ st₁ h₁ => ?_
  refine (globals_quiet p.statements st₁).mono₃ fun ss₃ st₂ r₂ _ _ => ?_
  refine (routines_quiet ss₃ _).mono₃ fun ss₄ st₃ r₃ _ _ => ?_
  refine (main_quiet ss₄ _).mono₃ fun _ st₄ r₄ _ _ => ?_
  have hdecl : declared p.statements = st₁ := h₁.2.symm
  rw [hdecl]
  exact r₄.types.trans (r₃.types.trans r₂.types)

end Check

open Check

/-- When the analyzer reports nothing, every routine of the program it returns whose result is
not void ends in a return and holds no `return` without a value. -/
theorem analyze_returnsChecked (o : CheckOptions) (p : Program)
    (h : (analyze o p).diagnostics = []) :
    ReturnsChecked (analyze o p).scopes.env (analyze o p).program.statements := by
  obtain ⟨-, quiet⟩ := walk_quiet p
  obtain ⟨-, sc', accepts⟩ := quiet h
  have henv : (analyze o p).scopes.env = (declared p.statements).scopes.env := walk_types p
  rw [henv]
  exact ReturnsChecked.optimize _ accepts.returnsChecked

/-! ## Compiled code -/

namespace Lower

/-- The code of a block that ends in a return on every path ends in a return, and jumps only to
labels it defines, fresh ones: control leaves it through a return, never past its end. -/
theorem stmts_end_closed (cx : LowerCtx) (ss : List Stmt) (h : endsWithReturn ss = true)
    (s : LowerState) :
    LSat (stmts cx ss) s (fun _ s' => ∃ new k, s'.em.code.toList = s.em.code.toList ++ new ∧
      new.getLast? = some (.ret k) ∧ Labelled s.labels s'.labels new) := by
  intro a s' hrun
  obtain ⟨new, k, hnew, last⟩ := stmts_end_in_return cx ss h s a s' hrun
  obtain ⟨-, new', hnew', labelled⟩ := (stmts_labels cx ss).lsat s a s' hrun
  -- both facts are about the one fragment appended
  have he : new' = new := List.append_cancel_left (hnew'.symm.trans hnew)
  subst he
  exact ⟨new', k, hnew, last, labelled⟩

end Lower

/-- Compiled code returns as its routines declare and never runs off its end. In every routine
and the initializer of a compiled module, every `ret` gives the routine's result kind and the
last instruction is such a `ret`. And wherever a block that ends in a return on every path is
lowered, the code appended for it ends in a `ret` and jumps only to labels of its own: control
leaves it through a return alone, which is why an `if` whose then branch ends in a return
emits no jump over its else branch. -/
theorem compiled_returns_agree_and_end (opts : CompileOptions) (p : Program) {m : Module}
    (h : (compile opts p).1 = .ok m) :
    (∀ rc ∈ m.routines ++ m.initializer.toList,
      (∀ k, Instr.ret k ∈ rc.code → k = rc.ret) ∧ rc.code.getLast? = some (.ret rc.ret)) ∧
    ∀ (cx : LowerCtx) (ss : List Stmt), endsWithReturn ss = true → ∀ s : LowerState,
      Lower.LSat (Lower.stmts cx ss) s (fun _ s' => ∃ new k,
        s'.em.code.toList = s.em.code.toList ++ new ∧ new.getLast? = some (.ret k) ∧
          Labelled s.labels s'.labels new) := by
  refine ⟨?_, Lower.stmts_end_closed⟩
  unfold compile at h
  dsimp only at h
  split at h
  · rename_i quiet
    exact Lower.lowerProgram_returns
      (analyze_returnsChecked opts.check p (List.isEmpty_iff.mp quiet)) h
  · cases h

/-- A global counted down by a loop: the initializer ends in its void return. -/
theorem countdown_returns_agree_and_end :
    let p : Program := ⟨[.varDecl "n" (some .integer) (some (.int 3)),
      .whileDo (.binary (.var "n") .gt (.int 0))
        [.print (.var "n"), .assign (.var "n") (.binary (.var "n") .sub (.int 1))]]⟩
    ∃ m, (compile {} p).1 = .ok m ∧
      (∀ rc ∈ m.routines ++ m.initializer.toList,
        (∀ k, Instr.ret k ∈ rc.code → k = rc.ret) ∧ rc.code.getLast? = some (.ret rc.ret)) ∧
      ∀ (cx : LowerCtx) (ss : List Stmt), endsWithReturn ss = true → ∀ s : LowerState,
        Lower.LSat (Lower.stmts cx ss) s (fun _ s' => ∃ new k,
          s'.em.code.toList = s.em.code.toList ++ new ∧ new.getLast? = some (.ret k) ∧
            Labelled s.labels s'.labels new) := by
  intro p
  exact ⟨_, rfl, compiled_returns_agree_and_end {} p rfl⟩

end ImpStack
