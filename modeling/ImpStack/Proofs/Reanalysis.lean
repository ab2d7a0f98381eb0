import ImpStack.Proofs.Folding

/-! # Analyzing what the analyzer returned

  With dead declarations kept, the analyzer is a closure: when it reports nothing, analyzing its
  output again reports nothing and returns that output unchanged
  (`analyze_stable_without_pruning`). The walk returns a program the judgment accepts and that
  keeps every heading (`walk_quiet`); folding keeps both (`Accepts.fold`, `Fold.stmt_heading`);
  a program the judgment accepts is walked again as it is and without a diagnostic
  (`walk_rechecks`), its first two passes reading only the headings (`declared_congr`); and a
  folded program folds no further (`foldConstants_idem`).

  Dead-declaration removal breaks both halves. It decides what is dead from the uses the walk
  records, and a loop's variable is looked up without being recorded: the declaration of a
  variable used only as a loop variable is dropped, and the loop then has none. A declaration
  read only by a dead one is recorded as used, so it survives the first analysis and is
  dropped by the second (`pruning_breaks_reanalysis`).
-/

namespace ImpStack

open Check

/-- What the analyzer reports is what the walk reports. -/
theorem analyze_diagnostics (o : CheckOptions) (p : Program) :
    (analyze o p).diagnostics = ((walk p).run ⟨Scopes.empty, [], [], [], []⟩).2.diagnostics := rfl

/-- With dead declarations kept, the analyzer returns the walked program, folded when folding
is on. -/
theorem analyze_program_unpruned {o : CheckOptions} (h : o.removeUnused = false) (p : Program) :
    (analyze o p).program =
      if o.foldConstants then (foldConstants ((walk p).run ⟨Scopes.empty, [], [], [], []⟩).1).1
      else ((walk p).run ⟨Scopes.empty, [], [], [], []⟩).1 := by
  have passes : (analyze o p).program = (optimize (if o.foldConstants then [Pass.fold] else [])
      ((walk p).run ⟨Scopes.empty, [], [], [], []⟩).1).1 := by
    simp only [analyze, h, Bool.false_eq_true, if_false, List.append_nil]
    rfl
  rw [passes]
  cases o.foldConstants
  · exact optimize_nil _
  · exact optimize_fold _

/-- A program with the headings of `p`, accepted from the scopes the first two passes leave on
`p`, is walked again as it is and without a diagnostic. -/
theorem walk_accepted {p : Program} {ss : List Stmt} {sc' : Scopes}
    (heads : ss.map Stmt.heading = p.statements.map Stmt.heading)
    (hdecl : (declared p.statements).diagnostics = [])
    (acc : Accepts true (declared p.statements).scopes sc' ss) :
    ((walk ⟨ss⟩).run ⟨Scopes.empty, [], [], [], []⟩).1 = ⟨ss⟩ ∧
      ((walk ⟨ss⟩).run ⟨Scopes.empty, [], [], [], []⟩).2.diagnostics = [] := by
  rw [← declared_congr heads] at hdecl acc
  exact walk_rechecks hdecl acc

/-- Analyzing again, with dead declarations kept, a program the analyzer accepted reports
nothing and returns it unchanged. -/
theorem analyze_stable_without_pruning (o : CheckOptions) (p : Program)
    (hkeep : o.removeUnused = false) (hquiet : (analyze o p).diagnostics = []) :
    (analyze o (analyze o p).program).diagnostics = [] ∧
      (analyze o (analyze o p).program).program = (analyze o p).program := by
  obtain ⟨heads, accepted⟩ := walk_quiet p
  rw [analyze_diagnostics] at hquiet
  obtain ⟨hdecl, sc', acc⟩ := accepted hquiet
  -- the analyzer's output: the walked program, folded when folding is on; either way it keeps
  -- the headings, is accepted, and is what the analyzer makes of it once walked
  obtain ⟨ss, hss, heads', acc', settled⟩ : ∃ ss, (analyze o p).program = ⟨ss⟩ ∧
      ss.map Stmt.heading = p.statements.map Stmt.heading ∧
      Accepts true (declared p.statements).scopes sc' ss ∧
      (if o.foldConstants then (foldConstants ⟨ss⟩).1 else ⟨ss⟩) = (⟨ss⟩ : Program) := by
    rw [analyze_program_unpruned hkeep]
    cases o.foldConstants
    · exact ⟨_, rfl, heads, acc, rfl⟩
    · refine ⟨_, rfl, ?_, acc.fold, ?_⟩
      · rw [Fold.block_fst, List.map_map, ← heads]
        exact List.map_congr_left fun s _ => Fold.stmt_heading s
      · rw [if_pos rfl]
        exact congrArg Prod.fst (foldConstants_idem _)
  obtain ⟨rewalked, requiet⟩ := walk_accepted heads' hdecl acc'
  rw [hss, analyze_diagnostics, analyze_program_unpruned hkeep, rewalked]
  exact ⟨requiet, settled⟩

/-- A declaration whose type is inferred and whose initializer folds: the analyzer writes
back the type and the sum, and analyzing that again changes nothing. -/
theorem inferred_sum_stable_without_pruning :
    let p : Program := ⟨[.varDecl "x" none (some (.binary (.int 1) .add (.int 2))),
      .print (.var "x")]⟩
    (analyze { removeUnused := false } p).diagnostics = [] ∧
    (analyze { removeUnused := false } p).program =
      ⟨[.varDecl "x" (some .integer) (some (.int 3)), .print (.var "x")]⟩ ∧
    (analyze { removeUnused := false } (analyze { removeUnused := false } p).program).diagnostics =
      [] ∧
    (analyze { removeUnused := false } (analyze { removeUnused := false } p).program).program =
      (analyze { removeUnused := false } p).program :=
  ⟨rfl, rfl, analyze_stable_without_pruning _ _ rfl rfl⟩

/-- Dead-declaration removal breaks both halves. The integer `i` is only a loop variable: the
first analysis drops its declaration, and the second reports the loop variable undefined. The
integer `y` is read only by the dead `x`: the first analysis keeps it, the second drops it. -/
theorem pruning_breaks_reanalysis :
    let loop : Program := ⟨[.varDecl "i" (some .integer) none,
      .forRange "i" (.int 1) (.int 3) false [.print (.int 1)]]⟩
    let chain : Program := ⟨[.varDecl "y" (some .integer) (some (.int 1)),
      .varDecl "x" (some .integer) (some (.var "y"))]⟩
    ((analyze {} loop).diagnostics = [] ∧
      (analyze {} loop).program = ⟨[.forRange "i" (.int 1) (.int 3) false [.print (.int 1)]]⟩ ∧
      (analyze {} (analyze {} loop).program).diagnostics = [.undefinedLoopVariable "i"]) ∧
    ((analyze {} chain).diagnostics = [] ∧
      (analyze {} chain).program = ⟨[.varDecl "y" (some .integer) (some (.int 1))]⟩ ∧
      (analyze {} (analyze {} chain).program).diagnostics = [] ∧
      (analyze {} (analyze {} chain).program).program = ⟨[]⟩) :=
  ⟨⟨rfl, rfl, rfl⟩, ⟨rfl, rfl, rfl, rfl⟩⟩

end ImpStack
