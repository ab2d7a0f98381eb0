import ImpStack.Proofs.UsedNames
import ImpStack.Proofs.CheckedReturns
import ImpStack.Proofs.ScopeMaps
import ImpStack.Proofs.OptimizerRounds

/-! # Dropping dead declarations keeps a program accepted

  A variable declaration is dead when its name is none of the names the walk recorded as used
  (and its type is no aggregate, and its initializer calls nothing). Dropping such declarations
  changes the scopes every later statement is checked in: the dropped variables are never
  declared. The judgment still holds of the pruned program, in scopes with those variables
  erased, because nothing the judgment reads is one of them (`Check.walk_reads`).

  * `Scopes.Erases used sc sc'`: `sc'` is `sc` with some variables outside `used` never
    declared. It is kept by entering a scope and by declaring a variable on both sides, and by
    declaring an unused variable on the side of `sc` alone.
  * `StmtChecks.prune`, `BlockChecks.prune`: the judgment of a statement (a block) whose reads
    lie in `used` holds of what pruning makes of it, from erased scopes to erased scopes. A
    loop's variable is not asked to be visible around the loop (`loops` unset): the declaration
    of a variable only ever used as a loop's counter is dead.
  * `Accepts.prune`: the same for a whole program, from the scopes the declarations leave.
-/

namespace ImpStack

/-! ## Erased scopes -/

namespace Scopes

/-- `sc'` is `sc` with some variables outside `used` left undeclared: both know the same types
and routines, every name of `used` has the same type in both, and a name the innermost scope of
`sc` does not declare, that of `sc'` does not declare either. -/
structure Erases (used : List String) (sc sc' : Scopes) : Prop where
  types : sc'.types = sc.types
  routines : sc'.routines = sc.routines
  typeOf : ∀ n ∈ used, sc'.typeOf? n = sc.typeOf? n
  fresh : ∀ n, sc.isDefinedHere n = false → sc'.isDefinedHere n = false

/-- A declaration is found in the innermost scope, and hides nothing else there. -/
theorem isDefinedHere_declare (sc : Scopes) (n m : String) (T : Ty) :
    (sc.declare n T).isDefinedHere m = (m == n || sc.isDefinedHere m) := by
  rw [isDefinedHere_maps, maps_declare, isDefinedHere_maps]
  -- the innermost frame is the first one, and the declaration updates it at `n`
  dsimp only [ScopeMaps.declare, ScopeMaps.top, List.head_cons]
  by_cases h : m = n <;> simp [h]

@[simp] theorem isDefinedHere_enter (sc : Scopes) (m : String) : sc.enter.isDefinedHere m = false :=
  rfl

namespace Erases

variable {used : List String} {sc sc' : Scopes}

theorem refl (used : List String) (sc : Scopes) : sc.Erases used sc :=
  ⟨rfl, rfl, fun _ _ => rfl, fun _ h => h⟩

theorem env (h : sc.Erases used sc') : sc'.env = sc.env := h.types

theorem routine? (h : sc.Erases used sc') (n : String) : sc'.routine? n = sc.routine? n := by
  simp [Scopes.routine?, h.routines]

theorem enter (h : sc.Erases used sc') : sc.enter.Erases used sc'.enter :=
  ⟨h.types, h.routines, fun n hn => by simpa using h.typeOf n hn, fun _ _ => rfl⟩

/-- Declaring a variable on both sides. -/
theorem declare (h : sc.Erases used sc') (n : String) (T : Ty) :
    (sc.declare n T).Erases used (sc'.declare n T) := by
  refine ⟨by simp [h.types], by simp [h.routines], fun m hm => ?_, fun m hm => ?_⟩
  · simp only [typeOf?_declare, h.typeOf m hm]
  · rw [isDefinedHere_declare, Bool.or_eq_false_iff] at hm ⊢
    exact ⟨hm.1, h.fresh m hm.2⟩

/-- Declaring on the full side alone a variable nothing reads. -/
theorem declare_unused (h : sc.Erases used sc') {n : String} (hn : n ∉ used) (T : Ty) :
    (sc.declare n T).Erases used sc' := by
  refine ⟨by simp [h.types], by simp [h.routines], fun m hm => ?_, fun m hm => ?_⟩
  · have hne : m ≠ n := fun e => hn (e ▸ hm)
    simp only [typeOf?_declare, hne, if_false, h.typeOf m hm]
  · rw [isDefinedHere_declare, Bool.or_eq_false_iff] at hm
    exact h.fresh m hm.2

/-- A dead declaration the judgment accepts leaves scopes the erased ones still erase. -/
theorem dead {live : Liveness} {loops : Bool} {ret : Option Ty} {sc₁ : Scopes} {s : Stmt}
    (h : sc.Erases live.used sc') (hdead : live.isDead s = true)
    (hs : StmtChecks loops ret sc s sc₁) : sc₁.Erases live.used sc' := by
  obtain ⟨n, t, i, rfl⟩ := live.eq_varDecl_of_isDead hdead
  have hn : n ∉ live.used := by
    simp only [Liveness.isDead, Bool.and_eq_true, Bool.not_eq_true', List.contains_eq_any_beq,
      List.any_eq_false, beq_iff_eq] at hdead
    exact fun hm => hdead.1.1 n hm rfl
  cases hs with
  | declare => exact h.declare_unused hn _
  | declareUntyped => exact h

end Erases

end Scopes

/-! ## The judgment in erased scopes -/

section Erased

variable {used : List String} {sc sc' : Scopes}

theorem Infers.erase {e : Expr} {o : Option Ty} (h : Infers sc e o) (he : sc.Erases used sc')
    (reads : e.names ⊆ used) : Infers sc' e o :=
  h.congr he.env he.routine? fun n hn => he.typeOf n (reads hn)

theorem ArgsInfer.erase {ps : List Ty} {args : List Expr} (h : ArgsInfer sc ps args)
    (he : sc.Erases used sc') (reads : Expr.namesOf args ⊆ used) : ArgsInfer sc' ps args :=
  h.congr he.env he.routine? fun n hn => he.typeOf n (reads hn)

theorem StoresInto.erase {T : Ty} {v : Expr} (h : StoresInto sc T v) (he : sc.Erases used sc')
    (reads : v.names ⊆ used) : StoresInto sc' T v :=
  let ⟨o, hv, hc⟩ := h
  ⟨o, hv.erase he reads, hc⟩

theorem TargetInfers.erase {t : Target} {o : Option Ty} (h : TargetInfers sc t o)
    (he : sc.Erases used sc') (reads : t.names ⊆ used) : TargetInfers sc' t o := by
  have root : sc'.typeOf? t.root = sc.typeOf? t.root := he.typeOf _ (reads t.root_mem_names)
  cases h with
  | var found => exact .var (root.trans found)
  | element found index integer =>
    exact .element (root.trans found)
      (index.erase he fun n hn => reads (List.mem_cons_of_mem _ hn)) integer
  | field found record member =>
    have := TargetInfers.field (root.trans found) (he.env ▸ record) member
    rwa [he.env] at this

end Erased

/-! ## The judgment of the pruned program -/

section Pruned

variable {live : Liveness} {ret : Option Ty}

mutual

/-- A statement the judgment accepts, whose reads lie in the used names, is accepted once its
blocks are pruned, from scopes that erase the ones it was checked in to scopes that erase the
ones it leaves. -/
theorem StmtChecks.prune :
    ∀ {sc sc₁ sc' : Scopes} {s : Stmt}, StmtChecks true ret sc s sc₁ →
      s.ReadsWithin live.used ret sc → sc.Erases live.used sc' →
      ∃ sc₁', StmtChecks false ret sc' (live.inner s).1 sc₁' ∧ sc₁.Erases live.used sc₁'
  | _, _, _, _, .declare fresh valid resolved initial, reads, he =>
    ⟨_, .declare (he.fresh _ fresh) (he.env ▸ valid) (he.env ▸ resolved)
      fun i hi => (initial i hi).erase he (reads i hi), he.declare _ _⟩
  | _, _, _, _, .declareUntyped fresh initial, reads, he =>
    ⟨_, .declareUntyped (he.fresh _ fresh) (initial.erase he (reads _ rfl)), he⟩
  | _, _, _, _, .array fresh positive valid resolved, _, he =>
    ⟨_, .array (he.fresh _ fresh) positive (he.env ▸ valid) (he.env ▸ resolved), he.declare _ _⟩
  | _, _, _, _, .assign target value, reads, he =>
    ⟨_, .assign (target.erase he reads.1)
      fun T hT => (value T hT).erase he (reads.2 T (hT ▸ target)), he⟩
  | _, _, _, _, .ifThen cond boolean thenBranch elseBranch, reads, he => by
    obtain ⟨_, t', -⟩ := BlockChecks.prune thenBranch reads.2.1 he.enter
    obtain ⟨_, e', -⟩ := BlockChecks.prune elseBranch reads.2.2 he.enter
    rw [Liveness.inner_ifThen]
    exact ⟨_, .ifThen (cond.erase he reads.1) boolean t' e', he⟩
  | _, _, _, _, .whileDo cond boolean body, reads, he => by
    obtain ⟨_, b', -⟩ := BlockChecks.prune body reads.2 he.enter
    rw [Liveness.inner_whileDo]
    exact ⟨_, .whileDo (cond.erase he reads.1) boolean b', he⟩
  | _, _, _, _, .forRange start startInteger stop stopInteger _ stopInLoop body, reads, he => by
    -- the counter is declared on both sides; whether it was visible around the loop is not asked
    obtain ⟨_, b', -⟩ := BlockChecks.prune body reads.2.2 (he.enter.declare _ _)
    rw [Liveness.inner_forRange]
    exact ⟨_, .forRange (start.erase he reads.1) startInteger (stop.erase he reads.2.1)
      stopInteger (fun h => by cases h) (stopInLoop.erase (he.enter.declare _ _) reads.2.1) b', he⟩
  | _, _, _, _, .call found count arguments, reads, he =>
    ⟨_, .call ((he.routine? _).trans found) count (arguments.erase he reads), he⟩
  | _, _, _, _, .retValue routine nonVoid value, reads, he =>
    ⟨_, .retValue routine nonVoid (value.erase he (reads _ rfl)), he⟩
  | _, _, _, _, .retNone routine void, _, he => ⟨_, .retNone routine void, he⟩
  | _, _, _, _, .print value printable, reads, he => ⟨_, .print (value.erase he reads) printable, he⟩

/-- A block the judgment accepts, whose reads lie in the used names, is accepted once pruned:
a dead declaration it drops declares a name nothing after it reads. -/
theorem BlockChecks.prune :
    ∀ {sc sc₁ sc' : Scopes} {ss : List Stmt}, BlockChecks true ret sc ss sc₁ →
      Stmt.BlockReadsWithin live.used ret sc ss → sc.Erases live.used sc' →
      ∃ sc₁', BlockChecks false ret sc' (live.prune ss).1 sc₁' ∧ sc₁.Erases live.used sc₁'
  | _, _, _, _, .nil, _, he => ⟨_, by rw [Liveness.prune_nil_fst]; exact .nil, he⟩
  | _, _, _, _, .cons head tail, reads, he => by
    rw [Liveness.prune_cons_fst]
    split
    · rename_i hdead
      exact BlockChecks.prune tail (reads.2 _ head) (he.dead hdead head)
    · obtain ⟨_, h₁, e₁⟩ := StmtChecks.prune head reads.1 he
      obtain ⟨_, h₂, e₂⟩ := BlockChecks.prune tail (reads.2 _ head) e₁
      exact ⟨_, .cons h₁ h₂, e₂⟩

end

end Pruned

/-! ## Routines and programs -/

section Program

variable {live : Liveness}

/-- Declaring a routine's parameters in erased scopes leaves scopes that erase the ones the
full declaration leaves. -/
theorem ParamsDeclare.erase {used : List String} :
    ∀ {sc inner sc' : Scopes} {ps : List Param}, ParamsDeclare sc ps inner →
      sc.Erases used sc' → ∃ inner', ParamsDeclare sc' ps inner' ∧ inner.Erases used inner'
  | _, _, _, _, .nil, he => ⟨_, .nil, he⟩
  | _, _, _, _, .cons fresh valid resolved rest, he =>
    let ⟨_, rest', he'⟩ := ParamsDeclare.erase rest (he.declare _ _)
    ⟨_, .cons (he.fresh _ fresh) (he.env ▸ valid) (he.env ▸ resolved) rest', he'⟩

/-- A routine the judgment accepts, whose body reads only used names, is accepted in erased
scopes once its body is pruned; pruning keeps a body ending in a return ending in one. -/
theorem RoutineChecks.prune {sc sc' : Scopes} {ps : List Param} {r : Option Ty} {b : List Stmt}
    (h : RoutineChecks true sc ps r b)
    (reads : ∀ inner R, ParamsDeclare sc.enter ps inner → ReturnResolves sc.env r R →
      Stmt.BlockReadsWithin live.used (some R) inner b)
    (he : sc.Erases live.used sc') : RoutineChecks false sc' ps r (live.prune b).1 := by
  obtain ⟨params, returns, body, ends⟩ := h
  obtain ⟨_, params', he'⟩ := params.erase he.enter
  obtain ⟨_, body', -⟩ := body.prune (reads _ _ params returns) he'
  exact .intro params' (he.env ▸ returns) body' fun hv => live.endsWithReturn_prune b (ends hv)

namespace Liveness

theorem declaresGlobal_inner (s : Stmt) : (live.inner s).1.declaresGlobal = s.declaresGlobal := by
  cases s <;> simp [inner, Stmt.declaresGlobal]

theorem isDeclaration_inner (s : Stmt) :
    Check.isDeclaration (live.inner s).1 = Check.isDeclaration s := by
  cases s <;> simp [inner, Check.isDeclaration]

/-- Pruning commutes with picking the globals: it drops only variable declarations, and
pruning inside a statement keeps its kind. -/
theorem prune_filter_declaresGlobal : ∀ ss : List Stmt,
    (live.prune ss).1.filter Stmt.declaresGlobal = (live.prune (ss.filter Stmt.declaresGlobal)).1
  | [] => by simp only [prune_nil_fst, List.filter_nil]
  | s :: rest => by
    have ih := prune_filter_declaresGlobal rest
    by_cases hg : s.declaresGlobal = true
    · rw [List.filter_cons_of_pos hg, prune_cons_fst, prune_cons_fst]
      split
      · exact ih
      · rw [List.filter_cons_of_pos (by rw [declaresGlobal_inner]; exact hg), ih]
    · -- a statement that declares no global is no dead declaration either
      have hdead : live.isDead s = false := by
        cases s <;> simp_all [isDead, Stmt.declaresGlobal]
      rw [List.filter_cons_of_neg hg, prune_cons_fst, hdead, if_neg Bool.false_ne_true,
        List.filter_cons_of_neg (by rw [declaresGlobal_inner]; exact hg), ih]

/-- A statement of a pruned block is what pruning made of a statement of the block that is no
dead declaration. -/
theorem mem_prune {s' : Stmt} : ∀ {ss : List Stmt}, s' ∈ (live.prune ss).1 →
    ∃ s ∈ ss, live.isDead s = false ∧ s' = (live.inner s).1
  | [], h => by
    rw [prune_nil_fst] at h
    cases h
  | s :: rest, h => by
    rw [prune_cons_fst] at h
    split at h
    · obtain ⟨s₀, hs₀, hd, rfl⟩ := mem_prune h
      exact ⟨s₀, List.mem_cons_of_mem _ hs₀, hd, rfl⟩
    · rename_i hdead
      rcases List.mem_cons.mp h with rfl | hm
      · exact ⟨s, List.mem_cons_self, Bool.eq_false_iff.mpr hdead, rfl⟩
      · obtain ⟨s₀, hs₀, hd, rfl⟩ := mem_prune hm
        exact ⟨s₀, List.mem_cons_of_mem _ hs₀, hd, rfl⟩

end Liveness

/-- A program the judgment accepts, whose reads lie in the used names, is accepted once pruned,
from the same scopes to scopes that erase the ones it left, with no loop's variable asked to be
visible. -/
theorem Accepts.prune {sc₀ sc₁ : Scopes} {ss : List Stmt} (acc : Accepts true sc₀ sc₁ ss)
    (reads : ProgramReads live.used sc₀ sc₁ ss) :
    ∃ sc₁', Accepts false sc₀ sc₁' (live.prune ss).1 ∧ sc₁.Erases live.used sc₁' := by
  obtain ⟨sc₁', globals, he⟩ := acc.globals.prune reads.globals (Scopes.Erases.refl _ sc₀)
  refine ⟨sc₁', ⟨?_, fun n ps r b hmem => ?_, fun s' hs' hd => ?_⟩, he⟩
  · rw [live.prune_filter_declaresGlobal]
    exact globals
  · obtain ⟨b₀, hmem₀, rfl⟩ := live.mem_prune_routine hmem
    exact (acc.routines n ps r b₀ hmem₀).prune (reads.routines n ps r b₀ hmem₀) he
  · -- a statement that declares nothing leaves the scopes as they are, erased or not
    obtain ⟨s, hs, -, rfl⟩ := live.mem_prune hs'
    rw [live.isDeclaration_inner] at hd
    obtain ⟨_, hc, -⟩ := (acc.main s hs hd).prune (reads.main s hs hd) he
    obtain rfl := hc.scopes_eq (by rwa [live.isDeclaration_inner])
    exact hc

end Program

/-! ## The analyzer with dead declarations removed -/

/-- With dead declarations removed, the analyzer returns the walked program pruned by the names
the walk recorded, folded first when folding is on. -/
theorem analyze_program_pruned {o : CheckOptions} (h : o.removeUnused = true) (p : Program) :
    (analyze o p).program =
      let walked := (Check.walk p).run ⟨Scopes.empty, [], [], [], []⟩
      let live : Liveness := ⟨walked.2.used, aggregateNames walked.2.scopes walked.1⟩
      if o.foldConstants then (pruneDead live (foldConstants walked.1).1).1
      else (pruneDead live walked.1).1 := by
  have passes : (analyze o p).program =
      (optimize ((if o.foldConstants then [Pass.fold] else []) ++
        [Pass.prune ⟨((Check.walk p).run ⟨Scopes.empty, [], [], [], []⟩).2.used,
          aggregateNames ((Check.walk p).run ⟨Scopes.empty, [], [], [], []⟩).2.scopes
            ((Check.walk p).run ⟨Scopes.empty, [], [], [], []⟩).1⟩])
        ((Check.walk p).run ⟨Scopes.empty, [], [], [], []⟩).1).1 := by
    simp only [analyze, h, if_true]
    rfl
  rw [passes]
  cases o.foldConstants
  · exact optimize_prune _ _
  · exact optimize_fold_prune _ _

/-- With dead declarations removed, a program the analyzer reports nothing on is accepted as the
analyzer returns it, from the scopes its first two passes leave to scopes with the analyzer's
types and routines, with no loop's variable asked to be visible. -/
theorem analyze_accepts_pruned {o : CheckOptions} (prune : o.removeUnused = true) (p : Program)
    (quiet : (analyze o p).diagnostics = []) :
    ∃ sc₁, Accepts false (Check.declared p.statements).scopes sc₁ (analyze o p).program.statements ∧
      sc₁.env = (analyze o p).scopes.env ∧ sc₁.routines = (analyze o p).scopes.routines := by
  rw [analyze_diagnostics] at quiet
  obtain ⟨-, accepted⟩ := Check.walk_accepts p
  -- the liveness the analyzer prunes with: the names the walk recorded
  obtain ⟨sc₁, acc, he⟩ := @Accepts.prune ⟨_, aggregateNames
    ((Check.walk p).run ⟨Scopes.empty, [], [], [], []⟩).2.scopes
    ((Check.walk p).run ⟨Scopes.empty, [], [], [], []⟩).1⟩ _ _ _
    (accepted quiet).2 (Check.walk_reads p quiet)
  refine ⟨sc₁, ?_, he.env, he.routines⟩
  rw [analyze_program_pruned prune]
  cases o.foldConstants
  · exact acc
  · -- pruning the folded program is folding the pruned one
    show Accepts false _ _ (pruneDead _ (foldConstants _).1).1.statements
    rw [pruneDead_foldConstants]
    exact acc.fold

end ImpStack
