import ImpStack.Proofs.CountingLoops
import ImpStack.Proofs.StatementLowering

/-! # The bounds of a `for` loop

  The checker types both bounds of a `for` loop in the scope around the loop, where the loop's
  counter is not yet declared. Lowering lowers the start bound there too, but declares the
  counter before it lowers the end bound, which it tests at the head of the loop, inside the
  loop's scope. An end bound that names the loop's variable therefore reads the counter, not
  the variable the checker found.

  `loop_bound_reads_counter` shows what that does: with `i := 1 to i`, the exit test compares
  the counter with itself, never holds, and the loop never ends.

  Everywhere else lowering finds a name where the checker found its declaration: aligned with
  the checker's scopes, which it is at every statement (`StmtChecks.lowers`), it finds every
  name in the scope, counted from the innermost, of the checker's declaration
  (`Aligned.scopeOf_eq`). The counter's scope hides the loop's variable and nothing else
  (`Lower.counter_place`): in the end bound only the loop's variable is found elsewhere.
-/

namespace ImpStack

open Machine

/-- `var i : integer := 3; for i := 1 to i do print i`: a loop whose end bound names the loop's
variable, which outside the loop is the global `i`. -/
def boundNamingCounter : Program :=
  ⟨[.varDecl "i" (some .integer) (some (.int 3)),
    .forRange "i" (.int 1) (.var "i") false [.print (.var "i")]]⟩

/-- The initializer lowered from `boundNamingCounter`: the loop's exit test compares the
counter in slot `0` with itself. -/
def selfBoundedInitializer : List Instr :=
  [.push (.int 3), .putGlobal "i" .int, .push (.int 1), .store 0 .int,
    .label 0, .load 0 .int, .load 0 .int, .compareBranch .gt .int 1, .load 0 .int, .print .int,
    .load 0 .int, .push (.int 1), .arith .add .int, .store 0 .int, .jump 0, .label 1, .ret .void]

theorem intHolds_gt_self (c : Int32) : intHolds .gt c c = false := by
  simp [intHolds, holds]

/-- Once round the loop that compares its counter with itself: the test does not hold, the
body prints the counter, and the counter goes one up. -/
theorem selfBounded_round (m : Module) {locals : List (Nat × Value)} {c : Int32} {s : Store}
    (counter : locals.lookup 0 = some (.int c)) :
    Relation.TransGen (Moves m selfBoundedInitializer) ⟨4, ⟨[], locals⟩, s⟩
      ⟨4, ⟨[], (0, .int (c + 1)) :: locals⟩, { s with out := s.out ++ [.int c] }⟩ := by
  refine .head (.next rfl rfl) ?_
  refine .head (.next rfl (step_load _ counter)) ?_
  refine .head (.next rfl (step_load _ counter)) ?_
  refine .head (.next rfl (by rw [step_compare_int, intHolds_gt_self]; rfl)) ?_
  refine .head (.next rfl (step_load _ counter)) ?_
  refine .head (.next rfl rfl) ?_
  refine .head (.next rfl (step_load _ counter)) ?_
  refine .head (.next rfl (step_push _)) ?_
  refine .head (.next rfl (step_arith_int rfl)) ?_
  refine .head (.next rfl (step_store _ _ _)) ?_
  exact .single (.goto rfl rfl rfl)

/-- A loop whose end bound names the loop's variable reads its own counter there. The checker
accepts `var i : integer := 3; for i := 1 to i do print i`, taking the bound `i` for the global
`i` of the enclosing scope. Lowering declares the counter first and lowers the bound inside the
loop's scope, where `i` is the counter: the exit test compares slot `0` with itself and never
holds. The module prints `1`, `2`, `3`, `4`, ... and runs out of every budget of fuel, where the
bound the checker typed would stop it after `3`. -/
theorem loop_bound_reads_counter :
    (analyze {} boundNamingCounter).diagnostics = [] ∧
    ∃ m : Module, (compile {} boundNamingCounter).1 = .ok m ∧
      m.initializer.map RoutineCode.code = some selfBoundedInitializer ∧ m.Diverges := by
  obtain ⟨m, compiled, init, hinit, hcode, hglobal⟩ : ∃ m : Module,
      (compile {} boundNamingCounter).1 = .ok m ∧ ∃ init, m.initializer = some init ∧
        init.code = selfBoundedInitializer ∧ globalDefined m "i" .int = true :=
    ⟨_, rfl, _, rfl, rfl, rfl⟩
  refine ⟨rfl, m, compiled, by rw [hinit, Option.map_some, hcode], ?_⟩
  refine Module.diverges_of_initializer hinit fun fuel => ?_
  -- `3` goes to the global and the start `1` to the counter
  have head : Reaches m init.code ⟨0, ⟨[], []⟩, m.initialStore⟩
      ⟨4, ⟨[], [(0, .int 1)]⟩,
        { m.initialStore with globals := setGlobal m.initialStore.globals "i" (.int 3) }⟩ := by
    rw [hcode]
    refine .head (.next rfl (step_push _)) ?_
    refine .head (.next rfl (step_putGlobal hglobal)) ?_
    refine .head (.next rfl (step_push _)) ?_
    exact .single (.next rfl (step_store _ _ _))
  -- the head of the loop, with any counter, comes back to itself
  refine head.ranOut (fun fuel => exec_ranOut_of_recurrent
    (fun p => p.pc = 4 ∧ p.frame.stack = [] ∧ ∃ c : Int32, p.frame.locals.lookup 0 = some (.int c))
    ?_ fuel _ ⟨rfl, rfl, 1, rfl⟩) fuel
  rintro ⟨pc, ⟨stack, locals⟩, s⟩ ⟨hpc, hstack, c, counter⟩
  dsimp only at hpc hstack counter
  subst hpc hstack
  exact ⟨_, ⟨rfl, rfl, c + 1, by simp⟩, hcode ▸ selfBounded_round m counter⟩

/-! ## Where lowering finds a name -/

/-- The scope, counted from the innermost, whose declaration a lookup of `n` finds, or `none`
when no scope of the list declares `n`. -/
def scopeOf {β : Type} (frames : List (List (String × β))) (n : String) : Option Nat :=
  frames.findIdx? fun f => (f.lookup n).isSome

section ScopeOf

variable {β : Type} (n : String)

theorem scopeOf_cons (f : List (String × β)) (frames : List (List (String × β))) :
    scopeOf (f :: frames) n = if (f.lookup n).isSome then some 0 else (scopeOf frames n).map (· + 1) := by
  simp only [scopeOf, List.findIdx?_cons]

theorem scopeOf_map_snd {γ : Type} (g : β → γ) (frames : List (List (String × β))) :
    scopeOf (frames.map fun f => f.map fun b => (b.1, g b.2)) n = scopeOf frames n := by
  induction frames with
  | nil => rfl
  | cons f frames ih => rw [List.map_cons, scopeOf_cons, scopeOf_cons, ih, lookup_map_snd, Option.isSome_map]

/-- Scopes that declare nothing find no name. -/
theorem scopeOf_empty (base : List (List (String × β))) (hb : ∀ f ∈ base, f = []) :
    scopeOf base n = none := by
  induction base with
  | nil => rfl
  | cons f base ih =>
    rw [scopeOf_cons, hb f List.mem_cons_self, ih fun f' hf' => hb f' (List.mem_cons_of_mem _ hf')]
    rfl

/-- Scopes that declare nothing, further out, do not change where a name is found. -/
theorem scopeOf_append_empty (l base : List (List (String × β))) (hb : ∀ f ∈ base, f = []) :
    scopeOf (l ++ base) n = scopeOf l n := by
  induction l with
  | nil => rw [List.nil_append, scopeOf_empty n base hb]; rfl
  | cons f l ih => rw [List.cons_append, scopeOf_cons, scopeOf_cons, ih]

end ScopeOf

/-- Lowering aligned with the checker's scopes finds every name in the scope where the checker
finds its declaration: a local in the scope at the same depth from the innermost one, or, when
no local scope declares the name, the global. -/
theorem Aligned.scopeOf_eq {cx : LowerCtx} {sc : Scopes} {em : Emitter} (ha : Aligned cx sc em)
    (n : String) : scopeOf em.frames n = scopeOf sc.locals n := by
  obtain ⟨base, hfr, hbase⟩ := ha.frames
  have hfr' : em.frames.map (fun f => f.map fun b => (b.1, Local.ty b.2)) = sc.locals ++ base :=
    hfr
  rw [← scopeOf_map_snd n Local.ty, hfr', scopeOf_append_empty n _ _ hbase]

/-- Declaring a `for` loop's counter in a scope of its own hides the loop's variable and nothing
else: the variable is found as the counter, and every other name where it was found before. -/
theorem Lower.counter_place (cx : LowerCtx) (v : String) (st : LowerState) {E : Error → Prop} :
    Sat enterScope st (fun _ st₁ => Sat (declareLocal cx.alignWide v .integer .int) st₁
      (fun slot st₂ => place cx st₂.em v = .ok (.inSlot ⟨slot, .integer, .int⟩) ∧
        ∀ n, n ≠ v → place cx st₂.em n = place cx st.em n) E) E := by
  simp only [sat_enterScope, declareLocal, sat_bind, sat_allocate, sat_bindLocal, sat_pure]
  refine ⟨by simp [place, Emitter.lookup, bindIn, assocSet], fun n hn => ?_⟩
  simp [place, Emitter.lookup, bindIn, assocSet, lookup_cons_ite, hn]

end ImpStack
