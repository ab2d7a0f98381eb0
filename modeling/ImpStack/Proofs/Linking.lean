import ImpStack.Proofs.References
import ImpStack.Proofs.Reanalysis
import ImpStack.Proofs.Alignment
import ImpStack.Stack.Machine

/-! # Compiled modules are linked

  Lowered code refers to the module by name: a call names a routine with its parameter and
  result kinds, a global access names a global with its kind. The machine looks each one up
  before following it and traps when it finds nothing (`Machine.method?`,
  `Machine.globalDefined`). In a compiled module every such lookup succeeds, by three facts:

  1. the analyzer's scopes know only routines that the program it returns declares, each with
     its signature: only the walk's first pass declares routines, and every later pass, the
     optimizer's included, keeps each routine's heading (`analyze_routinesFrom`);
  2. lowering a module keeps an association list of the globals, each of which it also
     defines; it lowers every routine declaration to a routine of the module with the
     declaration's name and the kinds of its parameter and return types; and all the code it
     emits refers only to its context (`Lower.module_sat`);
  3. a type has one kind (`Lower.KindOf.unique`), so a call's kinds are its callee's.

  None of this needs the analysis to be quiet: forced lowering that succeeds is linked too.
  Record classes are another matter. A record type written out in a declaration is never
  declared, and creating such a record names a class the module does not define; the last
  theorem below compiles such a program.
-/

namespace ImpStack

/-! ## Routine declarations through the analyzer -/

/-- Every routine that `ss` declares, `ss'` declares too, with the same name, parameters and
return type; only its body may differ. -/
def RoutinesKept (ss ss' : List Stmt) : Prop :=
  ∀ n ps r b, Stmt.routine n ps r b ∈ ss → ∃ b', Stmt.routine n ps r b' ∈ ss'

namespace RoutinesKept

variable {ss₁ ss₂ ss₃ : List Stmt}

theorem refl (ss : List Stmt) : RoutinesKept ss ss := fun _ _ _ b h => ⟨b, h⟩

theorem trans (h₁ : RoutinesKept ss₁ ss₂) (h₂ : RoutinesKept ss₂ ss₃) : RoutinesKept ss₁ ss₃ := by
  intro n ps r b h
  obtain ⟨b₂, h₂'⟩ := h₁ n ps r b h
  exact h₂ n ps r b₂ h₂'

/-- A pass that keeps every heading keeps the routines. -/
theorem of_headings (h : ss₂.map Stmt.heading = ss₁.map Stmt.heading) : RoutinesKept ss₁ ss₂ := by
  intro n ps r b hmem
  have hd : some (Stmt.routine n ps r []) ∈ ss₂.map Stmt.heading := by
    rw [h]
    exact List.mem_map_of_mem (f := Stmt.heading) hmem
  obtain ⟨s, hs, he⟩ := List.mem_map.mp hd
  cases s with
  | routine n' ps' r' b' =>
    simp only [Stmt.heading, Option.some.injEq, Stmt.routine.injEq, and_true] at he
    obtain ⟨rfl, rfl, rfl⟩ := he
    exact ⟨b', hs⟩
  | _ => simp [Stmt.heading] at he

end RoutinesKept

theorem Liveness.prune_cons_fst (live : Liveness) (s : Stmt) (rest : List Stmt) :
    (live.prune (s :: rest)).1 =
      if live.isDead s then (live.prune rest).1 else (live.inner s).1 :: (live.prune rest).1 := by
  rw [Liveness.prune]
  obtain ⟨rest', cr⟩ := live.prune rest
  dsimp only
  split <;> rfl

/-- Dead-declaration removal drops only variable declarations, and pruning a routine keeps its
heading. -/
theorem Liveness.prune_keeps (live : Liveness) : ∀ ss : List Stmt,
    RoutinesKept ss (live.prune ss).1 := by
  intro ss
  induction ss with
  | nil => exact fun _ _ _ _ h => absurd h List.not_mem_nil
  | cons s rest ih =>
    intro n ps r b hmem
    rw [Liveness.prune_cons_fst]
    rcases List.mem_cons.mp hmem with rfl | hrest
    · exact ⟨_, List.mem_cons_self⟩
    · obtain ⟨b', hb'⟩ := ih n ps r b hrest
      split
      · exact ⟨b', hb'⟩
      · exact ⟨b', List.mem_cons_of_mem _ hb'⟩

/-- A preorder that every pass establishes between a program and what it makes of it holds
between a program and its optimization. -/
theorem optimize_preserves (R : Program → Program → Prop) (refl : ∀ p, R p p)
    (trans : ∀ {p₁ p₂ p₃}, R p₁ p₂ → R p₂ p₃ → R p₁ p₃) (pass : ∀ (ps : Pass) p, R p (ps.run p).1)
    (passes : List Pass) (p : Program) : R p (optimize passes p).1 := by
  -- a round runs the passes in order, each over what the last one left
  have round : ∀ p₁, R p p₁ → R p (optimizeRound passes p₁).1 := by
    intro p₁ h
    unfold optimizeRound
    refine List.foldlRecOn (motive := fun acc : Program × Bool × List LogLine => R p acc.1) passes _ h
      fun acc hacc q _ => ?_
    obtain ⟨p₂, changed, log⟩ := acc
    dsimp only
    split <;> exact trans hacc (pass q p₂)
  have rounds : ∀ n p₁, R p p₁ → R p (optimizeFor passes n p₁).1 := by
    intro n
    induction n with
    | zero => exact fun _ h => h
    | succ n ih =>
      intro p₁ h
      rw [optimizeFor_succ]
      split
      · exact ih _ (round p₁ h)
      · exact round p₁ h
  exact rounds maxRounds p (refl p)

namespace Check

theorem RoutinesFrom.congr {all : List Stmt} {sc sc' : Scopes} (h : sc'.routines = sc.routines)
    (hr : RoutinesFrom all sc) : RoutinesFrom all sc' :=
  fun n sig hm => hr n sig (h ▸ hm)

theorem RoutinesFrom.of_kept {all all' : List Stmt} {sc : Scopes} (hk : RoutinesKept all all')
    (hr : RoutinesFrom all sc) : RoutinesFrom all' sc := by
  intro n sig hm
  obtain ⟨ps, r, b, hmem, rfl⟩ := hr n sig hm
  obtain ⟨b', hmem'⟩ := hk n ps r b hmem
  exact ⟨ps, r, b', hmem', rfl⟩

/-- The walk ends in scopes that know only the routines the program declares, with their
signatures: only the first pass declares routines. -/
theorem walk_routinesFrom (p : Program) :
    CSat (walk p) ⟨Scopes.empty, [], [], [], []⟩
      (fun _ st' => RoutinesFrom p.statements st'.scopes) := by
  rw [walk_eq]
  simp only [csat_bind, csat_note, csat_get, csat_pure]
  refine (declarations_sat p.statements _ fun _ _ h => absurd h List.not_mem_nil).mono
    fun _ st₁ h₁ => ?_
  refine (globals_quiet p.statements st₁).mono₃ fun ss₃ st₂ r₂ _ _ => ?_
  refine (routines_quiet ss₃ _).mono₃ fun ss₄ st₃ r₃ _ _ => ?_
  refine (main_quiet ss₄ _).mono₃ fun _ st₄ r₄ _ _ => ?_
  exact h₁.2.1.congr (by rw [r₄.routines, r₃.routines, r₂.routines])

end Check

open Check

/-- The analyzer's scopes know only routines that the program it returns declares, each with
its signature. -/
theorem analyze_routinesFrom (o : CheckOptions) (p : Program) :
    RoutinesFrom (analyze o p).program.statements (analyze o p).scopes := by
  obtain ⟨heads, -⟩ := walk_quiet p
  refine ((walk_routinesFrom p).of_kept (RoutinesKept.of_headings heads)).of_kept
    (optimize_preserves (fun q q' => RoutinesKept q.statements q'.statements)
      (fun q => RoutinesKept.refl _) (fun h₁ h₂ => h₁.trans h₂) ?_ _ _)
  intro pass q
  cases pass with
  | fold =>
    refine RoutinesKept.of_headings ?_
    show (Fold.block q.statements).1.map Stmt.heading = _
    rw [Fold.block_fst, List.map_map]
    exact List.map_congr_left fun s _ => Fold.stmt_heading s
  | prune live => exact live.prune_keeps q.statements

/-! ## Lowering a module -/

namespace Lower

/-- Every global the association list knows is among the definitions, with its kind. -/
def GlobalsListed (defs : List GlobalDef) (gs : List (String × Ty × ValueKind)) : Prop :=
  ∀ n t k, gs.lookup n = some (t, k) → (⟨n, k⟩ : GlobalDef) ∈ defs

theorem GlobalsListed.push {defs : Array GlobalDef} {gs : List (String × Ty × ValueKind)}
    (h : GlobalsListed defs.toList gs) (n : String) (t : Ty) (k : ValueKind) :
    GlobalsListed (defs.push ⟨n, k⟩).toList (assocSet gs n (t, k)) := by
  intro m t' k' hm
  rw [lookup_assocSet] at hm
  rw [Array.toList_push, List.mem_append]
  split at hm
  · cases hm
    subst m
    exact .inr (List.mem_singleton_self _)
  · exact .inl (h m t' k' hm)

/-- Each routine that `ss` declares is lowered to one of `rs`, under its name and with the
kinds of its parameter and return types. -/
def RoutinesLowered (cx : LowerCtx) (ss : List Stmt) (rs : List RoutineCode) : Prop :=
  ∀ n ps r b, Stmt.routine n ps r b ∈ ss → ∃ rc ∈ rs, rc.name = n ∧
    List.Forall₂ (KindOf cx.env) (ps.map (·.ty)) rc.params ∧
    KindOf cx.env (returnTypeOrVoid r) rc.ret

namespace RoutinesLowered

variable {cx : LowerCtx} {done : List Stmt} {rs : Array RoutineCode}

theorem push {n : String} {ps : List Param} {r : Option Ty} {b : List Stmt} {rc : RoutineCode}
    (h : RoutinesLowered cx done rs.toList) (hname : rc.name = n)
    (hps : List.Forall₂ (KindOf cx.env) (ps.map (·.ty)) rc.params)
    (hret : KindOf cx.env (returnTypeOrVoid r) rc.ret) :
    RoutinesLowered cx (done ++ [.routine n ps r b]) (rs.push rc).toList := by
  intro n' ps' r' b' hmem
  rw [Array.toList_push]
  rcases List.mem_append.mp hmem with hmem | hmem
  · obtain ⟨rc', hm, hrest⟩ := h n' ps' r' b' hmem
    exact ⟨rc', List.mem_append_left _ hm, hrest⟩
  · obtain ⟨rfl, rfl, rfl, rfl⟩ := Stmt.routine.inj (List.mem_singleton.mp hmem)
    exact ⟨rc, List.mem_append_right _ (List.mem_singleton_self _), hname, hps, hret⟩

theorem skip {st : Stmt} (h : RoutinesLowered cx done rs.toList)
    (hst : ∀ n ps r b, st = .routine n ps r b → False) :
    RoutinesLowered cx (done ++ [st]) rs.toList := by
  intro n ps r b hmem
  rcases List.mem_append.mp hmem with hmem | hmem
  · exact h n ps r b hmem
  · exact (hst n ps r b (List.mem_singleton.mp hmem).symm).elim

end RoutinesLowered

/-- What lowering the statements `ss` to the module `m` in the context `cx` establishes: the
context's types and routines are those of the scopes, every global it knows is one of `m`'s
with its kind, all of `m`'s code refers only to the context, and every routine `ss` declares
is lowered to one of `m`'s routines. -/
structure Lowered (scopes : Scopes) (ss : List Stmt) (cx : LowerCtx) (m : Module) : Prop where
  env : cx.env = scopes.env
  routines : cx.routines = scopes.routines
  globals : GlobalsListed m.globals cx.globals
  refers : ∀ rc ∈ m.routines ++ m.initializer.toList, ∀ i ∈ rc.code, Refers cx i
  lowered : RoutinesLowered cx ss m.routines

/-- A module lowered from a program is lowered in a context that the module defines. -/
theorem module_sat (scopes : Scopes) (opts : LowerOptions) (p : Program) (s : LowerState) :
    LSat (module scopes opts p) s (fun m _ => ∃ cx, Lowered scopes p.statements cx m) := by
  unfold module
  rw [lsat_bind]
  -- the record layouts play no part
  intro types s₁ _
  dsimp only
  rw [lsat_bind]
  refine (lsat_forIn (fun _ acc _ => GlobalsListed acc.1.toList acc.2) (fun _ _ _ h => by cases h)
      ?_).mono fun acc s₂ hacc => ?_
  · -- a declaration of a variable or an array adds its global to both lists
    intro done st rest acc s₃ _ hI
    split
    case h_1 | h_2 =>
      rw [lsat_bind]
      intro ty s₄ _
      rw [lsat_bind, lsat_pure, lsat_bind]
      intro k s₅ _
      rw [lsat_pure]
      exact ⟨_, rfl, hI.push _ _ _⟩
    case h_3 =>
      rw [lsat_bind, lsat_pure, lsat_pure]
      exact ⟨_, rfl, hI⟩
  generalize hcx : (⟨scopes.env, scopes.routines, acc.snd, opts.alignWide⟩ : LowerCtx) = cx
  rw [lsat_bind]
  refine (lsat_forIn (fun done rs _ => (∀ rc ∈ rs.toList, ∀ i ∈ rc.code, Refers cx i) ∧
      RoutinesLowered cx done rs.toList) ⟨by simp, by simp [RoutinesLowered]⟩ ?_).mono
    fun rs s₃ hrs => ?_
  · intro done st rest rs s₄ _ hI
    split
    · rename_i n ps r b _
      rw [lsat_bind]
      refine (routine_sat cx n ps r b s₄).mono fun rc _ hrc => ?_
      rw [lsat_pure]
      refine ⟨_, rfl, fun rc' h' => ?_, hI.2.push hrc.1 hrc.2.1 hrc.2.2.1⟩
      rw [Array.toList_push, List.mem_append, List.mem_singleton] at h'
      rcases h' with h' | rfl
      · exact hI.1 rc' h'
      · exact hrc.2.2.2
    · rename_i other
      rw [lsat_pure]
      exact ⟨_, rfl, hI.1, hI.2.skip other⟩
  rw [lsat_bind]
  refine (initializer_sat cx p.statements s₃).mono fun init s₄ hinit => ?_
  rw [lsat_bind]
  refine ((Yields.note _ _ : Yields (Refers cx) _ _) s₄).mono fun _ _ _ => ?_
  rw [lsat_pure]
  refine ⟨cx, by rw [← hcx], by rw [← hcx], by rw [← hcx]; exact hacc, ?_, hrs.2⟩
  intro rc hrc
  rcases List.mem_append.mp hrc with h | h
  · exact hrs.1 rc h
  · exact hinit rc (by simpa using h)

end Lower

/-! ## Linked modules -/

open Lower

/-- An instruction passes the machine's lookups in `m`: a call finds a routine by its name,
parameter kinds and result kind, and a global access finds a global of its name and kind.
Instructions that name a record class are not covered. -/
def Instr.Links (m : Module) : Instr → Prop
  | .call n ks k => (Machine.method? m n ks k).isSome
  | .getGlobal n k | .putGlobal n k => Machine.globalDefined m n k = true
  | _ => True

theorem globalDefined_of_mem {m : Module} {n : String} {k : ValueKind}
    (h : (⟨n, k⟩ : GlobalDef) ∈ m.globals) : Machine.globalDefined m n k = true :=
  List.any_eq_true.mpr ⟨_, h, by simp⟩

/-- In a module lowered against scopes whose routines the program declares, every reference
into the context links. -/
theorem Lower.Lowered.links {scopes : Scopes} {ss : List Stmt} {cx : LowerCtx} {m : Module}
    (h : Lowered scopes ss cx m) (hr : RoutinesFrom ss scopes) {i : Instr} (hi : Refers cx i) :
    i.Links m := by
  cases i with
  | call n ks k =>
    obtain ⟨sig, found, params, ret⟩ := hi
    rw [h.routines] at found
    obtain ⟨ps, r, b, hmem, rfl⟩ := hr n sig (mem_of_lookup found)
    obtain ⟨rc, hrc, hname, hps, hret⟩ := h.lowered n ps r b hmem
    -- the callee's kinds are those of the types in its signature, and so the call's
    have eps : rc.params = ks := KindOf.forall₂_unique hps params
    have eret : rc.ret = k := KindOf.unique hret ret
    show (m.routines.find? _).isSome
    exact List.find?_isSome.mpr ⟨rc, hrc, by simp [hname, eps, eret]⟩
  | getGlobal n k =>
    obtain ⟨t, ht⟩ := hi
    exact globalDefined_of_mem (h.globals n t k ht)
  | putGlobal n k =>
    obtain ⟨t, ht⟩ := hi
    exact globalDefined_of_mem (h.globals n t k ht)
  | _ => trivial

/-- Lowering that succeeds against scopes whose routines the program declares gives a linked
module. -/
theorem lowerProgram_links {scopes : Scopes} {opts : LowerOptions} {p : Program} {m : Module}
    (hr : RoutinesFrom p.statements scopes) (h : (lowerProgram scopes opts p).1 = .ok m) :
    ∀ rc ∈ m.routines ++ m.initializer.toList, ∀ i ∈ rc.code, i.Links m := by
  obtain ⟨cx, hl⟩ := module_sat scopes opts p _ m _ (Prod.ext h rfl)
  exact fun rc hrc i hi => hl.links hr (hl.refers rc hrc i hi)

/-- Every call in a compiled module finds a routine of the module with the call's name,
parameter kinds and result kind, and every global access finds a global of the module with
the access's name and kind. -/
theorem compile_links (opts : CompileOptions) (p : Program) (m : Module)
    (h : (compile opts p).1 = .ok m) :
    ∀ rc ∈ m.routines ++ m.initializer.toList, ∀ i ∈ rc.code, i.Links m := by
  unfold compile at h
  dsimp only at h
  split at h
  · exact lowerProgram_links (analyze_routinesFrom opts.check p) h
  · cases h

/-- A global that the initializer writes and then reads. -/
theorem global_read_links :
    let p : Program := ⟨[.varDecl "g" (some .integer) (some (.int 1)), .print (.var "g")]⟩
    ∃ m, (compile {} p).1 = .ok m ∧
      ∀ rc ∈ m.routines ++ m.initializer.toList, ∀ i ∈ rc.code, i.Links m := by
  intro p
  exact ⟨_, rfl, compile_links {} p _ rfl⟩

/-- Lowering forced past diagnostics is linked too when it succeeds. -/
theorem compileForced_links (opts : CompileOptions) (p : Program) (m : Module)
    (h : (compileForced opts p).2 = .ok m) :
    ∀ rc ∈ m.routines ++ m.initializer.toList, ∀ i ∈ rc.code, i.Links m :=
  lowerProgram_links (analyze_routinesFrom opts.check p) h

/-- A record type written out in a declaration is not declared: the module defines no class
`Foo`, yet its initializer creates a `Foo`. -/
theorem structural_record_unlinked :
    let p : Program := ⟨[.varDecl "r" (some (.record "Foo" [("a", .integer)])) none]⟩
    ∃ m, (compile {} p).1 = .ok m ∧ m.typeDef? "Foo" = none ∧
      ∃ rc ∈ m.initializer.toList, Instr.newRecord "Foo" ∈ rc.code :=
  ⟨_, rfl, rfl, _, List.mem_singleton_self _, List.Mem.head _⟩

end ImpStack
