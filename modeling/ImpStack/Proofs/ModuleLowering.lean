import ImpStack.Proofs.StatementLowering
import ImpStack.Proofs.Recheck
import ImpStack.Proofs.Linking
import ImpStack.Proofs.ScopeMaps

/-! # Accepted programs lower

Lowering follows the checker statement by statement (`StatementLowering`); this module takes
the simulation up to whole programs.

  * While the checker declares the globals it passes through global scopes that are all
    `Within` the scopes it ends in: the same routines and types, and fewer globals, each with
    its final type. A context aligned with the final scopes is aligned with each of them.
  * A routine the checker accepts lowers from a context aligned with the global scopes
    (`Lower.routine_lowers`); so does the initializer, which lowers each global's first value
    in the scopes the checker declared the global in and every other top-level statement in the
    final scopes (`Lower.initializer_lowers`).
  * The module's loops over the record layouts and the globals succeed and build a context
    aligned with the final scopes, from which every routine and the initializer lower
    (`Lower.module_lowers`). A module whose code renders assembles (`assemble_ok`).

What lowering needs beyond the check is the readiness of `StatementLowering` at the top level:
record fields whose types resolve, and variables, parameters and arrays whose values can be
stored and created (`Stmt.TopLowerable`); rendering needs the sizes and constants to fit
(`Stmt.TopFits`).
-/

namespace ImpStack

open Lower

/-! ## The global scopes on the way -/

namespace Scopes

variable {sc sc' sc'' : Scopes} {n : String} {T : Ty}

theorem typeOf?_top (top : sc.locals = []) (n : String) : sc.typeOf? n = sc.globals.lookup n := by
  simp [typeOf?, frames, top]

theorem isDefinedHere_top (top : sc.locals = []) (n : String) :
    sc.isDefinedHere n = (sc.typeOf? n).isSome := by
  simp [isDefinedHere, frames, top, typeOf?_top top, Frame.declares_eq]

theorem declare_top (top : sc.locals = []) : (sc.declare n T).locals = [] := by
  simp [declare, top]

/-- `sc` is one of the global scopes the checker passes through on its way to `sc'`: neither has
a local scope, both know the same routines and types, and every global of `sc` is one of `sc'`,
with its type. -/
structure Within (sc sc' : Scopes) : Prop where
  top : sc.locals = []
  top' : sc'.locals = []
  types : sc.types = sc'.types
  routines : sc.routines = sc'.routines
  vars : ∀ n T, sc.typeOf? n = some T → sc'.typeOf? n = some T

namespace Within

theorem refl (top : sc.locals = []) : sc.Within sc := ⟨top, top, rfl, rfl, fun _ _ h => h⟩

theorem trans (h₁ : sc.Within sc') (h₂ : sc'.Within sc'') : sc.Within sc'' :=
  ⟨h₁.top, h₂.top', h₁.types.trans h₂.types, h₁.routines.trans h₂.routines,
    fun n T h => h₂.vars n T (h₁.vars n T h)⟩

theorem env (h : sc.Within sc') : sc.env = sc'.env := h.types

theorem varsStorable (h : sc.Within sc') (hv : sc'.VarsStorable) : sc.VarsStorable :=
  fun n T hn => h.env ▸ hv n T (h.vars n T hn)

theorem varsResolved (h : sc.Within sc') (hv : sc'.VarsResolved) : sc.VarsResolved :=
  fun n T hn => hv n T (h.vars n T hn)

theorem routine? (h : sc.Within sc') (n : String) : sc.routine? n = sc'.routine? n := by
  simp [Scopes.routine?, h.routines]

theorem signatures (h : sc.Within sc') (hs : sc'.SignaturesResolve) : sc.SignaturesResolve := by
  intro n sig hsig
  rw [h.env]
  exact hs n sig (h.routine? n ▸ hsig)

theorem fit {ret : Option Ty} (h : sc.Within sc') (hf : sc'.Fit ret) : sc.Fit ret where
  renderable := ⟨h.varsStorable hf.renderable.vars, fun m sig hsig => by
    rw [h.env]; exact hf.renderable.params m sig (h.routine? m ▸ hsig)⟩
  vars n T hn := hf.vars n T (h.vars n T hn)
  types := h.env ▸ hf.types
  returns := hf.returns

/-- Lowering aligned with the scopes at the end of the globals is aligned with every global
scope on the way: they only know fewer globals. -/
theorem aligned {cx : LowerCtx} {em : Emitter} (h : sc.Within sc') (ha : Aligned cx sc' em) :
    Aligned cx sc em where
  env := ha.env.trans h.env.symm
  routines := ha.routines.trans h.routines.symm
  globals n T hn := ha.globals n T (by
    rw [← typeOf?_top h.top', h.vars n T (by rw [typeOf?_top h.top]; exact hn)])
  globalKinds := ha.globalKinds
  frames := by
    obtain ⟨base, hb, hbase⟩ := ha.frames
    exact ⟨base, by rw [hb, h.top', h.top], hbase⟩
  localKinds := ha.localKinds
  nonempty := ha.nonempty
  resolved := h.varsResolved ha.resolved
  signatures := h.signatures ha.signatures

end Within

end Scopes

section Top

variable {loops : Bool} {ret : Option Ty} {sc sc' : Scopes} {s : Stmt} {ss : List Stmt}

/-- At the top level a checked statement only adds a global of a fresh name. -/
theorem StmtChecks.within (h : StmtChecks loops ret sc s sc') (top : sc.locals = []) :
    sc.Within sc' := by
  cases h with
  | declare fresh _ _ _ | array fresh _ _ _ =>
    refine ⟨top, Scopes.declare_top top, by simp, by simp, fun m U hm => ?_⟩
    rw [Scopes.typeOf?_declare]
    split
    · subst m
      rw [Scopes.isDefinedHere_top top, hm] at fresh
      cases fresh
    · exact hm
  | _ => exact .refl top

theorem BlockChecks.within (h : BlockChecks loops ret sc ss sc') (top : sc.locals = []) :
    sc.Within sc' := by
  induction ss generalizing sc with
  | nil => cases h; exact .refl top
  | cons s ss ih =>
    obtain _ | ⟨head, tail⟩ := h
    have h₁ := head.within top
    exact h₁.trans (ih tail h₁.top')

theorem Stmt.allLowerable_iff {env : TypeEnv} {ss : List Stmt} :
    Stmt.allLowerable env ss ↔ ∀ s ∈ ss, s.Lowerable env := by
  induction ss with
  | nil => simp [Stmt.allLowerable]
  | cons s ss ih => simp [Stmt.allLowerable, ih]

theorem Stmt.allFit_iff {ss : List Stmt} : Stmt.allFit ss ↔ ∀ s ∈ ss, s.Fits := by
  induction ss with
  | nil => simp [Stmt.allFit]
  | cons s ss ih => simp [Stmt.allFit, ih]

/-- Checked declarations of storable types keep the variables storable. -/
theorem BlockChecks.varsStorable (h : BlockChecks loops ret sc ss sc') (hv : sc.VarsStorable)
    (hl : ∀ s ∈ ss, s.Lowerable sc.env) : sc'.VarsStorable := by
  induction ss generalizing sc with
  | nil => cases h; exact hv
  | cons s ss ih =>
    obtain _ | ⟨head, tail⟩ := h
    refine ih tail (head.varsStorable hv (hl s List.mem_cons_self)) fun s' hs' => ?_
    rw [head.env_eq]
    exact hl s' (List.mem_cons_of_mem _ hs')

/-- Checked declarations of storable types whose sizes fit keep the scopes fitting. -/
theorem BlockChecks.fit (h : BlockChecks loops ret sc ss sc') (hf : sc.Fit ret)
    (hl : ∀ s ∈ ss, s.Lowerable sc.env) (hs : ∀ s ∈ ss, s.Fits) : sc'.Fit ret := by
  induction ss generalizing sc with
  | nil => cases h; exact hf
  | cons s ss ih =>
    obtain _ | ⟨head, tail⟩ := h
    refine ih tail (head.fit hf (hl s List.mem_cons_self) (hs s List.mem_cons_self))
      (fun s' hs' => ?_) fun s' hs' => hs s' (List.mem_cons_of_mem _ hs')
    rw [head.env_eq]
    exact hl s' (List.mem_cons_of_mem _ hs')

/-- At the top level, outside every routine, a checked statement that declares nothing lowers
as it does inside one: the blocks it holds open scopes of their own. -/
theorem StmtChecks.lowers_top {cx : LowerCtx} (h : StmtChecks loops none sc s sc')
    (hd : Check.isDeclaration s = false) : StmtLowers cx none sc s sc' := by
  have hR : ∀ R, (none : Option Ty) = some R → R.Resolved := fun _ h => (Option.some_ne_none _ h.symm).elim
  cases h with
  | declare | declareUntyped | array => simp [Check.isDeclaration] at hd
  | assign target value => exact .assign target value
  | ifThen cond _ thenBranch elseBranch =>
    exact .ifThen cond (thenBranch.lowers hR (by simp)) (elseBranch.lowers hR (by simp))
  | whileDo cond _ body => exact .whileDo cond (body.lowers hR (by simp))
  | forRange start _ _ _ _ stopInLoop body =>
    exact .forRange start stopInLoop (body.lowers hR (Scopes.declare_locals_ne_nil _ _ _ (by simp)))
  | call found count arguments => exact .call found count arguments
  | retValue routine => cases routine
  | retNone routine => cases routine
  | print value printable => exact .print value printable

end Top

/-! ## Routines -/

section Routines

variable {cx : LowerCtx} {sc : Scopes} {em : Emitter}

/-- A routine starts with one empty frame: aligned with the global scopes entered once. -/
theorem Aligned.start (ha : Aligned cx sc em) (top : sc.locals = []) (n : String) (R : Ty) :
    Aligned cx sc.enter (Emitter.start n R) where
  env := ha.env
  routines := ha.routines
  globals := ha.globals
  globalKinds := ha.globalKinds
  frames := ⟨[], by simp [Emitter.start, frameTypes, top], by simp⟩
  localKinds f hf := by simp [Emitter.start] at hf; simp [hf]
  nonempty := by simp [Emitter.start]
  resolved := ha.resolved.enter
  signatures := ha.signatures

/-- The initializer starts with one empty frame, which hides no global. -/
theorem Aligned.restart (ha : Aligned cx sc em) (top : sc.locals = []) (n : String) (R : Ty) :
    Aligned cx sc (Emitter.start n R) where
  env := ha.env
  routines := ha.routines
  globals := ha.globals
  globalKinds := ha.globalKinds
  frames := ⟨[[]], by simp [Emitter.start, frameTypes, top], by simp⟩
  localKinds f hf := by simp [Emitter.start] at hf; simp [hf]
  nonempty := by simp [Emitter.start]
  resolved := ha.resolved
  signatures := ha.signatures

namespace ParamsDeclare

variable {ps : List Param} {inner : Scopes} {ret : Option Ty}

/-- Parameters of storable types keep the variables storable. -/
theorem varsStorable (h : ParamsDeclare sc ps inner) (hv : sc.VarsStorable)
    (hp : ∀ p ∈ ps, ∀ P, p.ty.resolveDeep sc.env = .ok P → P.Storable sc.env) :
    inner.VarsStorable := by
  induction h with
  | nil => exact hv
  | cons _ _ resolved _ ih =>
    refine ih (hv.declare (hp _ List.mem_cons_self _ resolved) _) fun p hm P hP => ?_
    simpa using hp p (List.mem_cons_of_mem _ hm) P (by simpa using hP)

/-- Parameters of storable types whose sizes fit keep the scopes fitting. -/
theorem fit (h : ParamsDeclare sc ps inner) (hf : sc.Fit ret)
    (hp : ∀ p ∈ ps, ∀ P, p.ty.resolveDeep sc.env = .ok P → P.Storable sc.env)
    (hs : ∀ p ∈ ps, p.ty.SizesFit) : inner.Fit ret := by
  induction h with
  | nil => exact hf
  | cons _ _ resolved _ ih =>
    refine ih (hf.declare (hp _ List.mem_cons_self _ resolved)
      (Ty.SizesFit.resolveDeep hf.types (hs _ List.mem_cons_self) resolved) _)
      (fun p hm P hP => ?_) fun p hm => hs p (List.mem_cons_of_mem _ hm)
    simpa using hp p (List.mem_cons_of_mem _ hm) P (by simpa using hP)

end ParamsDeclare

/-- Declaring a routine's parameters, on both sides: each in the innermost frame, with the
checker's type and its kind, in the next slots. -/
theorem Lower.params_sat {E : Error → Prop} {ps : List Param} {inner : Scopes}
    (h : ParamsDeclare sc ps inner) (hl : sc.locals ≠ []) :
    ∀ (st : LowerState) (kinds : Array ValueKind), Aligned cx sc st.em →
      Sat (forIn ps kinds fun p acc => do
          let t ← resolve cx p.ty
          let k ← kind cx t
          declareParam p.name t k
          pure (ForInStep.yield (acc.push k))) st
        (fun _ st' => Aligned cx inner st'.em ∧ st'.em.returnType = st.em.returnType ∧
          st'.em.code = st.em.code) E := by
  induction h with
  | nil => exact fun st _ ha => ⟨ha, rfl, rfl⟩
  | @cons sc₀ _ p _ T _ _ resolved _ ih =>
    intro st kinds ha
    have hT := Ty.resolveDeep_resolved resolved
    obtain ⟨k, hk⟩ : ∃ k, ValueKind.of cx.env T = .ok k := ValueKind.of_resolved_ok hT
    rw [List.forIn_cons]
    simp only [sat_bind, resolve, sat_orFail_ok (resolveIn_ok (ha.env ▸ resolved)), kind,
      sat_orFail_ok hk, sat_declareParam, sat_pure]
    refine (ih (Scopes.declare_locals_ne_nil _ _ _ hl) _ _
      ((ha.declare (l := ⟨_, T, k⟩) hl hT hk).of_frames rfl)).mono
      (fun _ _ h' => ⟨h'.1, h'.2.1, h'.2.2⟩) (fun _ h' => h')

/-- A routine's return type resolves, in a context aligned with the checker's scopes, to the
type the checker gave it. -/
theorem ReturnResolves.resolveIn {r : Option Ty} {R : Ty} (returns : ReturnResolves sc.env r R)
    (henv : cx.env = sc.env) : resolveIn cx.env (returnTypeOrVoid r) = .ok R := by
  cases r with
  | none => cases returns; exact resolveIn_self (show Ty.void.Resolved from trivial)
  | some t => exact resolveIn_ok (henv ▸ returns.2)

/-- A routine the checker accepts in the global scopes `sc` lowers, from a context aligned with
them, when the variables it can see are storable and its body's declarations lowerable. Its code
renders when, besides, the sizes and constants it meets fit. -/
theorem Lower.routine_lowers {loops : Bool} {n : String} {ps : List Param} {r : Option Ty}
    {b : List Stmt} (h : RoutineChecks loops sc ps r b) (ha : Aligned cx sc em)
    (top : sc.locals = []) (storable : sc.VarsStorable)
    (params : ∀ p ∈ ps, ∀ P, p.ty.resolveDeep sc.env = .ok P → P.Storable sc.env)
    (lowerable : Stmt.allLowerable sc.env b) (st : LowerState) :
    Sat (routine cx n ps r b) st
      (fun rc _ => sc.Fit none ∧ (∀ p ∈ ps, p.ty.SizesFit) ∧ (∀ t, r = some t → t.SizesFit) ∧
        Stmt.allFit b → ∀ i ∈ rc.code, i.Renders)
      (fun _ => False) := by
  obtain ⟨hps, returns, body, -⟩ := h
  rename_i inner _ R
  -- the return type resolves to the checker's, which the body's returns are checked against
  have hR : resolveIn cx.env (returnTypeOrVoid r) = .ok R := returns.resolveIn ha.env
  have hRr : R.Resolved := resolveIn_resolved hR
  obtain ⟨rk, hrk⟩ : ∃ k, ValueKind.of cx.env R = .ok k := ValueKind.of_resolved_ok hRr
  have henv : inner.env = sc.env := hps.env_eq
  have hinner : inner.locals ≠ [] := (hps.exit_eq (by simp)).2
  unfold routine
  simp only [sat_bind, sat_note, resolve, sat_orFail_ok hR, kind, sat_orFail_ok hrk,
    sat_startRoutine]
  refine (params_sat hps (by simp) _ #[] (ha.start top n R)).mono (fun kinds st₁ h₁ => ?_)
    (fun _ h' => h')
  obtain ⟨ha₁, r₁, c₁⟩ := h₁
  refine ((body.lowers (fun R' hR' => Option.some.inj hR' ▸ hRr) hinner) st₁ ha₁
    fun R' hR' => r₁.trans (Option.some.inj hR')).mono (fun _ st₂ h₂ => ?_)
    (fun _ h' => h' ⟨hps.varsStorable storable.enter params, henv ▸ lowerable⟩)
  refine sat_emitWhen_emits_bind (by simp) fun st₃ h₃ => ?_
  simp only [finish, sat_bind, sat_emitter, sat_pure]
  intro hr i hi
  -- the body's scopes fit: the globals' do, and so do the parameters and the return type
  have fit : inner.Fit (some R) := by
    refine hps.fit ⟨⟨storable.enter, fun m sig hsig => hr.1.renderable.params m sig hsig⟩,
      fun m T hT => hr.1.vars m T (by simpa using hT), hr.1.types, fun R' hR' => ?_⟩ params hr.2.1
    cases Option.some.inj hR'
    cases r with
    | none => cases returns; trivial
    | some t => exact Ty.SizesFit.resolveDeep hr.1.types (hr.2.2.1 t rfl) returns.2
  have code₁ : CodeRenders st₁.em.code := by rw [c₁]; simp [Emitter.start]
  exact h₃.2 trivial (h₂.2.renders ⟨fit, henv ▸ lowerable, hr.2.2.2⟩ code₁) i hi

end Routines

/-! ## The initializer -/

section Initializer

variable {cx : LowerCtx} {loops : Bool} {sc₀ sc' : Scopes} {ss : List Stmt}

variable {st : LowerState} {E : Error → Prop} {scj scj₁ : Scopes}

/-- A global the checker declared on its way to `sc'` is a global of every context aligned with
`sc'`, with the checker's type and that type's kind. -/
theorem Aligned.global_declared {n : String} {T : Ty} {em : Emitter} (ha : Aligned cx sc' em)
    (hw : (scj.declare n T).Within sc') :
    ∃ k, global cx n = .ok (.inGlobal n T k) ∧ ValueKind.of cx.env T = .ok k := by
  have hn : sc'.globals.lookup n = some T := by
    rw [← Scopes.typeOf?_top hw.top']
    exact hw.vars n T (by simp)
  obtain ⟨k, hk⟩ := ha.globals n T hn
  exact ⟨k, by simp [global, hk], ha.globalKinds n T k hk⟩

/-- The first value of a global variable the checker declared on its way to `sc'`: lowering
finds the global with the checker's type, lowers the first value as a local's, and stores it. -/
theorem Lower.global_sat {n : String} {t : Option Ty} {i : Option Expr}
    (h : StmtChecks loops none scj (.varDecl n t i) scj₁) (top : scj.locals = [])
    (hw : scj₁.Within sc') (ha : Aligned cx sc' st.em) (storable : sc'.VarsStorable)
    (lowerable : (Stmt.varDecl n t i).Lowerable sc'.env) {Q : Unit → LowerState → Prop}
    (hQ : ∀ st', Emits (sc'.Fit none ∧ (Stmt.varDecl n t i).Fits) st st' → Q () st') :
    Sat (orFail (global cx n)) st
      (fun p st₁ => Sat (initialValue cx p.ty i) st₁ (fun _ st₂ => Sat (storePlace p) st₂ Q E) E) E := by
  have hw₀ : scj.Within sc' := (h.within top).trans hw
  have haj : Aligned cx scj st.em := hw₀.aligned ha
  have fields : scj.FieldsResolve := (hw₀.varsStorable storable).fieldsResolve haj.resolved
  cases h with
  | @declare _ _ t T _ _ _ resolved initial =>
    have hT := Ty.resolveDeep_resolved resolved
    have resolved' : t.resolveDeep sc'.env = .ok T := hw₀.env ▸ resolved
    -- the global has the checker's type, and a kind that is not void since it is storable
    obtain ⟨k, hg, hk⟩ := ha.global_declared hw
    have hkv : k ≠ .void := ValueKind.ne_void_of hT (lowerable t T rfl resolved').1.ne_void hk
    rw [sat_orFail_ok hg]
    refine (initialValue_sat hT initial haj).mono (fun _ st₁ h₁ => ?_)
      (fun _ herr => (herr ⟨fields, hw₀.env ▸ (lowerable t T rfl resolved').2⟩).elim)
    refine storePlace_sat _ fun st₂ h₂ => hQ _ (Emits.trans (h₁.weaken fun hr => ?_)
      (h₂.weaken fun _ => hkv))
    have fit := hw₀.fit hr.1
    refine ⟨fit.renderable, hw₀.env ▸ (lowerable t T rfl resolved').1,
      Ty.SizesFit.resolveDeep fit.types (hr.2.1 t rfl) resolved,
      hw₀.env ▸ (lowerable t T rfl resolved').2, hr.2.2⟩
  | declareUntyped _ initial =>
    -- an initializer the checker could not type needs a record field that does not resolve
    obtain ⟨T, hT⟩ := Infers.isSome haj.resolved fields haj.signatures initial
    cases hT

/-- A global array the checker declared on its way to `sc'`: lowering finds the global with the
checker's type, creates the array, and stores it. -/
theorem Lower.globalArray_sat {n : String} {el : Ty} {size : Int}
    (h : StmtChecks loops none scj (.arrayDecl n el size) scj₁) (top : scj.locals = [])
    (hw : scj₁.Within sc') (ha : Aligned cx sc' st.em)
    (lowerable : (Stmt.arrayDecl n el size).Lowerable sc'.env) {Q : Unit → LowerState → Prop}
    (hQ : ∀ st', Emits (sc'.Fit none ∧ (Stmt.arrayDecl n el size).Fits) st st' → Q () st') :
    Sat (orFail (global cx n)) st
      (fun p st₁ => Sat (newValue cx p.ty) st₁ (fun _ st₂ => Sat (storePlace p) st₂ Q E) E) E := by
  have hw₀ : scj.Within sc' := (h.within top).trans hw
  cases h with
  | @array _ _ _ E' _ _ _ _ resolved =>
    have hA : (Ty.array E' size).Resolved :=
      Ty.resolveDeep_resolved (Ty.resolveDeep_array_ok resolved)
    obtain ⟨storable, creatable⟩ := lowerable E' (hw₀.env ▸ resolved)
    obtain ⟨k, hg, hk⟩ := ha.global_declared hw
    have hkv : k ≠ .void := ValueKind.ne_void_of hA storable.ne_void hk
    rw [sat_orFail_ok hg]
    refine newValue_sat hA (ha.env ▸ creatable) fun st₁ h₁ => ?_
    exact storePlace_sat _ fun st₂ h₂ => hQ _ (Emits.trans (h₁.weaken fun _ => ha.env ▸ storable)
      (h₂.weaken fun _ => hkv))

/-- The initializer of a program the checker accepts, from the global scopes `sc₀` to `sc'`,
lowers from any context aligned with `sc'`, when the globals can be stored and the top-level
statements are lowerable; its code renders when everything it meets fits. -/
theorem Lower.initializer_lowers (acc : Accepts loops sc₀ sc' ss) (top : sc₀.locals = [])
    {em : Emitter} (ha : Aligned cx sc' em) (storable : sc'.VarsStorable)
    (lowerable : ∀ s ∈ ss, s.Lowerable sc'.env) (st : LowerState) :
    Sat (initializer cx ss) st
      (fun o _ => sc'.Fit none ∧ (∀ s ∈ ss, s.Fits) → ∀ rc ∈ o, ∀ i ∈ rc.code, i.Renders)
      (fun _ => False) := by
  have top' : sc'.locals = [] := (acc.globals.within top).top'
  unfold initializer
  simp only [sat_bind, sat_startRoutine]
  generalize hst₀ : ({ st with em := Emitter.start "initializer" .void } : LowerState) = st₀
  -- aligned with the final scopes throughout, while the checker moves through the globals
  refine (sat_forIn (E := fun _ => False) (fun done _ st₁ => Aligned cx sc' st₁.em ∧
      Confined (sc'.Fit none ∧ ∀ s ∈ ss, s.Fits) st₀ st₁ ∧ ∃ scj : Scopes, scj.locals = [] ∧
        BlockChecks loops none scj ((ss.drop done.length).filter Stmt.declaresGlobal) sc')
      ?_ ?_).mono (fun _ st₁ h₁ => ?_) (fun _ h => h)
  · subst hst₀
    exact ⟨ha.restart top' _ _, .refl _, sc₀, top, by simpa using acc.globals⟩
  · intro done x rest _ st₁ hxs hI
    obtain ⟨ha₁, hc₁, scj, topj, hj⟩ := hI
    have hnext : ss.drop (done ++ [x]).length = rest := by rw [hxs]; simp
    have hx : x ∈ ss := by rw [hxs]; simp
    rw [hxs, List.drop_left] at hj
    cases x with
    | varDecl n t i =>
      obtain _ | ⟨head, tail⟩ := hj
      have top₁ := (head.within topj).top'
      dsimp only
      simp only [sat_bind]
      refine global_sat head topj (tail.within top₁) ha₁ storable (lowerable _ hx) fun st₂ h₂ => ?_
      exact ⟨(), rfl, ha₁.keeps h₂.1, hc₁.trans (.of_emits (h₂.weaken fun hr => ⟨hr.1, hr.2 _ hx⟩)),
        _, top₁, by rw [hnext]; exact tail⟩
    | arrayDecl n el size =>
      obtain _ | ⟨head, tail⟩ := hj
      have top₁ := (head.within topj).top'
      dsimp only
      simp only [sat_bind]
      refine globalArray_sat head topj (tail.within top₁) ha₁ (lowerable _ hx) fun st₂ h₂ => ?_
      exact ⟨(), rfl, ha₁.keeps h₂.1, hc₁.trans (.of_emits (h₂.weaken fun hr => ⟨hr.1, hr.2 _ hx⟩)),
        _, top₁, by rw [hnext]; exact tail⟩
    | routine | recordType | typeAlias =>
      exact ⟨(), rfl, ha₁, hc₁, scj, topj, by rw [hnext]; simpa [Stmt.declaresGlobal] using hj⟩
    | _ =>
      -- a statement that declares nothing is checked in the final scopes
      have hmain := acc.main _ hx rfl
      dsimp only
      simp only [sat_bind]
      refine (hmain.lowers_top rfl st₁ ha₁ fun _ h => (Option.some_ne_none _ h.symm).elim).mono
        (fun _ st₂ h₂ => ⟨(), rfl, h₂.1, hc₁.trans (h₂.2.weaken fun hr => ⟨hr.1, lowerable _ hx,
          hr.2 _ hx⟩), scj, topj, by rw [hnext]; simpa [Stmt.declaresGlobal] using hj⟩)
        (fun _ herr => herr ⟨storable, lowerable _ hx⟩)
  · obtain ⟨-, hc₁, -⟩ := h₁
    simp only [sat_emitter]
    split
    · intro _ rc hrc
      cases hrc
    · simp only [sat_bind, sat_note, sat_emit, finish, sat_emitter, sat_pure]
      intro hr rc hrc i hi
      cases hrc
      simp only [Array.toList_push, List.mem_append, List.mem_singleton] at hi
      rcases hi with hi | rfl
      · exact hc₁.renders hr (by subst hst₀; simp [CodeRenders, Emitter.start]) i hi
      · simp

end Initializer

/-! ## The module -/

theorem ValueKind.of_resolveDeep_ok {env : TypeEnv} {t r : Ty} (h : t.resolveDeep env = .ok r) :
    ∃ k, ValueKind.of env t = .ok k := by
  unfold ValueKind.of
  rw [h]
  exact ValueKind.ofResolved_ok (Ty.resolveDeep_resolved h)

/-- What lowering needs of a top-level statement besides the check: the field types of a record
resolve, the parameters of a routine can be stored and its body is lowerable, and any other
statement is lowerable. -/
def Stmt.TopLowerable (env : TypeEnv) : Stmt → Prop
  | .routine _ ps _ b =>
    (∀ p ∈ ps, ∀ P, p.ty.resolveDeep env = .ok P → P.Storable env) ∧ Stmt.allLowerable env b
  | .recordType _ fs => ∀ f t, (f, t) ∈ fs → ∃ F, t.resolveDeep env = .ok F
  | s => s.Lowerable env

/-- What the code of a top-level statement needs of its text to render: the sizes in a routine's
parameter and return types fit, and so does everything in its body; any other statement fits. -/
def Stmt.TopFits : Stmt → Prop
  | .routine _ ps r b => (∀ p ∈ ps, p.ty.SizesFit) ∧ (∀ t, r = some t → t.SizesFit) ∧ Stmt.allFit b
  | s => s.Fits

theorem Stmt.TopLowerable.lowerable {env : TypeEnv} {s : Stmt} (h : s.TopLowerable env) :
    s.Lowerable env := by
  cases s <;> first | exact h | trivial

theorem Stmt.TopFits.fits {s : Stmt} (h : s.TopFits) : s.Fits := by
  cases s <;> first | exact h | trivial

section Module

variable {loops : Bool} {sc sc' : Scopes} {s : Stmt} {ss : List Stmt}

theorem ParamsDeclare.resolves {ps : List Param} {inner : Scopes} (h : ParamsDeclare sc ps inner) :
    ∀ p ∈ ps, ∃ P, p.ty.resolveDeep sc.env = .ok P := by
  induction h with
  | nil => simp
  | cons _ _ resolved _ ih =>
    intro p hp
    rcases List.mem_cons.mp hp with rfl | hp
    · exact ⟨_, resolved⟩
    · simpa using ih p hp

theorem StmtChecks.varsResolved {ret : Option Ty} (h : StmtChecks loops ret sc s sc')
    (hv : sc.VarsResolved) : sc'.VarsResolved := by
  cases h with
  | declare _ _ resolved _ => exact hv.declare (Ty.resolveDeep_resolved resolved) _
  | array _ _ _ resolved =>
    exact hv.declare (Ty.resolveDeep_resolved (Ty.resolveDeep_array_ok resolved)) _
  | _ => exact hv

theorem BlockChecks.varsResolved {ret : Option Ty} (h : BlockChecks loops ret sc ss sc')
    (hv : sc.VarsResolved) : sc'.VarsResolved := by
  induction ss generalizing sc with
  | nil => cases h; exact hv
  | cons s ss ih =>
    obtain _ | ⟨head, tail⟩ := h
    exact ih tail (head.varsResolved hv)

/-- In the scopes an accepted program leaves, every known routine's signature resolves: each is
the signature of a routine the program declares, whose parameters and return type the checker
resolved. -/
theorem Accepts.signatures {sc₀ : Scopes} (acc : Accepts loops sc₀ sc' ss)
    (hr : Check.RoutinesFrom ss sc') : sc'.SignaturesResolve := by
  intro n sig hsig
  obtain ⟨ps, r, b, hmem, rfl⟩ := hr n sig (mem_of_lookup hsig)
  obtain ⟨params, returns, -, -⟩ := acc.routines n ps r b hmem
  refine ⟨fun p hp => ?_, ?_⟩
  · obtain ⟨q, hq, rfl⟩ := List.mem_map.mp hp
    simpa using params.resolves q hq
  · cases r with
    | none => exact ⟨.void, Ty.resolveDeep_of_resolved (show Ty.void.Resolved from trivial)⟩
    | some t => exact ⟨_, returns.2⟩

/-- The parameter types of the routines a program declares fit when the program's text does. -/
theorem Check.RoutinesFrom.paramsFit (hr : Check.RoutinesFrom ss sc) (henv : sc.env.SizesFit)
    (fits : ∀ s ∈ ss, s.TopFits) :
    ∀ n sig, sc.routine? n = some sig → ∀ p ∈ sig.params, ∀ P, p.resolveDeep sc.env = .ok P →
      P.SizesFit := by
  intro n sig hsig p hp P hP
  obtain ⟨ps, r, b, hmem, rfl⟩ := hr n sig (mem_of_lookup hsig)
  obtain ⟨q, hq, rfl⟩ := List.mem_map.mp hp
  exact Ty.SizesFit.resolveDeep henv ((fits _ hmem).1 q hq) hP

/-- Lowering a module the checker accepted runs every routine and the initializer in a context
aligned with the scopes the checker ends in, from the start of a routine: what each of those
runs gives, the module has. Outside those runs lowering fails only on a global that cannot be
stored or a record field whose type does not resolve. -/
theorem Lower.module_in_context {sc₀ : Scopes} (acc : Accepts loops sc₀ sc' ss)
    (empty : sc₀.globals = []) (top : sc₀.locals = []) (hr : Check.RoutinesFrom ss sc')
    (opts : LowerOptions) (st : LowerState) {R : RoutineCode → Prop}
    {I : Option RoutineCode → Prop} {E : Error → Prop}
    (hE : ∀ e, ¬ (sc'.VarsStorable ∧ ∀ s ∈ ss, s.TopLowerable sc'.env) → E e)
    (routines : ∀ cx, Aligned cx sc' (Emitter.start "" .void) → ∀ n ps r b,
      Stmt.routine n ps r b ∈ ss → ∀ s, Sat (routine cx n ps r b) s (fun rc _ => R rc) E)
    (init : ∀ cx, Aligned cx sc' (Emitter.start "" .void) → ∀ s,
      Sat (initializer cx ss) s (fun o _ => I o) E) :
    Sat (module sc' opts ⟨ss⟩) st (fun m _ => (∀ rc ∈ m.routines, R rc) ∧ I m.initializer) E := by
  have within := acc.globals.within top
  have top' : sc'.locals = [] := within.top'
  have novars : ∀ n T, sc₀.typeOf? n = some T → False := fun n T h => by
    simp [Scopes.typeOf?_top top, empty] at h
  -- the checker's globals are resolved, and the known signatures resolve
  have resolved : sc'.VarsResolved :=
    acc.globals.varsResolved fun n T h => (novars n T h).elim
  have signatures := acc.signatures hr
  unfold module
  simp only [sat_bind]
  -- the record layouts: a field type that does not resolve has no kind
  refine (sat_forIn (E := fun _ => ¬ ∀ s ∈ ss, s.TopLowerable sc'.env) (fun _ _ _ => True)
    trivial ?_).mono (fun types st₁ _ => ?_) (fun e h => hE e fun hr => h hr.2)
  · intro done x rest _ _ hxs _
    cases x with
    | recordType n fs =>
      dsimp only
      simp only [sat_bind]
      refine (sat_forIn (E := fun _ => ¬ ∀ s ∈ ss, s.TopLowerable sc'.env) (fun _ _ _ => True)
        trivial ?_).mono (fun _ _ _ => ⟨_, rfl, trivial⟩) (fun _ h => h)
      intro _ y _ _ _ hys _
      cases hk : ValueKind.of sc'.env y.2 with
      | ok k =>
        simp only [sat_bind, sat_orFail, sat_pure]
        exact ⟨_, rfl, trivial⟩
      | error e =>
        simp only [sat_bind, sat_orFail]
        intro ready
        obtain ⟨F, hF⟩ := ready (.recordType n fs) (by rw [hxs]; simp) y.1 y.2 (by rw [hys]; simp)
        obtain ⟨k, hk'⟩ := ValueKind.of_resolveDeep_ok hF
        rw [hk] at hk'
        cases hk'
    | _ => exact ⟨_, rfl, trivial⟩
  -- the globals: the association list mirrors the checker's globals as it declares them
  refine (sat_forIn (E := fun _ => ¬ sc'.VarsStorable)
    (fun done (gs : Array GlobalDef × List (String × Ty × ValueKind)) _ => ∃ scj : Scopes,
      scj.locals = [] ∧ gs.2.map (fun e => (e.1, e.2.1)) = scj.globals ∧
      (∀ n t k, gs.2.lookup n = some (t, k) → ValueKind.of sc'.env t = .ok k) ∧
      BlockChecks loops none scj ((ss.drop done.length).filter Stmt.declaresGlobal) sc')
    ⟨sc₀, top, by simp [empty], by simp, by simpa using acc.globals⟩ ?_).mono
    (fun gs st₂ hgs => ?_) (fun e h => hE e fun hr => h hr.1)
  · intro done x rest gs _ hxs hI
    obtain ⟨scj, topj, hmap, hkinds, hj⟩ := hI
    have hnext : ss.drop (done ++ [x]).length = rest := by rw [hxs]; simp
    rw [hxs, List.drop_left] at hj
    cases x with
    | varDecl n t i =>
      obtain _ | ⟨head, tail⟩ := hj
      have hwj : scj.Within sc' := (head.within topj).trans (tail.within (head.within topj).top')
      cases head with
      | @declare _ _ t T _ _ _ resolved _ =>
        obtain ⟨k, hk⟩ : ∃ k, ValueKind.of sc'.env T = .ok k :=
          ValueKind.of_resolved_ok (Ty.resolveDeep_resolved resolved)
        have hty : declaredTypeIn sc'.env n (some t) = .ok T := resolveIn_ok (hwj.env ▸ resolved)
        dsimp only
        simp only [sat_bind, sat_orFail_ok hty, sat_pure, sat_orFail_ok hk]
        refine ⟨_, rfl, _, Scopes.declare_top topj, ?_, fun m t' k' hm => ?_,
          by rw [hnext]; exact tail⟩
        · rw [map_assocSet, hmap]
          simp [Scopes.declare, topj, Frame.set_eq_assocSet]
        · rw [lookup_assocSet] at hm
          split at hm
          · cases hm; exact hk
          · exact hkinds m t' k' hm
      | declareUntyped _ initial =>
        -- an initializer the checker could not type needs a record field that does not resolve
        dsimp only
        simp only [sat_bind, declaredTypeIn, sat_orFail]
        intro storable
        obtain ⟨T, hT⟩ := Infers.isSome (hwj.varsResolved resolved)
          ((hwj.varsStorable storable).fieldsResolve (hwj.varsResolved resolved))
          (hwj.signatures signatures) initial
        cases hT
    | arrayDecl n el size =>
      obtain _ | ⟨head, tail⟩ := hj
      have hwj : scj.Within sc' := (head.within topj).trans (tail.within (head.within topj).top')
      cases head with
      | @array _ _ _ E' _ _ _ _ resolved =>
        have hA := Ty.resolveDeep_array_ok (n := size) resolved
        obtain ⟨k, hk⟩ : ∃ k, ValueKind.of sc'.env (.array E' size) = .ok k :=
          ValueKind.of_resolved_ok (Ty.resolveDeep_resolved hA)
        have hty : resolveIn sc'.env (.array el size) = .ok (.array E' size) :=
          resolveIn_ok (hwj.env ▸ hA)
        dsimp only
        simp only [sat_bind, sat_orFail_ok hty, sat_pure, sat_orFail_ok hk]
        refine ⟨_, rfl, _, Scopes.declare_top topj, ?_, fun m t' k' hm => ?_,
          by rw [hnext]; exact tail⟩
        · rw [map_assocSet, hmap]
          simp [Scopes.declare, topj, Frame.set_eq_assocSet]
        · rw [lookup_assocSet] at hm
          split at hm
          · cases hm; exact hk
          · exact hkinds m t' k' hm
    | _ =>
      dsimp only
      simp only [sat_bind, sat_pure]
      exact ⟨_, rfl, scj, topj, hmap, hkinds, by rw [hnext]; simpa [Stmt.declaresGlobal] using hj⟩
  -- at the end the checker is at `sc'`, and the context is aligned with it
  obtain ⟨scj, -, hmap, hkinds, hend⟩ := hgs
  rw [List.drop_length, List.filter_nil] at hend
  cases hend
  generalize hcx : (⟨sc'.env, sc'.routines, gs.2, opts.alignWide⟩ : LowerCtx) = cx
  have ha : Aligned cx sc' (Emitter.start "" .void) := by
    subst hcx
    refine ⟨rfl, rfl, fun n T hn => ?_, hkinds, ⟨[[]], by simp [Emitter.start, frameTypes, top'],
      by simp⟩, by simp [Emitter.start], by simp [Emitter.start], resolved, signatures⟩
    rw [← hmap, lookup_map_snd, Option.map_eq_some_iff] at hn
    obtain ⟨⟨T', k⟩, hk, rfl⟩ := hn
    exact ⟨k, hk⟩
  -- the routines, each from a context aligned with `sc'`
  refine (sat_forIn (E := E) (fun _ (rs : Array RoutineCode) _ => ∀ rc ∈ rs.toList, R rc)
    (fun rc hrc => by simp at hrc) ?_).mono (fun rs st₃ hrs => ?_) (fun _ h => h)
  · intro done x rest rs s hxs hI
    cases x with
    | routine n ps r b =>
      dsimp only
      simp only [sat_bind]
      refine (routines cx ha n ps r b (by rw [hxs]; simp) s).mono (fun rc _ hrc => ?_)
        (fun _ h => h)
      refine ⟨_, rfl, fun rc' hrc' => ?_⟩
      rw [Array.toList_push, List.mem_append, List.mem_singleton] at hrc'
      rcases hrc' with hrc' | rfl
      · exact hI rc' hrc'
      · exact hrc
    | _ => exact ⟨_, rfl, hI⟩
  refine (init cx ha st₃).mono (fun o _ ho => ?_) (fun _ h => h)
  simp only [sat_note, sat_pure]
  exact ⟨hrs, ho⟩

/-- A program the checker accepts, from global scopes with no variable to `sc'`, lowers against
`sc'` when its top-level statements are lowerable. The code of every routine and of the
initializer renders when, besides, the declared types and the program's text fit. -/
theorem Lower.module_lowers {sc₀ : Scopes} (acc : Accepts loops sc₀ sc' ss)
    (empty : sc₀.globals = []) (top : sc₀.locals = []) (hr : Check.RoutinesFrom ss sc')
    (ready : ∀ s ∈ ss, s.TopLowerable sc'.env) (opts : LowerOptions) (st : LowerState) :
    Sat (module sc' opts ⟨ss⟩) st
      (fun m _ => sc'.env.SizesFit ∧ (∀ s ∈ ss, s.TopFits) →
        ∀ rc ∈ m.routines ++ m.initializer.toList, ∀ i ∈ rc.code, i.Renders)
      (fun _ => False) := by
  have within := acc.globals.within top
  have top' : sc'.locals = [] := within.top'
  have novars : ∀ n T, sc₀.typeOf? n = some T → False := fun n T h => by
    simp [Scopes.typeOf?_top top, empty] at h
  have lowerable : ∀ s ∈ ss, s.Lowerable sc'.env := fun s hs => (ready s hs).lowerable
  -- the checker's globals are storable
  have storable : sc'.VarsStorable := acc.globals.varsStorable (fun n T h => (novars n T h).elim)
    fun s hs => within.env ▸ lowerable s (List.mem_filter.mp hs).1
  -- every routine and the initializer lower, and render when the scopes fit
  refine (module_in_context acc empty top hr opts st
    (R := fun rc => sc'.Fit none ∧ (∀ s ∈ ss, s.TopFits) → ∀ i ∈ rc.code, i.Renders)
    (I := fun o => sc'.Fit none ∧ (∀ s ∈ ss, s.Fits) → ∀ rc ∈ o, ∀ i ∈ rc.code, i.Renders)
    (fun _ h => h ⟨storable, ready⟩)
    (fun cx ha n ps r b hx s => (routine_lowers (acc.routines n ps r b hx) ha top' storable
      (ready _ hx).1 (ready _ hx).2 s).mono (fun _ _ hrc hf => hrc ⟨hf.1, hf.2 _ hx⟩)
      (fun _ h => h))
    (fun cx ha s => initializer_lowers acc top ha storable lowerable s)).mono
    (fun m _ hm => ?_) (fun _ h => h)
  intro hf rc hrc
  -- the scopes at the end fit: the globals' declared types and the routines' parameters do
  have env₀ : sc₀.env.SizesFit := by rw [within.env]; exact hf.1
  have fit₀ : sc₀.Fit none := ⟨⟨fun n T h => (novars n T h).elim,
    (hr.congr within.routines).paramsFit env₀ hf.2⟩,
    fun n T h => (novars n T h).elim, env₀, fun _ h => (Option.some_ne_none _ h.symm).elim⟩
  have fit : sc'.Fit none := acc.globals.fit fit₀
    (fun s hs => within.env ▸ lowerable s (List.mem_filter.mp hs).1)
    fun s hs => (hf.2 s (List.mem_filter.mp hs).1).fits
  rcases List.mem_append.mp hrc with hrc | hrc
  · exact hm.1 rc hrc ⟨fit, hf.2⟩
  · exact hm.2 ⟨fit, fun s hs => (hf.2 s hs).fits⟩ rc (by simpa using hrc)

end Module

/-! ## Assembly -/

namespace Jvm

theorem codeLines_ok (cls : String) :
    ∀ {code : List Instr}, (∀ i ∈ code, i.Renders) → ∃ s, codeLines cls code = .ok s
  | [], _ => ⟨"", rfl⟩
  | i :: rest, h => by
    obtain ⟨a, ha⟩ := h i List.mem_cons_self cls
    obtain ⟨b, hb⟩ := codeLines_ok cls fun j hj => h j (List.mem_cons_of_mem _ hj)
    exact ⟨a ++ b, by simp [codeLines, ha, hb, bind, Except.bind, pure, Except.pure]⟩

theorem methods_ok (cls : String) :
    ∀ {rs : List (String × RoutineCode)}, (∀ e ∈ rs, ∀ i ∈ e.2.code, i.Renders) →
      ∃ s, (methods cls rs).2 = .ok s
  | [], _ => ⟨"", rfl⟩
  | (header, r) :: rest, h => by
    obtain ⟨body, hbody⟩ := codeLines_ok cls (h _ List.mem_cons_self)
    obtain ⟨more, hmore⟩ := methods_ok cls fun e he => h e (List.mem_cons_of_mem _ he)
    simp [methods, method, hbody, hmore, bind, Except.bind, pure, Except.pure, Except.map]

end Jvm

/-- A module whose code renders, every routine's and the initializer's, assembles. -/
theorem assemble_ok {m : Module} (h : ∀ rc ∈ m.routines ++ m.initializer.toList, ∀ i ∈ rc.code, i.Renders) :
    ∃ files, (assemble m).2 = .ok files := by
  -- the methods: the initializer's, then one per routine
  have code : ∀ e ∈ m.initializer.toList.map (fun r => (".method static <clinit>()V", r)) ++
      m.routines.map (fun r =>
        (".method public static " ++ r.name ++ Jvm.methodDescriptor r.params r.ret, r)),
      ∀ i ∈ e.2.code, i.Renders := by
    intro e he i hi
    simp only [List.mem_append, List.mem_map] at he
    rcases he with ⟨r, hr, rfl⟩ | ⟨r, hr, rfl⟩
    · exact h r (List.mem_append_right _ hr) i hi
    · exact h r (List.mem_append_left _ hr) i hi
  obtain ⟨text, htext⟩ := Jvm.methods_ok m.name code
  simp [assemble, Jvm.programClass, htext, Except.map]

/-! ## Compiling -/

/-- A run that cannot fail returns a value. -/
theorem Lower.Sat.run_ok {α : Type} {m : LowerM α} {st : LowerState}
    {Q : α → LowerState → Prop} (h : Sat m st Q fun _ => False) :
    ∃ a, (m.run.run st).1 = .ok a ∧ Q a (m.run.run st).2 := by
  unfold Sat at h
  rcases hm : m.run.run st with ⟨r, st'⟩
  rw [hm] at h
  cases r with
  | ok a => exact ⟨a, rfl, h⟩
  | error e => exact h.elim

/-- The first two passes declare no variable. -/
theorem Check.declared_no_variables (ss : List Stmt) :
    (Check.declared ss).scopes.globals = [] ∧ (Check.declared ss).scopes.locals = [] := by
  have d := (Check.declarations_sat ss ⟨Scopes.empty, [], [], [], []⟩
    fun _ _ h => absurd h List.not_mem_nil).1
  exact ⟨d.globals, d.locals⟩

/-- With dead declarations kept, a program the analyzer reports nothing on is accepted as the
analyzer returns it, from the scopes its first two passes leave to the scopes it ends in. -/
theorem analyze_accepts {o : CheckOptions} (keep : o.removeUnused = false) (p : Program)
    (quiet : (analyze o p).diagnostics = []) :
    Accepts true (Check.declared p.statements).scopes (analyze o p).scopes
      (analyze o p).program.statements := by
  rw [analyze_diagnostics] at quiet
  obtain ⟨-, accepted⟩ := Check.walk_accepts p
  have acc := (accepted quiet).2
  rw [analyze_program_unpruned keep]
  cases o.foldConstants
  · exact acc
  · exact acc.fold

/-- Compiling a program the analyzer accepts, with dead declarations kept, succeeds when the
checked program's top-level statements are lowerable: lowering meets none of its own errors.
The module assembles when, besides, the declared types and the program's text fit a word. -/
theorem accepted_program_compiles (opts : CompileOptions) (p : Program)
    (keep : opts.check.removeUnused = false) (quiet : (analyze opts.check p).diagnostics = [])
    (ready : ∀ s ∈ (analyze opts.check p).program.statements,
      s.TopLowerable (analyze opts.check p).scopes.env) :
    ∃ m, (compile opts p).1 = .ok m ∧
      ((analyze opts.check p).scopes.env.SizesFit ∧
        (∀ s ∈ (analyze opts.check p).program.statements, s.TopFits) →
        ∃ files, (assemble m).2 = .ok files) := by
  obtain ⟨empty, top⟩ := Check.declared_no_variables p.statements
  obtain ⟨m, hm, renders⟩ := (module_lowers (analyze_accepts keep p quiet) empty top
    (analyze_routinesFrom opts.check p) ready opts.lower ⟨0, Emitter.start "" .void, []⟩).run_ok
  refine ⟨m, ?_, fun hf => assemble_ok (renders hf)⟩
  simp only [compile, quiet, List.isEmpty_nil, if_true]
  exact hm

/-- `var g : integer := 1; print g`, with dead declarations kept: the analyzer reports nothing,
the global's type can be stored, and the program compiles. -/
theorem printed_global_compiles :
    let p : Program := ⟨[.varDecl "g" (some .integer) (some (.int 1)), .print (.var "g")]⟩
    let opts : CompileOptions := { check := { removeUnused := false } }
    (analyze opts.check p).diagnostics = [] ∧
    (∀ s ∈ (analyze opts.check p).program.statements,
      s.TopLowerable (analyze opts.check p).scopes.env) ∧
    ∃ m, (compile opts p).1 = .ok m ∧
      ((analyze opts.check p).scopes.env.SizesFit ∧
        (∀ s ∈ (analyze opts.check p).program.statements, s.TopFits) →
        ∃ files, (assemble m).2 = .ok files) := by
  intro p opts
  have ready : ∀ s ∈ (analyze opts.check p).program.statements,
      s.TopLowerable (analyze opts.check p).scopes.env := by
    intro s hs
    have hss : (analyze opts.check p).program.statements =
        [.varDecl "g" (some .integer) (some (.int 1)), .print (.var "g")] := rfl
    rw [hss, List.mem_pair] at hs
    rcases hs with rfl | rfl
    · intro t T ht hT
      cases ht
      rw [Ty.resolveDeep_of_resolved (show Ty.integer.Resolved from trivial)] at hT
      cases hT
      exact ⟨.prim (by decide), fun h => (Option.some_ne_none _ h).elim⟩
    · trivial
  exact ⟨rfl, ready, accepted_program_compiles opts p rfl rfl ready⟩

end ImpStack
