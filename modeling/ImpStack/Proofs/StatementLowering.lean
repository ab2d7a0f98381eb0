import ImpStack.Proofs.LowerExpr
import ImpStack.Proofs.Slots
import ImpStack.Proofs.FreshCode

/-! # Lowering follows the checker's scopes, statement by statement

  Expression lowering agrees with the checker from any state whose frames mirror the checker's
  scopes (`Aligned`, `Infers.lowers`). This module carries that agreement through statements:
  a statement the checker accepts in scopes `sc`, leaving `sc'`, lowers from a state aligned
  with `sc` to one aligned with `sc'` (`StmtChecks.lowers`, `BlockChecks.lowers`). A
  declaration binds its local in the innermost frame as the checker declares it in the
  innermost scope; a block's scope is opened and closed on both sides; a `for` loop's counter
  is declared in a scope of its own before its end bound and its body, on both sides.

  Each rule says three things of a statement `s` (`StmtLowers`):

  * on success the state is aligned with `sc'`, the routine's return type and every frame but
    the innermost are as they were (`Confined`);
  * lowering fails only when a visible variable cannot be stored or a variable `s` declares
    cannot be stored or created (`Scopes.VarsStorable`, `Stmt.Lowerable`);
  * the code it appends renders when, besides, the sizes and constants lowering meets fit a
    word (`Scopes.Fit`, `Stmt.Fits`).

  Steps that only emit code keep the frames (`Emits`); the steps that create fresh values keep
  them on every successful run (`Keeping`), which is what a declaration of a type that cannot
  be created needs.
-/

namespace ImpStack

open Lower

/-! ## Frames and scopes -/

namespace Aligned

variable {cx : LowerCtx} {sc : Scopes} {em : Emitter}

/-- Alignment reads only the frames. -/
theorem of_frames (h : Aligned cx sc em) {em' : Emitter} (hf : em'.frames = em.frames) :
    Aligned cx sc em' := by
  obtain ⟨henv, hr, hg, hgk, hfr, hlk, hne, hres, hsig⟩ := h
  rw [← hf] at hfr hlk hne
  exact ⟨henv, hr, hg, hgk, hfr, hlk, hne, hres, hsig⟩

/-- Opening a scope on both sides keeps them aligned. -/
theorem enter (h : Aligned cx sc em) :
    Aligned cx sc.enter { em with frames := [] :: em.frames } where
  env := h.env
  routines := h.routines
  globals := h.globals
  globalKinds := h.globalKinds
  frames := by
    obtain ⟨base, hfr, hb⟩ := h.frames
    exact ⟨base, by simp [hfr, frameTypes], hb⟩
  localKinds f hf := by
    rcases List.mem_cons.mp hf with rfl | hf
    · simp
    · exact h.localKinds f hf
  nonempty := by simp
  resolved := h.resolved.enter
  signatures := h.signatures

/-- Declaring a variable in the innermost scope on both sides, with the checker's type and its
kind, keeps them aligned. -/
theorem declare (h : Aligned cx sc em) (hl : sc.locals ≠ []) {n : String} {l : Local}
    (hr : l.ty.Resolved) (hk : ValueKind.of cx.env l.ty = .ok l.kind) :
    Aligned cx (sc.declare n l.ty) { em with frames := bindIn em.frames n l } := by
  obtain ⟨f, rest, hsc⟩ : ∃ f rest, sc.locals = f :: rest := List.exists_cons_of_ne_nil hl
  obtain ⟨base, hfr, hb⟩ := h.frames
  obtain ⟨F, Fs, hem⟩ : ∃ F Fs, em.frames = F :: Fs := List.exists_cons_of_ne_nil h.nonempty
  rw [hem, hsc, List.map_cons, List.cons_append, List.cons.injEq] at hfr
  have hdecl : sc.declare n l.ty = { sc with locals := f.set n l.ty :: rest } := by
    simp [Scopes.declare, hsc]
  rw [hdecl]
  refine ⟨h.env, h.routines, h.globals, h.globalKinds, ⟨base, ?_, hb⟩, ?_, ?_, ?_, h.signatures⟩
  · simp only [hem, bindIn, List.map_cons, List.cons_append, frameTypes, map_assocSet,
      Frame.set_eq_assocSet]
    rw [← hfr.1, ← hfr.2]
    rfl
  · -- the new local has the kind of its type, the others keep theirs
    intro f' hf' b hb'
    rcases mem_bindIn (List.mem_flatten.mpr ⟨f', hf', hb'⟩) with hb | rfl
    · obtain ⟨g, hg, hbg⟩ := List.mem_flatten.mp hb
      exact h.localKinds g hg b hbg
    · exact hk
  · simp [hem, bindIn]
  · rw [← hdecl]
    exact h.resolved.declare hr n

end Aligned

/-! ## Lowering steps of statements -/

/-- What lowering a statement leaves of the routine: the same return type, the frames around the
innermost one as they were, and code that renders when `ready` holds, from code that renders. -/
structure Confined (ready : Prop) (st st' : LowerState) : Prop where
  returnType : st'.em.returnType = st.em.returnType
  outer : st'.em.frames.tail = st.em.frames.tail
  renders : ready → CodeRenders st.em.code → CodeRenders st'.em.code

namespace Confined

variable {ready : Prop} {st₁ st₂ st₃ : LowerState}

theorem refl (st : LowerState) : Confined ready st st := ⟨rfl, rfl, fun _ h => h⟩

theorem trans (h₁ : Confined ready st₁ st₂) (h₂ : Confined ready st₂ st₃) : Confined ready st₁ st₃ :=
  ⟨h₂.1.trans h₁.1, h₂.2.trans h₁.2, fun r c => h₂.3 r (h₁.3 r c)⟩

theorem weaken {ready' : Prop} (h : Confined ready st₁ st₂) (hr : ready' → ready) :
    Confined ready' st₁ st₂ :=
  ⟨h.1, h.2, fun r => h.3 (hr r)⟩

/-- A step that only emits code. -/
theorem of_emits (h : Emits ready st₁ st₂) : Confined ready st₁ st₂ :=
  ⟨h.1.2, by rw [h.1.1], h.2⟩

end Confined

/-! ## Steps that keep the frames -/

/-- Every successful run of `m` leaves the routine's frames and return type as they were. -/
def Keeping {α : Type} (m : LowerM α) : Prop := ∀ st, LSat m st (fun _ st' => Keeps st st')

namespace Keeping

variable {α β γ : Type}

theorem bind {m : LowerM α} {f : α → LowerM β} (hm : Keeping m) (hf : ∀ a, Keeping (f a)) :
    Keeping (m >>= f) := by
  intro st
  rw [lsat_bind]
  exact (hm st).mono fun a st₁ h₁ => (hf a st₁).mono fun _ _ h₂ => h₁.trans h₂

theorem pure (a : α) : Keeping (Pure.pure a : LowerM α) :=
  fun st => (lsat_pure a).mpr (Keeps.refl st)

theorem throw (e : Error) : Keeping (MonadExcept.throw e : LowerM α) := fun _ => lsat_throw e

theorem orFail (x : Except Error α) : Keeping (Lower.orFail x) :=
  fun st => (lsat_orFail x).mpr fun _ _ => Keeps.refl st

theorem update {f : LowerState → LowerState}
    (h : ∀ s, (f s).em.frames = s.em.frames ∧ (f s).em.returnType = s.em.returnType) :
    Keeping (modify f : LowerM Unit) :=
  fun st => (lsat_modify f).mpr (h st)

theorem emit (i : Instr) : Keeping (Lower.emit i) := update fun _ => ⟨rfl, rfl⟩

theorem note (level : Level) (message : String) : Keeping (Lower.note level message) :=
  update fun _ => ⟨rfl, rfl⟩

theorem emitter : Keeping Lower.emitter :=
  fun st => (lsat_bind _ _).mpr (lsat_get.mpr ((lsat_pure _).mpr (Keeps.refl st)))

theorem newLabel : Keeping Lower.newLabel := by
  unfold Lower.newLabel
  refine bind (fun st => lsat_get.mpr (Keeps.refl st)) fun _ => ?_
  exact bind (update fun _ => ⟨rfl, rfl⟩) fun _ => bind (note _ _) fun _ => pure _

theorem allocate (aw : Bool) (width : Nat) : Keeping (Lower.allocate aw width) := by
  unfold Lower.allocate
  refine bind emitter fun _ => ?_
  exact bind (update fun _ => ⟨rfl, rfl⟩) fun _ => bind (note _ _) fun _ => pure _

theorem forIn {xs : List γ} {init : β} {f : γ → β → LowerM (ForInStep β)}
    (hf : ∀ x b, Keeping (f x b)) : Keeping (ForIn.forIn xs init f) := by
  induction xs generalizing init with
  | nil => exact pure init
  | cons x xs ih =>
    rw [List.forIn_cons]
    refine bind (hf x init) fun r => ?_
    cases r with
    | done b => exact pure b
    | yield b => exact ih

theorem indexLoop {aw : Bool} {size : Int} {body : Nat → LowerM Unit}
    (hb : ∀ index, Keeping (body index)) : Keeping (Lower.indexLoop aw size body) := by
  unfold Lower.indexLoop
  refine bind (allocate _ _) fun index => bind newLabel fun _ => bind newLabel fun _ => ?_
  refine bind (emit _) fun _ => bind (emit _) fun _ => bind (emit _) fun _ => ?_
  refine bind (emit _) fun _ => bind (emit _) fun _ => bind (emit _) fun _ => ?_
  refine bind (hb index) fun _ => bind (emit _) fun _ => bind (emit _) fun _ => ?_
  exact bind (emit _) fun _ => bind (emit _) fun _ => bind (emit _) fun _ => emit _

end Keeping

/-- Creating a fresh value leaves the frames as they were. -/
theorem Lower.freshValue_keeping (cx : LowerCtx) (fuel : Nat) (t : Ty) :
    Keeping (freshValue cx fuel t) := by
  fun_induction freshValue cx fuel t with
  | case1 => exact Keeping.throw _
  | case2 fuel t ih =>
    refine Keeping.bind (Keeping.orFail _) fun r => ?_
    split
    · exact Keeping.emit _
    · exact Keeping.emit _
    · exact Keeping.emit _
    · exact Keeping.emit _
    · exact Keeping.throw _
    · refine Keeping.bind (Keeping.emit _) fun _ => ?_
      refine Keeping.bind (Keeping.forIn fun field _ => ?_) fun _ => Keeping.pure _
      refine Keeping.bind (Keeping.orFail _) fun ft => ?_
      split
      · refine Keeping.bind (Keeping.orFail _) fun _ => Keeping.bind (Keeping.emit _) fun _ => ?_
        exact Keeping.bind (ih ft) fun _ => Keeping.bind (Keeping.emit _) fun _ => Keeping.pure _
      · exact Keeping.pure _
    · refine Keeping.bind (Keeping.orFail _) fun _ => Keeping.bind (Keeping.emit _) fun _ => ?_
      refine Keeping.bind (Keeping.emit _) fun _ => ?_
      split
      · refine Keeping.indexLoop fun _ => Keeping.bind (Keeping.emit _) fun _ => ?_
        exact Keeping.bind (Keeping.emit _) fun _ => Keeping.bind (ih _) fun _ => Keeping.emit _
      · exact Keeping.pure _
    · exact Keeping.throw _

/-! ## What lowering needs to succeed -/

namespace Ty

variable {env : TypeEnv}

theorem fieldsFit_lookup : ∀ {fs : List (String × Ty)} {f : String} {F : Ty},
    SizesFit.fieldsFit fs → fs.lookup f = some F → F.SizesFit
  | [], _, _, _, h => by cases h
  | (g, G) :: fs, f, F, hfs, h => by
    rw [lookup_cons_ite] at h
    split at h
    · cases h; exact hfs.1
    · exact fieldsFit_lookup hfs.2 h

/-- Following type names keeps sizes that fit, when the declared types' do. -/
theorem SizesFit.resolveFrom (henv : env.SizesFit) {o : Ty} :
    ∀ {cur r : Ty} {k : Nat}, cur.SizesFit → Ty.resolveFrom env o cur k = .ok r → r.SizesFit := by
  intro cur r k hc h
  induction k generalizing cur with
  | zero => cases h
  | succ k ih =>
    cases cur with
    | named name =>
      simp only [Ty.resolveFrom] at h
      split at h
      · cases h; trivial
      · split at h
        · rename_i t ht
          exact ih (henv _ (mem_of_lookup ht)) h
        · cases h
    | _ => cases h; exact hc

/-- Deep resolution keeps sizes that fit, when the declared types' do. -/
theorem SizesFit.resolveDeep (henv : env.SizesFit) {t r : Ty} (ht : t.SizesFit)
    (h : t.resolveDeep env = .ok r) : r.SizesFit := by
  unfold Ty.resolveDeep at h
  generalize depthBudget env t = k at h
  induction k generalizing t r with
  | zero => cases h
  | succ k ih =>
    rw [resolveDeepFrom] at h
    cases hr : t.resolve env with
    | error e => simp [hr, bind, Except.bind] at h
    | ok r₀ =>
      have h₀ : r₀.SizesFit := SizesFit.resolveFrom henv ht hr
      simp only [hr, bind, Except.bind] at h
      split at h
      · rename_i e n
        cases he : resolveDeepFrom env e k with
        | error err => simp [he] at h
        | ok e' =>
          simp only [he, pure, Except.pure, Except.ok.injEq] at h
          subst h
          exact ⟨h₀.1, ih h₀.2 he⟩
      · cases h; exact h₀

end Ty

mutual

/-- What lowering needs of a statement to succeed: every variable or array it declares, in it or
in its blocks, has a type whose values can be stored, and created when it has no initializer. -/
def Stmt.Lowerable (env : TypeEnv) : Stmt → Prop
  | .varDecl _ t i => ∀ t' T, t = some t' → t'.resolveDeep env = .ok T →
    T.Storable env ∧ (i = none → Creatable env (Ty.depthBudget env T) T)
  | .arrayDecl _ el size => ∀ E, el.resolveDeep env = .ok E →
    (Ty.array E size).Storable env ∧
      Creatable env (Ty.depthBudget env (.array E size)) (.array E size)
  | .ifThen _ t e => Stmt.allLowerable env t ∧ Stmt.allLowerable env e
  | .whileDo _ b | .forRange _ _ _ _ b => Stmt.allLowerable env b
  | .assign .. | .call .. | .ret _ | .print _ | .routine .. | .recordType .. | .typeAlias .. =>
    True

/-- Every statement of a block is lowerable. -/
def Stmt.allLowerable (env : TypeEnv) : List Stmt → Prop
  | [] => True
  | s :: ss => s.Lowerable env ∧ Stmt.allLowerable env ss

end

/-- The constants of an assignment's target fit. -/
def Target.ConstantsFit : Target → Prop
  | .element _ i => i.ConstantsFit
  | .var _ | .field _ _ => True

mutual

/-- What the code of a statement needs of its text to render: its constants, and the array
sizes written in the types it declares, fit. -/
def Stmt.Fits : Stmt → Prop
  | .varDecl _ t i => (∀ t', t = some t' → t'.SizesFit) ∧ ∀ e, i = some e → e.ConstantsFit
  | .arrayDecl _ el size => FitsWord size ∧ el.SizesFit
  | .assign t v => t.ConstantsFit ∧ v.ConstantsFit
  | .ifThen c t e => c.ConstantsFit ∧ Stmt.allFit t ∧ Stmt.allFit e
  | .whileDo c b => c.ConstantsFit ∧ Stmt.allFit b
  | .forRange _ s e _ b => s.ConstantsFit ∧ e.ConstantsFit ∧ Stmt.allFit b
  | .call _ args => Expr.allConstantsFit args
  | .ret v => ∀ e, v = some e → e.ConstantsFit
  | .print e => e.ConstantsFit
  | .routine .. | .recordType .. | .typeAlias .. => True

/-- Every statement of a block fits. -/
def Stmt.allFit : List Stmt → Prop
  | [] => True
  | s :: ss => s.Fits ∧ Stmt.allFit ss

end

/-- The scopes' variables can be stored, and the sizes of every type lowering meets in them fit
a word: those of the variables, of the declared types, of the parameters, and of the return
type `ret` of the routine being lowered. -/
structure Scopes.Fit (sc : Scopes) (ret : Option Ty) : Prop where
  renderable : sc.Renderable
  vars : ∀ n T, sc.typeOf? n = some T → T.SizesFit
  types : sc.env.SizesFit
  returns : ∀ R, ret = some R → R.SizesFit

namespace Scopes

variable {sc : Scopes} {ret : Option Ty}

theorem VarsStorable.enter (h : sc.VarsStorable) : sc.enter.VarsStorable :=
  fun n T hT => h n T (by simpa using hT)

theorem VarsStorable.declare (h : sc.VarsStorable) {T : Ty} (hs : T.Storable sc.env)
    (n : String) : (sc.declare n T).VarsStorable := by
  intro m U hU
  rw [Scopes.typeOf?_declare] at hU
  rw [Scopes.declare_env]
  split at hU
  · cases hU; exact hs
  · exact h m U hU

namespace Fit

theorem enter (h : sc.Fit ret) : sc.enter.Fit ret where
  renderable := ⟨VarsStorable.enter h.renderable.vars, h.renderable.params⟩
  vars n T hT := h.vars n T (by simpa using hT)
  types := h.types
  returns := h.returns

theorem declare (h : sc.Fit ret) {T : Ty} (hs : T.Storable sc.env) (hf : T.SizesFit)
    (n : String) : (sc.declare n T).Fit ret where
  renderable := by
    refine ⟨VarsStorable.declare h.renderable.vars hs n, fun m sig hsig => ?_⟩
    simpa using h.renderable.params m sig (by simpa using hsig)
  vars m U hU := by
    rw [Scopes.typeOf?_declare] at hU
    split at hU
    · cases hU; exact hf
    · exact h.vars m U hU
  types := by rw [Scopes.declare_env]; exact h.types
  returns := h.returns

end Fit

end Scopes


/-! ## Fresh values render -/

theorem ValueKind.ofResolved_ne_void {T : Ty} {k : ValueKind} (hv : T ≠ .void)
    (hk : ValueKind.ofResolved T = .ok k) : k ≠ .void := by
  cases T with
  | prim p =>
    cases p <;> simp only [ValueKind.ofResolved, Except.ok.injEq] at hk <;> subst hk <;>
      first | exact absurd rfl hv | simp
  | array e n =>
    simp only [ValueKind.ofResolved] at hk
    cases h : ValueKind.ofResolved e <;> simp [h, Functor.map, Except.map] at hk
    subst hk; simp
  | record => simp only [ValueKind.ofResolved, Except.ok.injEq] at hk; subst hk; simp
  | named => cases hk

/-- The code that creates a storable value renders. The induction follows the code, with the
fields of a record: every aggregate field of a storable record is storable. -/
theorem Creates.renders {env : TypeEnv} {base : Nat} {r : Ty} {code : List Instr}
    (h : Creates env base r code) : r.Storable env → ∀ i ∈ code, i.Renders := by
  induction h using Creates.rec
    (motive_2 := fun _ _ fields code _ =>
      (∀ f F R, (f, F) ∈ fields → F.resolveDeep env = .ok R → R.isAggregate = true →
        R.Storable env) → ∀ i ∈ code, i.Renders) with
  | integer | boolean | string => intro _; simp
  | real => intro _; simp [show (0.0 : Float).isFinite = true by decide]
  | record _ ih =>
    intro hs
    cases hs with
    | record _ parts => simpa using ih parts
  | arrayOfScalars fits kind _ =>
    intro hs
    cases hs with
    | array element =>
      have hk := ValueKind.ofResolved_ne_void element.ne_void kind
      simp [show FitsWord _ from fits.2, hk]
  | arrayOfAggregates fits kind _ _ _ ih =>
    intro hs
    cases hs with
    | array element =>
      have hk := ValueKind.ofResolved_ne_void element.ne_void kind
      have inner := ih element
      simpa [IndexLoop.code, or_imp, forall_and, hk, show FitsWord _ from fits.2] using inner
  | nil =>
    rename_i hi
    cases hi
  | scalar _ _ _ ih =>
    rename_i hp i hi
    exact ih (fun f F R hm => hp f F R (List.mem_cons_of_mem _ hm)) i hi
  | aggregate resolves aggregate _ _ _ ihp ihr =>
    rename_i hp i hi
    have part := ihp (hp _ _ _ List.mem_cons_self (resolveDeep_of_resolveIn resolves) aggregate)
    have rest := ihr fun f F R hm => hp f F R (List.mem_cons_of_mem _ hm)
    simp only [List.cons_append, List.mem_cons, List.mem_append] at hi
    rcases hi with rfl | hi | rfl | hi
    · simp
    · exact part i hi
    · simp
    · exact rest i hi

/-! ## Lowering fresh values -/

namespace Lower

variable {α : Type} {cx : LowerCtx} {st : LowerState} {E : Error → Prop}

/-- What every run promises and what every successful run promises, together. -/
theorem Sat.and_lsat {m : LowerM α} {Q P : α → LowerState → Prop} (h : Sat m st Q E)
    (h' : LSat m st P) : Sat m st (fun a st' => Q a st' ∧ P a st') E := by
  unfold Sat at *
  rcases hm : m.run.run st with ⟨r, st'⟩
  rw [hm] at h
  cases r with
  | ok a => exact ⟨h, h' a st' hm⟩
  | error e => exact h

/-- The first value of a resolved type that can be created: lowering succeeds, keeps the
frames, and the code renders when the type is storable. -/
theorem newValue_sat {T : Ty} (hT : T.Resolved)
    (hc : Creatable cx.env (Ty.depthBudget cx.env T) T) {Q : Unit → LowerState → Prop}
    (hQ : ∀ st', Emits (T.Storable cx.env) st st' → Q () st') : Sat (newValue cx T) st Q E := by
  refine ((freshValue_creates cx hc (resolveIn_self hT) st).and_lsat
    (freshValue_keeping cx _ T st)).mono (fun _ st' h => hQ st' ⟨h.2, fun hs hcode => ?_⟩)
    (fun _ h => h.elim)
  obtain ⟨-, code, happ, hcr⟩ := h.1
  intro i hi
  rw [happ] at hi
  rcases List.mem_append.mp hi with hi | hi
  · exact hcode i hi
  · exact hcr.renders hs i hi

end Lower

/-! ## Statements -/

/-- Lowering `s`, from a state aligned with the checker's scopes `sc` in a routine whose return
type is the checker's `ret`, ends aligned with the scopes `sc'` the checker leaves. It keeps the
return type and every frame but the innermost, and its code renders when everything lowering
meets fits. It fails only when a visible variable cannot be stored, or a variable `s` declares
cannot be stored or created. -/
def StmtLowers (cx : LowerCtx) (ret : Option Ty) (sc : Scopes) (s : Stmt) (sc' : Scopes) : Prop :=
  ∀ st, Aligned cx sc st.em → (∀ R, ret = some R → st.em.returnType = R) →
    Sat (stmt cx s) st
      (fun _ st' => Aligned cx sc' st'.em ∧ Confined (sc.Fit ret ∧ s.Lowerable sc.env ∧ s.Fits) st st')
      (fun _ => ¬ (sc.VarsStorable ∧ s.Lowerable sc.env))

/-- Lowering the statements of a block in order, as `StmtLowers` says of one. -/
def BlockLowers (cx : LowerCtx) (ret : Option Ty) (sc : Scopes) (ss : List Stmt) (sc' : Scopes) :
    Prop :=
  ∀ st, Aligned cx sc st.em → (∀ R, ret = some R → st.em.returnType = R) →
    Sat (stmts cx ss) st
      (fun _ st' => Aligned cx sc' st'.em ∧
        Confined (sc.Fit ret ∧ Stmt.allLowerable sc.env ss ∧ Stmt.allFit ss) st st')
      (fun _ => ¬ (sc.VarsStorable ∧ Stmt.allLowerable sc.env ss))

section Statements

variable {cx : LowerCtx} {ret : Option Ty} {sc : Scopes} {st : LowerState} {E : Error → Prop}

/-- Lowering an expression inside a statement, whose failures the statement's cover. -/
theorem Lowers.within {e : Expr} {o : Option Ty} (h : Lowers cx sc e o) (ha : Aligned cx sc st.em)
    {Q : Ty → LowerState → Prop} (hE : ∀ err, ¬ sc.FieldsResolve → E err)
    (hQ : ∀ T st', o = some T → Emits (sc.Renderable ∧ e.ConstantsFit) st st' → Q T st') :
    Sat (expr cx e) st Q E :=
  (h st ha).mono (fun T st' hT => hQ T st' hT.1 hT.2) hE

theorem Lower.storePlace_sat (p : Place) {Q : Unit → LowerState → Prop}
    (hQ : ∀ st', Emits (p.kind ≠ .void) st st' → Q () st') : Sat (storePlace p) st Q E := by
  cases p with
  | inSlot l =>
    refine hQ _ ⟨⟨rfl, rfl⟩, fun hk hc => ?_⟩
    simp only [Place.kind] at hk
    simp [hc, hk]
  | inGlobal n t k => exact hQ _ ⟨⟨rfl, rfl⟩, fun _ hc => by simp [hc]⟩

/-- Lowering an expression fails only when a visible record has a field type that does not
resolve, which storable variables rule out. -/
theorem Aligned.fieldsFail {em : Emitter} (ha : Aligned cx sc em) {P : Prop} (_ : Error)
    (h : ¬ sc.FieldsResolve) : ¬ (sc.VarsStorable ∧ P) :=
  fun hr => h (hr.1.fieldsResolve ha.resolved)

/-- A statement that declares nothing and only emits code. -/
theorem StmtLowers.of_emits {s : Stmt}
    (h : ∀ st, Aligned cx sc st.em → (∀ R, ret = some R → st.em.returnType = R) →
      Sat (stmt cx s) st (fun _ st' => Emits (sc.Fit ret ∧ s.Fits) st st')
        (fun _ => ¬ sc.FieldsResolve)) :
    StmtLowers cx ret sc s sc := fun st ha hret =>
  (h st ha hret).mono
    (fun _ _ h' => ⟨ha.keeps h'.1, .of_emits (h'.weaken fun hr => ⟨hr.1, hr.2.2⟩)⟩)
    (fun _ hf hr => hf (hr.1.fieldsResolve ha.resolved))

theorem StmtLowers.print {e : Expr} {o : Option Ty} (value : Infers sc e o)
    (printable : ∀ T, o = some T → ∃ p, T = .prim p ∧ p ≠ .void) :
    StmtLowers cx ret sc (.print e) sc := by
  refine StmtLowers.of_emits fun st ha _ => ?_
  simp only [stmt, sat_bind]
  refine value.lowers.within ha (fun _ h => h) fun T st₁ hT h₁ => ?_
  obtain ⟨p, rfl, hp⟩ := printable T hT
  obtain ⟨k, hk, hki⟩ : ∃ k, ValueKind.of cx.env (.prim p) = .ok k ∧
      (k = .int ∨ k = .bool ∨ k = .real ∨ k = .str) := by
    rw [ValueKind.of_resolved (Ty.resolved_prim p)]
    cases p <;> first | exact absurd rfl hp | exact ⟨_, rfl, by simp⟩
  simp only [kind, sat_orFail_ok hk, sat_emit]
  exact Emits.trans (h₁.weaken fun hr => ⟨hr.1.renderable, hr.2⟩)
    ⟨⟨rfl, rfl⟩, fun _ hc => by simp [hc, hki]⟩

theorem StmtLowers.retNone : StmtLowers cx ret sc (.ret none) sc :=
  StmtLowers.of_emits fun st _ _ => ⟨⟨rfl, rfl⟩, fun _ hc => by simp [hc]⟩

/-- A return converts its value to the routine's return type, which the checker resolved. -/
theorem StmtLowers.retValue {e : Expr} {R : Ty} (routine : ret = some R) (resolved : R.Resolved)
    (value : StoresInto sc R e) : StmtLowers cx ret sc (.ret (some e)) sc := by
  obtain ⟨o, he, -⟩ := value
  refine StmtLowers.of_emits fun st ha hret => ?_
  simp only [stmt, sat_bind, sat_emitter, hret R routine]
  refine he.lowers.within ha (fun _ h => h) fun A st₁ hA h₁ => ?_
  refine coerce_sat cx R A resolved (he.resolved ha.resolved hA) fun st₂ h₂ => ?_
  obtain ⟨k, hk⟩ : ∃ k, ValueKind.of cx.env R = .ok k := ValueKind.of_resolved_ok resolved
  simp only [kind, sat_orFail_ok hk, sat_emit]
  exact Emits.trans (h₁.weaken fun hr => ⟨hr.1.renderable, hr.2 e rfl⟩)
    (Emits.trans (h₂.weaken fun hr => hr.1.returns R routine) ⟨⟨rfl, rfl⟩, fun _ hc => by simp [hc]⟩)

/-- A call statement drops the result of a routine that has one. -/
theorem StmtLowers.call {n : String} {args : List Expr} {sig : RoutineSig}
    (found : sc.routine? n = some sig) (count : sig.params.length = args.length)
    (arguments : ArgsInfer sc sig.params args) : StmtLowers cx ret sc (.call n args) sc := by
  refine StmtLowers.of_emits fun st ha _ => ?_
  obtain ⟨hps, R, hR⟩ := ha.signatures n sig found
  simp only [stmt, sat_bind]
  refine callee_sat (by rw [ha.routine?, found]) count ?_
  refine (arguments.lowers st ha hps).mono (fun ks st₁ h₁ => ?_) (fun _ h => h)
  refine finishCall_sat (ha.env ▸ hR) fun st₂ h₂ => ?_
  have h₁₂ : Emits (sc.Fit ret ∧ (Stmt.call n args).Fits) st st₂ :=
    Emits.trans (h₁.weaken fun hr => ⟨hr.1.renderable, hr.1.renderable.params n sig found, hr.2⟩)
      (h₂.weaken fun _ => trivial)
  cases hv : R.isVoid
  · obtain ⟨k, hk⟩ : ∃ k, ValueKind.of cx.env R = .ok k :=
      ValueKind.of_resolved_ok (Ty.resolveDeep_resolved hR)
    simp only [Bool.not_false, ↓reduceIte, kind, sat_bind, sat_orFail_ok hk, sat_emit]
    exact Emits.trans h₁₂ ⟨⟨rfl, rfl⟩, fun _ hc => by simp [hc]⟩
  · simpa [hv] using h₁₂

theorem StmtLowers.assignVar {n : String} {T : Ty} {v : Expr} (found : sc.typeOf? n = some T)
    (value : StoresInto sc T v) : StmtLowers cx ret sc (.assign (.var n) v) sc := by
  obtain ⟨o, hv, -⟩ := value
  refine StmtLowers.of_emits fun st ha _ => ?_
  obtain ⟨p, hp, hty, hk⟩ := ha.place found
  simp only [stmt, assignment, sat_bind, sat_emitter, sat_orFail_ok hp]
  refine hv.lowers.within ha (fun _ h => h) fun A st₁ hA h₁ => ?_
  rw [hty]
  refine coerce_sat cx T A (ha.resolved n T found) (hv.resolved ha.resolved hA) fun st₂ h₂ => ?_
  refine storePlace_sat p fun st₃ h₃ => ?_
  exact Emits.trans (h₁.weaken fun hr => ⟨hr.1.renderable, hr.2.2⟩) (Emits.trans
    (h₂.weaken fun hr => hr.1.vars n T found)
    (h₃.weaken fun hr => ha.kind_ne_void found hk hr.1.renderable))

theorem StmtLowers.assignElement {a : String} {i v : Expr} {el : Ty} {size : Int}
    {oi : Option Ty} (found : sc.typeOf? a = some (.array el size)) (index : Infers sc i oi)
    (value : ∀ T, oi.map (fun _ => el) = some T → StoresInto sc T v) :
    StmtLowers cx ret sc (.assign (.element a i) v) sc := by
  refine StmtLowers.of_emits fun st ha _ => ?_
  obtain ⟨p, hp, hty, hk⟩ := ha.place found
  have hel := element_resolved ha.resolved found
  have he : elementType p = .ok el := by simp [elementType, hty]
  simp only [stmt, assignment, sat_bind, sat_emitter, sat_orFail_ok hp, sat_orFail_ok he]
  refine loadPlace_sat p fun st₁ h₁ => ?_
  refine index.lowers.within (ha.keeps h₁.1) (fun _ h => h) fun I st₂ hI h₂ => ?_
  obtain ⟨o, hv, -⟩ := value el (by simp [hI])
  refine hv.lowers.within (ha.keeps (h₁.1.trans h₂.1)) (fun _ h => h) fun A st₃ hA h₃ => ?_
  refine coerce_sat cx el A hel (hv.resolved ha.resolved hA) fun st₄ h₄ => ?_
  obtain ⟨k, hek⟩ : ∃ k, ValueKind.of cx.env el = .ok k := ValueKind.of_resolved_ok hel
  simp only [kind, sat_orFail_ok hek, sat_emit]
  refine Emits.trans (h₁.weaken fun hr => ha.kind_ne_void found hk hr.1.renderable)
    (Emits.trans (h₂.weaken fun hr => ⟨hr.1.renderable, hr.2.1⟩)
    (Emits.trans (h₃.weaken fun hr => ⟨hr.1.renderable, hr.2.2⟩)
    (Emits.trans (h₄.weaken fun hr => (hr.1.vars a _ found).2) ⟨⟨rfl, rfl⟩, fun hr hc => ?_⟩)))
  -- the array's elements are storable, so their kind is not void
  cases hr.1.renderable.vars a _ found with
  | array element => simp [hc, ValueKind.ne_void_of hel element.ne_void hek]

theorem StmtLowers.assignField {r f : String} {R F : Ty} {name : String}
    {fields : List (String × Ty)} {v : Expr} (found : sc.typeOf? r = some R)
    (record : R.resolveDeep sc.env = .ok (.record name fields))
    (member : fields.lookup f = some F)
    (value : ∀ T, (F.resolveDeep sc.env).toOption = some T → StoresInto sc T v) :
    StmtLowers cx ret sc (.assign (.field r f) v) sc := by
  refine StmtLowers.of_emits fun st ha _ => ?_
  obtain ⟨p, hp, hty, hk⟩ := ha.place found
  have hR := record_of_resolveDeep ha.resolved found record
  rw [hR] at hty
  simp only [stmt, assignment, sat_bind, sat_emitter, sat_orFail_ok hp]
  cases hF : F.resolveDeep sc.env with
  | error err =>
    -- a field type the checker never resolved: lowering fails on it
    have hft : fieldType cx p f = .error (err.orUnresolved F.display) := by
      simp [fieldType, hty, Ty.recordName?, Ty.field?, member, resolveIn, ha.env, hF, bind,
        Except.bind, pure, Except.pure]
    simp only [hft, sat_orFail]
    intro hf
    obtain ⟨FR, hFR⟩ := hf r R name fields found record f F (mem_of_lookup member)
    rw [hF] at hFR
    cases hFR
  | ok FR =>
    have hft : fieldType cx p f = .ok (name, FR) := by
      simp [fieldType, hty, Ty.recordName?, Ty.field?, member, resolveIn, ha.env, hF, bind,
        Except.bind, pure, Except.pure]
    have hFR := Ty.resolveDeep_resolved hF
    obtain ⟨k, hfk⟩ : ∃ k, ValueKind.of cx.env FR = .ok k := ValueKind.of_resolved_ok hFR
    obtain ⟨o, hv, -⟩ := value FR (by simp [Except.toOption, hF])
    simp only [sat_orFail_ok hft]
    refine loadPlace_sat p fun st₁ h₁ => ?_
    refine hv.lowers.within (ha.keeps h₁.1) (fun _ h => h) fun A st₂ hA h₂ => ?_
    refine coerce_sat cx FR A hFR (hv.resolved ha.resolved hA) fun st₃ h₃ => ?_
    simp only [kind, sat_orFail_ok hfk, sat_emit]
    refine Emits.trans (h₁.weaken fun hr => ha.kind_ne_void found hk hr.1.renderable)
      (Emits.trans (h₂.weaken fun hr => ⟨hr.1.renderable, hr.2.2⟩)
      (Emits.trans (h₃.weaken fun hr => ?_) ⟨⟨rfl, rfl⟩, fun _ hc => by simp [hc]⟩))
    -- the field's sizes fit: those of the record's fields do, and resolution keeps them
    have hfit := hr.1.vars r R found
    rw [hR] at hfit
    exact Ty.SizesFit.resolveDeep hr.1.types (Ty.fieldsFit_lookup hfit member) hF

theorem Lower.bindIn_tail (frames : List (List (String × Local))) (n : String) (l : Local) :
    (bindIn frames n l).tail = frames.tail := by
  cases frames <;> rfl

/-- The first value of a declared variable: its initializer converted to the declared type, or a
fresh value, which needs the type to be creatable. -/
theorem Lower.initialValue_sat {T : Ty} {init : Option Expr} (hT : T.Resolved)
    (initial : ∀ i, init = some i → StoresInto sc T i) (ha : Aligned cx sc st.em) :
    Sat (initialValue cx T init) st
      (fun _ st' => Emits (sc.Renderable ∧ T.Storable sc.env ∧ T.SizesFit ∧
        (init = none → Creatable sc.env (Ty.depthBudget sc.env T) T) ∧
        ∀ e, init = some e → e.ConstantsFit) st st')
      (fun _ => ¬ (sc.FieldsResolve ∧ (init = none → Creatable sc.env (Ty.depthBudget sc.env T) T))) := by
  cases init with
  | some e =>
    obtain ⟨o, he, -⟩ := initial e rfl
    simp only [initialValue, sat_bind]
    refine he.lowers.within ha (fun _ h hr => h hr.1) fun A st₁ hA h₁ => ?_
    refine coerce_sat cx T A hT (he.resolved ha.resolved hA) fun st₂ h₂ => ?_
    exact Emits.trans (h₁.weaken fun hr => ⟨hr.1, hr.2.2.2.2 e rfl⟩) (h₂.weaken fun hr => hr.2.2.1)
  | none =>
    rw [initialValue]
    by_cases hc : Creatable sc.env (Ty.depthBudget sc.env T) T
    · rw [← ha.env] at hc
      exact newValue_sat hT hc fun st' h => h.weaken fun hr => ha.env ▸ hr.2.1
    · -- a type that cannot be created: lowering may fail, and what it emits is not promised
      refine ((Sat.of_forall (Q := fun _ _ => True) (fun _ _ => trivial)
        (fun _ hr => hc (hr.2 rfl))).and_lsat (freshValue_keeping cx _ T st)).mono
        (fun _ _ h => ⟨h.2, fun hr => absurd (hr.2.2.2.1 rfl) hc⟩) (fun _ h => h)

/-- Declaring the local a declaration lowers to, in the innermost frame, and storing its first
value there. -/
theorem Lower.declareStore_sat {n : String} {T : Ty} {k : ValueKind} (ha : Aligned cx sc st.em)
    (hl : sc.locals ≠ []) (hT : T.Resolved) (hk : ValueKind.of cx.env T = .ok k) {ready : Prop}
    {Q : Unit → LowerState → Prop}
    (hQ : ∀ st', Aligned cx (sc.declare n T) st'.em → Confined ready st st' → Q () st')
    (hready : ready → T.Storable sc.env) :
    Sat (declareLocal cx.alignWide n T k) st (fun slot st' => Sat (emit (.store slot k)) st' Q E)
      E := by
  simp only [declareLocal, sat_bind, sat_allocate, sat_bindLocal, sat_pure, sat_emit]
  refine hQ _ ((ha.declare (l := ⟨_, T, k⟩) hl hT hk).of_frames rfl)
    ⟨rfl, bindIn_tail _ _ _, fun hr hc => ?_⟩
  have hkv : k ≠ .void := ValueKind.ne_void_of hT (hready hr).ne_void hk
  simp [hc, hkv]

theorem StmtLowers.declare {n : String} {t T : Ty} {init : Option Expr} (hl : sc.locals ≠ [])
    (resolved : t.resolveDeep sc.env = .ok T) (initial : ∀ i, init = some i → StoresInto sc T i) :
    StmtLowers cx ret sc (.varDecl n (some t) init) (sc.declare n T) := by
  intro st ha _
  have hT := Ty.resolveDeep_resolved resolved
  obtain ⟨k, hk⟩ : ∃ k, ValueKind.of cx.env T = .ok k := ValueKind.of_resolved_ok hT
  have hty : declaredTypeIn cx.env n (some t) = .ok T := resolveIn_ok (ha.env ▸ resolved)
  -- what the declaration asks of its type, once resolved
  have lowerable : (Stmt.varDecl n (some t) init).Lowerable sc.env →
      T.Storable sc.env ∧ (init = none → Creatable sc.env (Ty.depthBudget sc.env T) T) :=
    fun h => h t T rfl resolved
  simp only [stmt, sat_bind, sat_orFail_ok hty, kind, sat_orFail_ok hk]
  refine (initialValue_sat hT initial ha).mono (fun _ st₁ h₁ => ?_)
    (fun _ h hr => h ⟨hr.1.fieldsResolve ha.resolved, (lowerable hr.2).2⟩)
  refine declareStore_sat (ha.keeps h₁.1) hl hT hk (fun st₂ ha₂ h₂ => ⟨ha₂,
    Confined.trans (.of_emits (h₁.weaken fun hr => ?_)) h₂⟩) fun hr => (lowerable hr.2.1).1
  have hfit : T.SizesFit := Ty.SizesFit.resolveDeep hr.1.types (hr.2.2.1 t rfl) resolved
  exact ⟨hr.1.renderable, (lowerable hr.2.1).1, hfit, (lowerable hr.2.1).2, hr.2.2.2⟩

/-- A declaration without a type has an initializer the checker could not type: lowering refuses
it, which happens only when a visible record has a field type that does not resolve. -/
theorem StmtLowers.declareUntyped {n : String} {i : Expr} (initial : Infers sc i none) :
    StmtLowers cx ret sc (.varDecl n none (some i)) sc := by
  intro st ha _
  simp only [stmt, sat_bind, declaredTypeIn, sat_orFail]
  intro hr
  obtain ⟨T, hT⟩ := initial.isSome ha.resolved (hr.1.fieldsResolve ha.resolved) ha.signatures
  cases hT

theorem StmtLowers.array {n : String} {el E : Ty} {size : Int} (hl : sc.locals ≠ [])
    (resolved : el.resolveDeep sc.env = .ok E) :
    StmtLowers cx ret sc (.arrayDecl n el size) (sc.declare n (.array E size)) := by
  intro st ha _
  have hA : (Ty.array E size).Resolved := Ty.resolveDeep_resolved (Ty.resolveDeep_array_ok resolved)
  obtain ⟨k, hk⟩ : ∃ k, ValueKind.of cx.env (.array E size) = .ok k := ValueKind.of_resolved_ok hA
  have hty : resolveIn cx.env (.array el size) = .ok (.array E size) :=
    resolveIn_ok (ha.env ▸ Ty.resolveDeep_array_ok resolved)
  simp only [stmt, sat_bind, resolve, sat_orFail_ok hty, kind, sat_orFail_ok hk]
  by_cases hc : Creatable sc.env (Ty.depthBudget sc.env (.array E size)) (.array E size)
  · refine newValue_sat hA (ha.env ▸ hc) fun st₁ h₁ => ?_
    refine declareStore_sat (ha.keeps h₁.1) hl hA hk (fun st₂ ha₂ h₂ => ⟨ha₂,
      Confined.trans (.of_emits (h₁.weaken fun hr => ?_)) h₂⟩) fun hr => (hr.2.1 E resolved).1
    exact ha.env ▸ (hr.2.1 E resolved).1
  · -- an array that cannot be created: lowering may fail, and what it emits is not promised
    refine ((Sat.of_forall (Q := fun _ _ => True) (fun _ _ => trivial)
      (fun _ hr => hc (hr.2 E resolved).2)).and_lsat (freshValue_keeping cx _ _ st)).mono
      (fun _ st₁ h₁ => ?_) (fun _ h => h)
    refine declareStore_sat (ha.keeps h₁.2) hl hA hk (fun st₂ ha₂ h₂ => ⟨ha₂,
      Confined.trans ?_ h₂⟩) fun hr => (hr.2.1 E resolved).1
    exact ⟨h₁.2.2, by rw [h₁.2.1], fun hr => absurd (hr.2.1 E resolved).2 hc⟩

/-- Closing the scope a block opened: the frames around it are back. -/
theorem Lower.exitScope_frames {F : List (List (String × Local))} {frames : List (List (String × Local))}
    (hne : F ≠ []) (htail : F.tail = frames) (hframes : frames ≠ []) :
    (if F.length > 1 then F.drop 1 else F) = frames := by
  obtain ⟨f, rest, rfl⟩ := List.exists_cons_of_ne_nil hne
  subst htail
  have : rest.length > 0 := List.length_pos_iff.mpr hframes
  simp [this]

/-- A step that leaves the routine being lowered as it was. -/
theorem Keeps.of_em {st' : LowerState} (h : st'.em = st.em) : Keeps st st' :=
  ⟨by rw [h], by rw [h]⟩

theorem Emits.of_em {ready : Prop} {st' : LowerState} (h : st'.em = st.em) : Emits ready st st' :=
  ⟨.of_em h, fun _ hc => by rw [h]; exact hc⟩

/-- A fresh label leaves the routine being lowered as it was. -/
theorem Lower.sat_newLabel_em {Q : Label → LowerState → Prop}
    (h : ∀ st', st'.em = st.em → Q st.labels st') : Sat newLabel st Q E := by
  rw [sat_newLabel]
  exact h _ rfl

/-- An instruction that renders. -/
theorem Lower.sat_emit_renders {i : Instr} (hi : i.Renders) {Q : Unit → LowerState → Prop}
    (hQ : ∀ st', Emits True st st' → Q () st') : Sat (emit i) st Q E :=
  hQ _ ⟨⟨rfl, rfl⟩, fun _ hc => by simp [hc, hi]⟩

/-- An instruction emitted only when `c` holds. -/
theorem Lower.sat_emitWhen_emits {c : Bool} {i : Instr} (hi : i.Renders)
    {Q : Unit → LowerState → Prop} (hQ : ∀ st', Emits True st st' → Q () st') :
    Sat (if c = true then emit i else pure ()) st Q E := by
  cases c
  · exact hQ st ⟨ImpStack.Keeps.refl st, fun _ hc => hc⟩
  · exact hQ _ ⟨⟨rfl, rfl⟩, fun _ hc => by simp [hc, hi]⟩

/-- An instruction emitted only when `c` holds, before the rest `k` of a `do` block. -/
theorem Lower.sat_emitWhen_emits_bind {β : Type} {c : Bool} {i : Instr} (hi : i.Renders)
    {k : LowerM β} {Q : β → LowerState → Prop} (hQ : ∀ st', Emits True st st' → Sat k st' Q E) :
    Sat (if c = true then emit i >>= fun _ => k else k) st Q E := by
  cases c
  · exact hQ st ⟨ImpStack.Keeps.refl st, fun _ hc => hc⟩
  · exact hQ _ ⟨⟨rfl, rfl⟩, fun _ hc => by simp [hc, hi]⟩

/-- A block lowered in a scope of its own leaves the frames as they were. -/
theorem Lower.scoped_sat {ss : List Stmt} {sc₁ : Scopes} (hb : BlockLowers cx ret sc.enter ss sc₁)
    (ha : Aligned cx sc st.em) (hret : ∀ R, ret = some R → st.em.returnType = R)
    {Q : Unit → LowerState → Prop}
    (hE : ∀ err, ¬ (sc.VarsStorable ∧ Stmt.allLowerable sc.env ss) → E err)
    (hQ : ∀ st', Emits (sc.Fit ret ∧ Stmt.allLowerable sc.env ss ∧ Stmt.allFit ss) st st' →
      Q () st') :
    Sat enterScope st (fun _ st₁ => Sat (stmts cx ss) st₁ (fun _ st₂ => Sat exitScope st₂ Q E) E)
      E := by
  rw [sat_enterScope]
  refine (hb { st with em := { st.em with frames := [] :: st.em.frames } } ha.enter hret).mono (fun _ st₂ h₂ => ?_)
    (fun err h => hE err fun hr => h ⟨hr.1.enter, hr.2⟩)
  rw [sat_exitScope]
  obtain ⟨ha₂, h₂⟩ := h₂
  refine hQ _ ⟨⟨exitScope_frames ha₂.nonempty h₂.outer ha.nonempty, h₂.returnType⟩,
    fun hr hc => h₂.renders ⟨hr.1.enter, hr.2⟩ hc⟩

theorem StmtLowers.ifThen {c : Expr} {t e : List Stmt} {oc : Option Ty} {sc₁ sc₂ : Scopes}
    (cond : Infers sc c oc) (thenBranch : BlockLowers cx ret sc.enter t sc₁)
    (elseBranch : BlockLowers cx ret sc.enter e sc₂) : StmtLowers cx ret sc (.ifThen c t e) sc := by
  intro st ha hret
  simp only [stmt, sat_bind]
  refine sat_newLabel_em fun st₀ e₀ => sat_newLabel_em fun st₁ e₁ => ?_
  have h₁ : Emits True st st₁ := .of_em (e₁.trans e₀)
  refine cond.lowers.within (ha.keeps h₁.1) ha.fieldsFail fun C st₂ _ h₂ => ?_
  refine sat_emit_renders (by simp) fun st₃ h₃ => ?_
  have k₃ := h₁.1.trans (h₂.1.trans h₃.1)
  refine scoped_sat thenBranch (ha.keeps k₃) (fun R hR => k₃.2.trans (hret R hR))
    (fun _ h (hr : sc.VarsStorable ∧ (Stmt.ifThen c t e).Lowerable sc.env) => h ⟨hr.1, hr.2.1⟩)
    fun st₄ h₄ => ?_
  refine sat_emitWhen_emits_bind (by simp) fun st₅ h₅ => ?_
  simp only [sat_bind]
  refine sat_emit_renders (by simp) fun st₆ h₆ => ?_
  have k₆ := k₃.trans (h₄.1.trans (h₅.1.trans h₆.1))
  refine scoped_sat elseBranch (ha.keeps k₆) (fun R hR => k₆.2.trans (hret R hR))
    (fun _ h (hr : sc.VarsStorable ∧ (Stmt.ifThen c t e).Lowerable sc.env) => h ⟨hr.1, hr.2.2⟩)
    fun st₇ h₇ => ?_
  refine sat_emitWhen_emits (by simp) fun st₈ h₈ => ?_
  -- the code: the condition, the two arms, and the instructions around them
  have h : Emits (sc.Fit ret ∧ (Stmt.ifThen c t e).Lowerable sc.env ∧ (Stmt.ifThen c t e).Fits)
      st st₈ := by
    refine (Emits.of_em (e₁.trans e₀)).trans ((h₂.weaken fun hr => ⟨hr.1.renderable, hr.2.2.1⟩).trans
      ((h₃.weaken fun _ => trivial).trans ((h₄.weaken fun hr => ⟨hr.1, hr.2.1.1, hr.2.2.2.1⟩).trans
      ((h₅.weaken fun _ => trivial).trans ((h₆.weaken fun _ => trivial).trans
      ((h₇.weaken fun hr => ⟨hr.1, hr.2.1.2, hr.2.2.2.2⟩).trans (h₈.weaken fun _ => trivial)))))))
  exact ⟨ha.keeps h.1, .of_emits h⟩

theorem StmtLowers.whileDo {c : Expr} {b : List Stmt} {oc : Option Ty} {sc₁ : Scopes}
    (cond : Infers sc c oc) (body : BlockLowers cx ret sc.enter b sc₁) :
    StmtLowers cx ret sc (.whileDo c b) sc := by
  intro st ha hret
  simp only [stmt, sat_bind]
  refine sat_newLabel_em fun st₀ e₀ => sat_newLabel_em fun st₁ e₁ => ?_
  refine sat_emit_renders (by simp) fun st₂ h₂ => ?_
  have k₂ : Keeps st st₂ := (Keeps.of_em (e₁.trans e₀)).trans h₂.1
  refine cond.lowers.within (ha.keeps k₂) ha.fieldsFail fun C st₃ _ h₃ => ?_
  refine sat_emit_renders (by simp) fun st₄ h₄ => ?_
  have k₄ := k₂.trans (h₃.1.trans h₄.1)
  refine scoped_sat body (ha.keeps k₄) (fun R hR => k₄.2.trans (hret R hR))
    (fun _ h (hr : sc.VarsStorable ∧ (Stmt.whileDo c b).Lowerable sc.env) => h hr) fun st₅ h₅ => ?_
  refine sat_emit_renders (by simp) fun st₆ h₆ => sat_emit_renders (by simp) fun st₇ h₇ => ?_
  -- the code: the head label, the test, the body, and the jump back
  have h : Emits (sc.Fit ret ∧ (Stmt.whileDo c b).Lowerable sc.env ∧ (Stmt.whileDo c b).Fits)
      st st₇ := by
    refine (Emits.of_em (e₁.trans e₀)).trans ((h₂.weaken fun _ => trivial).trans
      ((h₃.weaken fun hr => ⟨hr.1.renderable, hr.2.2.1⟩).trans ((h₄.weaken fun _ => trivial).trans
      ((h₅.weaken fun hr => ⟨hr.1, hr.2.1, hr.2.2.2⟩).trans ((h₆.weaken fun _ => trivial).trans
      (h₇.weaken fun _ => trivial))))))
  exact ⟨ha.keeps h.1, .of_emits h⟩

/-- Opening a loop's scope and declaring its counter there, on both sides. -/
theorem Lower.enterCounter_sat (ha : Aligned cx sc st.em) (v : String)
    {Q : Nat → LowerState → Prop}
    (hQ : ∀ slot st', Aligned cx (sc.enter.declare v .integer) st'.em →
      st'.em.frames.tail = st.em.frames → st'.em.returnType = st.em.returnType →
      st'.em.code = st.em.code → Q slot st') :
    Sat enterScope st (fun _ st₁ => Sat (declareLocal cx.alignWide v .integer .int) st₁ Q E) E := by
  simp only [sat_enterScope, declareLocal, sat_bind, sat_allocate, sat_bindLocal, sat_pure]
  exact hQ _ _ ((ha.enter.declare (l := ⟨_, .integer, .int⟩) (by simp) trivial (by simp)).of_frames
    rfl) rfl rfl rfl

theorem StmtLowers.forRange {v : String} {s e : Expr} {r : Bool} {b : List Stmt}
    {os oe : Option Ty} {sc₁ : Scopes} (start : Infers sc s os)
    (stop : Infers (sc.enter.declare v .integer) e oe)
    (body : BlockLowers cx ret (sc.enter.declare v .integer) b sc₁) :
    StmtLowers cx ret sc (.forRange v s e r b) sc := by
  intro st ha hret
  -- inside the loop's scope the counter is one more storable variable
  have inner : ∀ {P : Prop}, sc.VarsStorable ∧ P → (sc.enter.declare v .integer).VarsStorable :=
    fun hr => hr.1.enter.declare (.prim (by decide)) v
  simp only [stmt, sat_bind]
  refine start.lowers.within ha ha.fieldsFail fun S st₁ _ h₁ => ?_
  refine enterCounter_sat (ha.keeps h₁.1) v fun slot st₂ ha₂ t₂ r₂ c₂ => ?_
  refine sat_emit_renders (by simp) fun st₃ h₃ => ?_
  refine sat_newLabel_em fun st₄ e₄ => sat_newLabel_em fun st₅ e₅ => ?_
  -- counting up and down differ only in the exit test and the step
  cases r
  all_goals
    simp only [Bool.false_eq_true, ↓reduceIte]
    refine sat_emit_renders (by simp) fun st₆ h₆ => sat_emit_renders (by simp) fun st₇ h₇ => ?_
    have k₇ : Keeps st₂ st₇ := h₃.1.trans ((Keeps.of_em (e₅.trans e₄)).trans (h₆.1.trans h₇.1))
    refine stop.lowers.within (ha₂.keeps k₇)
      (fun _ h (hr : sc.VarsStorable ∧ (Stmt.forRange v s e _ b).Lowerable sc.env) =>
        h ((inner hr).fieldsResolve ha₂.resolved)) fun T st₈ _ h₈ => ?_
    refine sat_emit_renders (by simp) fun st₉ h₉ => ?_
    have k₉ := k₇.trans (h₈.1.trans h₉.1)
    refine (body st₉ (ha₂.keeps k₉) fun R hR => k₉.2.trans (r₂.trans (h₁.1.2.trans (hret R hR)))).mono
      (fun _ st₁₀ h₁₀ => ?_) (fun _ h hr => h ⟨inner hr, hr.2⟩)
    refine sat_emit_renders (by simp) fun st₁₁ h₁₁ => sat_emit_renders (by simp) fun st₁₂ h₁₂ => ?_
    refine sat_emit_renders (by simp) fun st₁₃ h₁₃ => sat_emit_renders (by simp) fun st₁₄ h₁₄ => ?_
    refine sat_emit_renders (by simp) fun st₁₅ h₁₅ => sat_emit_renders (by simp) fun st₁₆ h₁₆ => ?_
    rw [sat_exitScope]
    obtain ⟨ha₁₀, h₁₀⟩ := h₁₀
    -- after the loop: the six instructions of the step and the exit, all in the loop's scope
    have h₁₆ := h₁₁.trans (h₁₂.trans (h₁₃.trans (h₁₄.trans (h₁₅.trans h₁₆))))
    have hframes : st₁₆.em.frames.tail = st₁.em.frames := by
      rw [h₁₆.1.1, h₁₀.outer, k₉.1, t₂]
    refine ⟨(ha.keeps h₁.1).of_frames (exitScope_frames ?_ hframes (ha.keeps h₁.1).nonempty),
      ⟨?_, ?_, fun hr hc => ?_⟩⟩
    · rw [h₁₆.1.1]; exact ha₁₀.nonempty
    · exact h₁₆.1.2.trans (h₁₀.returnType.trans (k₉.2.trans (r₂.trans h₁.1.2)))
    · simp only
      rw [exitScope_frames (by rw [h₁₆.1.1]; exact ha₁₀.nonempty) hframes (ha.keeps h₁.1).nonempty,
        h₁.1.1]
    · -- the code renders, piece by piece
      have fit : (sc.enter.declare v .integer).Fit ret :=
        hr.1.enter.declare (.prim (by decide)) trivial v
      have c₁ := h₁.2 ⟨hr.1.renderable, hr.2.2.1⟩ hc
      rw [← c₂] at c₁
      have c₅ : CodeRenders st₅.em.code := by rw [e₅, e₄]; exact h₃.2 trivial c₁
      have c₉ := h₉.2 trivial (h₈.2 ⟨fit.renderable, hr.2.2.2.1⟩ (h₇.2 trivial (h₆.2 trivial c₅)))
      exact h₁₆.2 trivial (h₁₀.renders ⟨fit, by simpa [Stmt.Lowerable] using hr.2.1, hr.2.2.2.2⟩ c₉)

theorem StmtLowers.assign {t : Target} {v : Expr} {ot : Option Ty}
    (target : TargetInfers sc t ot) (value : ∀ T, ot = some T → StoresInto sc T v) :
    StmtLowers cx ret sc (.assign t v) sc := by
  cases target with
  | var found => exact .assignVar found (value _ rfl)
  | element found index _ => exact .assignElement found index value
  | field found record member => exact .assignField found record member value

theorem BlockLowers.nil : BlockLowers cx ret sc [] sc :=
  fun st ha _ => ⟨ha, Confined.refl st⟩

/-- A block lowers statement by statement; what the first leaves is what the rest needs, when
the first keeps the declared types and its declarations keep the variables storable and
fitting. -/
theorem BlockLowers.cons {s : Stmt} {ss : List Stmt} {sc₁ sc₂ : Scopes}
    (head : StmtLowers cx ret sc s sc₁) (tail : BlockLowers cx ret sc₁ ss sc₂)
    (henv : sc₁.env = sc.env) (fit : sc.Fit ret → s.Lowerable sc.env → s.Fits → sc₁.Fit ret)
    (storable : sc.VarsStorable → s.Lowerable sc.env → sc₁.VarsStorable) :
    BlockLowers cx ret sc (s :: ss) sc₂ := by
  intro st ha hret
  simp only [stmts, sat_bind]
  refine (head st ha hret).mono (fun _ st₁ h₁ => ?_) (fun _ h hr => h ⟨hr.1, hr.2.1⟩)
  have first : Confined (sc.Fit ret ∧ Stmt.allLowerable sc.env (s :: ss) ∧ Stmt.allFit (s :: ss))
      st st₁ :=
    h₁.2.weaken fun hr => ⟨hr.1, hr.2.1.1, hr.2.2.1⟩
  refine (tail st₁ h₁.1 fun R hR => h₁.2.returnType.trans (hret R hR)).mono
    (fun _ st₂ h₂ => ⟨h₂.1, first.trans (h₂.2.weaken fun hr =>
      ⟨fit hr.1 hr.2.1.1 hr.2.2.1, henv ▸ hr.2.1.2, hr.2.2.2⟩)⟩)
    (fun _ h hr => h ⟨storable hr.1 hr.2.1, henv ▸ hr.2.2⟩)

end Statements

/-! ## Checked statements lower -/

section Checked

variable {loops : Bool} {ret : Option Ty} {sc sc' : Scopes} {s : Stmt}

/-- A checked statement keeps the declared types. -/
theorem StmtChecks.env_eq (h : StmtChecks loops ret sc s sc') : sc'.env = sc.env := by
  cases h <;> simp

/-- A checked statement keeps the variables storable when it declares storable ones. -/
theorem StmtChecks.varsStorable (h : StmtChecks loops ret sc s sc') (hv : sc.VarsStorable)
    (hl : s.Lowerable sc.env) : sc'.VarsStorable := by
  cases h with
  | declare _ _ resolved _ => exact hv.declare (hl _ _ rfl resolved).1 _
  | array _ _ _ resolved => exact hv.declare (hl _ resolved).1 _
  | _ => exact hv

/-- A checked statement keeps the scopes fitting when what it declares fits. -/
theorem StmtChecks.fit (h : StmtChecks loops ret sc s sc') (hf : sc.Fit ret)
    (hl : s.Lowerable sc.env) (hs : s.Fits) : sc'.Fit ret := by
  cases h with
  | declare _ _ resolved _ =>
    exact hf.declare (hl _ _ rfl resolved).1 (Ty.SizesFit.resolveDeep hf.types (hs.1 _ rfl) resolved) _
  | array _ _ _ resolved =>
    exact hf.declare (hl _ resolved).1 ⟨hs.1, Ty.SizesFit.resolveDeep hf.types hs.2 resolved⟩ _
  | _ => exact hf

variable {cx : LowerCtx}

mutual

/-- Lowering simulates the checker statement by statement: from a state aligned with the scopes
a statement is checked in, inside a routine or a block, its lowering ends aligned with the
scopes the checker leaves. -/
theorem StmtChecks.lowers (hR : ∀ R, ret = some R → R.Resolved) :
    ∀ {sc sc' : Scopes} {s : Stmt}, StmtChecks loops ret sc s sc' → sc.locals ≠ [] →
      StmtLowers cx ret sc s sc'
  | _, _, _, .declare _ _ resolved initial, hl => .declare hl resolved initial
  | _, _, _, .declareUntyped _ initial, _ => .declareUntyped initial
  | _, _, _, .array _ _ _ resolved, hl => .array hl resolved
  | _, _, _, .assign target value, _ => .assign target value
  | _, _, _, .ifThen cond _ thenBranch elseBranch, _ =>
    .ifThen cond (thenBranch.lowers hR (by simp)) (elseBranch.lowers hR (by simp))
  | _, _, _, .whileDo cond _ body, _ => .whileDo cond (body.lowers hR (by simp))
  | _, _, _, .forRange start _ _ _ _ stopInLoop body, _ =>
    .forRange start stopInLoop (body.lowers hR (Scopes.declare_locals_ne_nil _ _ _ (by simp)))
  | _, _, _, .call found count arguments, _ => .call found count arguments
  | _, _, _, .retValue routine _ value, _ => .retValue routine (hR _ routine) value
  | _, _, _, .retNone _ _, _ => .retNone
  | _, _, _, .print value printable, _ => .print value printable

theorem BlockChecks.lowers (hR : ∀ R, ret = some R → R.Resolved) :
    ∀ {sc sc' : Scopes} {ss : List Stmt}, BlockChecks loops ret sc ss sc' → sc.locals ≠ [] →
      BlockLowers cx ret sc ss sc'
  | _, _, _, .nil, _ => .nil
  | _, _, _, .cons head tail, hl =>
    .cons (head.lowers hR hl) (tail.lowers hR (head.exit_eq hl).2) head.env_eq head.fit
      head.varsStorable

end

end Checked


end ImpStack
