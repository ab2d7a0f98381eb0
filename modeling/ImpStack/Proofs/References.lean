import ImpStack.Proofs.LowerRun
import Mathlib.Data.List.Forall2

/-! # What lowered code refers to

  Lowered code names routines and globals: a call names its callee with the kinds of its
  parameters and result, and a global access names the global with its kind. Lowering takes
  those names and kinds from its context, and `Refers cx i` says that an instruction's do
  come from the context `cx`: a call names a routine of the context, with the kinds lowering
  gives to that routine's parameter and return types (`KindOf`), and a global access names a
  global of the context with its kind.

  Every lowering function only ever appends instructions that refer so (`expr_yields`,
  `stmts_yields`), and so does every lowered routine, whose name, parameter kinds and result
  kind are those of its declaration (`routine_sat`). How the module's routines and globals
  then match the context is the subject of the next module.
-/

namespace ImpStack

/-- A place is a local slot, or a global of the context with its type and kind. -/
def Place.Refers (cx : LowerCtx) : Place → Prop
  | .inSlot _ => True
  | .inGlobal n t k => cx.globals.lookup n = some (t, k)

namespace Lower

/-- The kind lowering gives a written type: the kind of its full resolution. -/
def KindOf (env : TypeEnv) (t : Ty) (k : ValueKind) : Prop :=
  ∃ r, resolveIn env t = .ok r ∧ ValueKind.of env r = .ok k

theorem KindOf.unique {env : TypeEnv} {t : Ty} {k k' : ValueKind} (h : KindOf env t k)
    (h' : KindOf env t k') : k = k' := by
  obtain ⟨r, hr, hk⟩ := h
  obtain ⟨r', hr', hk'⟩ := h'
  rw [hr] at hr'
  cases hr'
  rw [hk] at hk'
  cases hk'
  rfl

theorem KindOf.forall₂_unique {env : TypeEnv} :
    ∀ {ts : List Ty} {ks ks' : List ValueKind}, List.Forall₂ (KindOf env) ts ks →
      List.Forall₂ (KindOf env) ts ks' → ks = ks' := by
  intro ts
  induction ts with
  | nil =>
    intro ks ks' h h'
    rw [List.forall₂_nil_left_iff.mp h, List.forall₂_nil_left_iff.mp h']
  | cons t ts ih =>
    intro ks ks' h h'
    obtain ⟨k, ks, hk, hks, rfl⟩ := List.forall₂_cons_left_iff.mp h
    obtain ⟨k', ks', hk', hks', rfl⟩ := List.forall₂_cons_left_iff.mp h'
    rw [hk.unique hk', ih hks hks']

/-- What an instruction names is what the lowering context provides: a call names a routine of
the context, with the kinds of its parameter and return types, and a global access names a
global of the context, with its kind. -/
def Refers (cx : LowerCtx) : Instr → Prop
  | .call n ks k => ∃ sig, cx.routines.lookup n = some sig ∧
      List.Forall₂ (KindOf cx.env) sig.params ks ∧ KindOf cx.env sig.returnType k
  | .getGlobal n k => ∃ t, cx.globals.lookup n = some (t, k)
  | .putGlobal n k => ∃ t, cx.globals.lookup n = some (t, k)
  | _ => True

section Yields

variable (cx : LowerCtx)

theorem global_refers {n : String} {p : Place} (h : global cx n = .ok p) : p.Refers cx := by
  unfold global at h
  split at h
  · next t k hl =>
    cases h
    exact hl
  · cases h

theorem place_refers {em : Emitter} {n : String} {p : Place} (h : place cx em n = .ok p) :
    p.Refers cx := by
  unfold place at h
  split at h
  · cases h
    trivial
  · exact global_refers cx h

theorem loadPlace_yields {p : Place} (hp : p.Refers cx) :
    Yields (Refers cx) (loadPlace p) (fun _ => True) := by
  cases p with
  | inSlot l => exact Yields.emit trivial
  | inGlobal n t k => exact Yields.emit ⟨t, hp⟩

theorem storePlace_yields {p : Place} (hp : p.Refers cx) :
    Yields (Refers cx) (storePlace p) (fun _ => True) := by
  cases p with
  | inSlot l => exact Yields.emit trivial
  | inGlobal n t k => exact Yields.emit ⟨t, hp⟩

theorem boolSelect_yields (c : Condition) :
    Yields (Refers cx) (boolSelect c) (fun _ => True) := by
  unfold boolSelect
  refine Yields.bind Yields.newLabel fun _ _ => ?_
  refine Yields.bind Yields.newLabel fun _ _ => ?_
  refine Yields.bind (Yields.emit trivial) fun _ _ => ?_
  refine Yields.bind (Yields.emit trivial) fun _ _ => ?_
  refine Yields.bind (Yields.emit trivial) fun _ _ => ?_
  refine Yields.bind (Yields.emit trivial) fun _ _ => ?_
  refine Yields.bind (Yields.emit trivial) fun _ _ => ?_
  exact Yields.emit trivial

theorem applyCoercion_yields (c : Coercion) :
    Yields (Refers cx) (applyCoercion c) (fun _ => True) := by
  cases c with
  | identity | boolToInt => exact Yields.pure trivial
  | intToReal | boolToReal | realToInt => exact Yields.emit trivial
  | intToBool => exact boolSelect_yields cx _
  | realToBool => exact Yields.bind (Yields.emit trivial) fun _ _ => boolSelect_yields cx _

theorem indexLoop_yields (alignWide : Bool) (size : Int) {body : Nat → LowerM Unit}
    (hb : ∀ n, Yields (Refers cx) (body n) (fun _ => True)) :
    Yields (Refers cx) (indexLoop alignWide size body) (fun _ => True) := by
  unfold indexLoop
  refine Yields.bind (Yields.allocate _ _) fun _ _ => ?_
  refine Yields.bind Yields.newLabel fun _ _ => ?_
  refine Yields.bind Yields.newLabel fun _ _ => ?_
  refine Yields.bind (Yields.emit trivial) fun _ _ => ?_
  refine Yields.bind (Yields.emit trivial) fun _ _ => ?_
  refine Yields.bind (Yields.emit trivial) fun _ _ => ?_
  refine Yields.bind (Yields.emit trivial) fun _ _ => ?_
  refine Yields.bind (Yields.emit trivial) fun _ _ => ?_
  refine Yields.bind (Yields.emit trivial) fun _ _ => ?_
  refine Yields.bind (hb _) fun _ _ => ?_
  refine Yields.bind (Yields.emit trivial) fun _ _ => ?_
  refine Yields.bind (Yields.emit trivial) fun _ _ => ?_
  refine Yields.bind (Yields.emit trivial) fun _ _ => ?_
  refine Yields.bind (Yields.emit trivial) fun _ _ => ?_
  refine Yields.bind (Yields.emit trivial) fun _ _ => ?_
  exact Yields.emit trivial

theorem coerce_yields (expected actual : Ty) :
    Yields (Refers cx) (coerce cx expected actual) (fun _ => True) := by
  fun_induction coerce cx expected actual with
  | case1 dst size src _ _ ih =>
    -- an array copied element by element, each element coerced in turn
    refine Yields.bind (Yields.kind _ _) fun _ _ => ?_
    refine Yields.bind (Yields.kind _ _) fun _ _ => ?_
    refine Yields.bind (Yields.kind _ _) fun _ _ => ?_
    refine Yields.bind (Yields.note _ _) fun _ _ => ?_
    refine Yields.bind (Yields.allocate _ _) fun _ _ => ?_
    refine Yields.bind (Yields.emit trivial) fun _ _ => ?_
    refine Yields.bind (Yields.emit trivial) fun _ _ => ?_
    refine Yields.bind (Yields.emit trivial) fun _ _ => ?_
    refine indexLoop_yields cx _ _ fun _ => ?_
    refine Yields.bind (Yields.emit trivial) fun _ _ => ?_
    refine Yields.bind (Yields.emit trivial) fun _ _ => ?_
    refine Yields.bind (Yields.emit trivial) fun _ _ => ?_
    refine Yields.bind (Yields.emit trivial) fun _ _ => ?_
    refine Yields.bind (Yields.emit trivial) fun _ _ => ?_
    exact Yields.bind ih fun _ _ => Yields.emit trivial
  | case2 => exact Yields.pure trivial
  | case3 => exact applyCoercion_yields cx _

theorem freshValue_yields (fuel : Nat) (t : Ty) :
    Yields (Refers cx) (freshValue cx fuel t) (fun _ => True) := by
  fun_induction freshValue cx fuel t with
  | case1 => exact Yields.throw _
  | case2 fuel t ih =>
    refine Yields.bind (Yields.resolve cx t) fun r _ => ?_
    split
    · exact Yields.emit trivial
    · exact Yields.emit trivial
    · exact Yields.emit trivial
    · exact Yields.emit trivial
    · exact Yields.throw _
    · -- a record: its record and array fields are created in turn
      rename_i name fields _
      refine Yields.bind (Yields.emit trivial) fun _ _ => ?_
      refine Yields.bind (Yields.forIn fun field _ _ => ?_) fun _ _ => Yields.pure trivial
      obtain ⟨f, fieldTy⟩ := field
      refine Yields.bind (Yields.resolve cx fieldTy) fun ft _ => ?_
      split
      · refine Yields.bind (Yields.kind cx ft) fun _ _ => ?_
        refine Yields.bind (Yields.emit trivial) fun _ _ => ?_
        refine Yields.bind (ih ft) fun _ _ => ?_
        refine Yields.bind (Yields.emit trivial) fun _ _ => ?_
        exact Yields.pure ⟨_, rfl⟩
      · exact Yields.pure ⟨_, rfl⟩
    · -- an array: its elements are created when they are records or arrays
      rename_i element size _
      refine Yields.bind (Yields.kind cx element) fun _ _ => ?_
      refine Yields.bind (Yields.emit trivial) fun _ _ => ?_
      refine Yields.bind (Yields.emit trivial) fun _ _ => ?_
      split
      · refine indexLoop_yields cx _ _ fun _ => ?_
        refine Yields.bind (Yields.emit trivial) fun _ _ => ?_
        refine Yields.bind (Yields.emit trivial) fun _ _ => ?_
        exact Yields.bind (ih element) fun _ _ => Yields.emit trivial
      · exact Yields.pure trivial
    · exact Yields.throw _

theorem newValue_yields (t : Ty) : Yields (Refers cx) (newValue cx t) (fun _ => True) :=
  freshValue_yields cx _ t

/-- The routine a call names is one of the context, with as many parameters as arguments. -/
theorem callee_yields (n : String) (args : List Expr) :
    Yields (Refers cx) (callee cx n args)
      (fun sig => cx.routines.lookup n = some sig ∧ sig.params.length = args.length) := by
  unfold callee
  split
  · exact Yields.throw _
  · next sig found =>
    dsimp only
    split
    · exact Yields.throw_bind _ _
    · next h =>
      exact Yields.pure ⟨found, by simpa using h⟩

/-- The call emitted once the arguments are pushed names the callee with the kinds of its
parameters and of its result. -/
theorem finishCall_yields {n : String} {sig : RoutineSig} {ks : List ValueKind}
    (found : cx.routines.lookup n = some sig) (kinds : List.Forall₂ (KindOf cx.env) sig.params ks) :
    Yields (Refers cx) (finishCall cx n sig ks) (fun _ => True) := by
  unfold finishCall
  refine Yields.bind (Yields.resolve cx _) fun rt hrt => ?_
  refine Yields.bind (Yields.kind cx rt) fun rk hrk => ?_
  exact Yields.bind (Yields.emit ⟨sig, found, kinds, rt, hrt, hrk⟩) fun _ _ => Yields.pure trivial

mutual

/-- Lowering an expression only appends instructions that refer to the context. -/
theorem expr_yields : ∀ e : Expr, Yields (Refers cx) (expr cx e) (fun _ => True) := by
  intro e
  cases e with
  | int v | real v | bool v | str v =>
    simp only [Lower.expr]
    exact Yields.bind (Yields.emit trivial) fun _ _ => Yields.pure trivial
  | var n =>
    simp only [Lower.expr]
    refine Yields.bind Yields.emitter fun em _ => ?_
    refine Yields.bind (Yields.orFail _) fun p hp => ?_
    exact Yields.bind (loadPlace_yields cx (place_refers cx hp)) fun _ _ => Yields.pure trivial
  | binary l op r =>
    simp only [Lower.expr]
    cases op with
    | and | or =>
      -- short circuit: each operand jumps to the end when it decides
      refine Yields.bind Yields.newLabel fun _ _ => ?_
      refine Yields.bind Yields.newLabel fun _ _ => ?_
      refine Yields.bind (expr_yields l) fun _ _ => ?_
      refine Yields.bind (Yields.emit trivial) fun _ _ => ?_
      refine Yields.bind (expr_yields r) fun _ _ => ?_
      refine Yields.bind (Yields.emit trivial) fun _ _ => ?_
      refine Yields.bind (Yields.emit trivial) fun _ _ => ?_
      refine Yields.bind (Yields.emit trivial) fun _ _ => ?_
      refine Yields.bind (Yields.emit trivial) fun _ _ => ?_
      refine Yields.bind (Yields.emit trivial) fun _ _ => ?_
      refine Yields.bind (Yields.emit trivial) fun _ _ => ?_
      exact Yields.pure trivial
    | xor =>
      refine Yields.bind (expr_yields l) fun _ _ => ?_
      refine Yields.bind (expr_yields r) fun _ _ => ?_
      exact Yields.bind (Yields.emit trivial) fun _ _ => Yields.pure trivial
    | lt | le | gt | ge | eq | ne =>
      refine Yields.bind Yields.emitter fun _ _ => ?_
      refine Yields.bind (Yields.orFail _) fun rt _ => ?_
      refine Yields.bind (expr_yields l) fun lt _ => ?_
      -- both operands are brought to the type they are compared at
      split
      · refine Yields.bind (Yields.pure_true _) fun operand _ => ?_
        refine Yields.bind (coerce_yields cx operand lt) fun _ _ => ?_
        refine Yields.bind (expr_yields r) fun _ _ => ?_
        refine Yields.bind (coerce_yields cx operand rt) fun _ _ => ?_
        refine Yields.bind Yields.newLabel fun _ _ => ?_
        refine Yields.bind Yields.newLabel fun _ _ => ?_
        refine Yields.bind (Yields.kind cx operand) fun _ _ => ?_
        refine Yields.bind (Yields.emit trivial) fun _ _ => ?_
        refine Yields.bind (Yields.emit trivial) fun _ _ => ?_
        refine Yields.bind (Yields.emit trivial) fun _ _ => ?_
        refine Yields.bind (Yields.emit trivial) fun _ _ => ?_
        refine Yields.bind (Yields.emit trivial) fun _ _ => ?_
        refine Yields.bind (Yields.emit trivial) fun _ _ => ?_
        exact Yields.pure trivial
      · exact Yields.throw_bind _ _
    | add | sub | mul | div | mod =>
      refine Yields.bind Yields.emitter fun _ _ => ?_
      refine Yields.bind (Yields.orFail _) fun rt _ => ?_
      refine Yields.bind (expr_yields l) fun lt _ => ?_
      split
      · refine Yields.bind (Yields.pure_true _) fun result _ => ?_
        refine Yields.bind (coerce_yields cx result lt) fun _ _ => ?_
        refine Yields.bind (expr_yields r) fun _ _ => ?_
        refine Yields.bind (coerce_yields cx result rt) fun _ _ => ?_
        refine Yields.bind (Yields.kind cx result) fun _ _ => ?_
        exact Yields.bind (Yields.emit trivial) fun _ _ => Yields.pure trivial
      · exact Yields.throw_bind _ _
  | unary op e =>
    cases op with
    | not =>
      simp only [Lower.expr]
      refine Yields.bind (expr_yields e) fun _ _ => ?_
      exact Yields.bind (boolSelect_yields cx _) fun _ _ => Yields.pure trivial
    | neg =>
      simp only [Lower.expr]
      refine Yields.bind (expr_yields e) fun t _ => ?_
      refine Yields.bind (Yields.kind cx t) fun _ _ => ?_
      exact Yields.bind (Yields.emit trivial) fun _ _ => Yields.pure trivial
  | index a i =>
    simp only [Lower.expr]
    refine Yields.bind Yields.emitter fun _ _ => ?_
    refine Yields.bind (Yields.orFail _) fun p hp => ?_
    refine Yields.bind (Yields.orFail _) fun element _ => ?_
    refine Yields.bind (loadPlace_yields cx (place_refers cx hp)) fun _ _ => ?_
    refine Yields.bind (expr_yields i) fun _ _ => ?_
    refine Yields.bind (Yields.kind cx element) fun _ _ => ?_
    exact Yields.bind (Yields.emit trivial) fun _ _ => Yields.pure trivial
  | field r f =>
    simp only [Lower.expr]
    refine Yields.bind Yields.emitter fun _ _ => ?_
    refine Yields.bind (Yields.orFail _) fun p hp => ?_
    refine Yields.bind (Yields.orFail _) fun found _ => ?_
    obtain ⟨recordName, ft⟩ := found
    refine Yields.bind (loadPlace_yields cx (place_refers cx hp)) fun _ _ => ?_
    refine Yields.bind (Yields.kind cx ft) fun _ _ => ?_
    exact Yields.bind (Yields.emit trivial) fun _ _ => Yields.pure trivial
  | call n args =>
    simp only [Lower.expr]
    -- the arguments are pushed with the kinds of the callee's parameters
    refine Yields.bind (callee_yields cx n args) fun sig hsig => ?_
    refine Yields.bind (arguments_yields args sig.params) fun ks hks => ?_
    refine Yields.bind (finishCall_yields cx hsig.1 (hks hsig.2.symm)) fun t _ => ?_
    split
    · exact Yields.throw_bind _ _
    · exact Yields.pure trivial
  | cast e target =>
    simp only [Lower.expr]
    refine Yields.bind (expr_yields e) fun _ _ => ?_
    refine Yields.bind (Yields.resolve cx target) fun _ _ => ?_
    split
    · exact Yields.bind (applyCoercion_yields cx _) fun _ _ => Yields.pure trivial
    · exact Yields.throw _

/-- Pushing call arguments only appends instructions that refer to the context, and with as
many arguments as parameters gives the kinds of the parameters. -/
theorem arguments_yields : ∀ (args : List Expr) (ps : List Ty),
    Yields (Refers cx) (arguments cx args ps)
      (fun ks => args.length = ps.length → List.Forall₂ (KindOf cx.env) ps ks) := by
  intro args ps
  cases args with
  | nil =>
    cases ps with
    | nil => exact Yields.pure fun _ => .nil
    | cons p ps => exact Yields.pure fun h => absurd h (by simp)
  | cons a as =>
    cases ps with
    | nil => exact Yields.pure fun h => absurd h (by simp)
    | cons p ps =>
      simp only [Lower.arguments]
      refine Yields.bind (Yields.resolve cx p) fun pt hpt => ?_
      refine Yields.bind (expr_yields a) fun actual _ => ?_
      refine Yields.bind (coerce_yields cx pt actual) fun _ _ => ?_
      refine Yields.bind (Yields.kind cx pt) fun k hk => ?_
      refine Yields.bind (arguments_yields as ps) fun rest hrest => ?_
      exact Yields.pure fun hlen => .cons ⟨pt, hpt, hk⟩ (hrest (by simpa using hlen))

end

theorem initialValue_yields (ty : Ty) (i : Option Expr) :
    Yields (Refers cx) (initialValue cx ty i) (fun _ => True) := by
  cases i with
  | some e =>
    simp only [Lower.initialValue]
    exact Yields.bind (expr_yields cx e) fun actual _ => coerce_yields cx ty actual
  | none => exact newValue_yields cx ty

theorem assignment_yields (t : Target) (v : Expr) :
    Yields (Refers cx) (assignment cx t v) (fun _ => True) := by
  cases t with
  | var n =>
    simp only [Lower.assignment]
    refine Yields.bind Yields.emitter fun _ _ => ?_
    refine Yields.bind (Yields.orFail _) fun p hp => ?_
    refine Yields.bind (expr_yields cx v) fun actual _ => ?_
    refine Yields.bind (coerce_yields cx _ actual) fun _ _ => ?_
    exact storePlace_yields cx (place_refers cx hp)
  | element a i =>
    simp only [Lower.assignment]
    refine Yields.bind Yields.emitter fun _ _ => ?_
    refine Yields.bind (Yields.orFail _) fun p hp => ?_
    refine Yields.bind (Yields.orFail _) fun element _ => ?_
    refine Yields.bind (loadPlace_yields cx (place_refers cx hp)) fun _ _ => ?_
    refine Yields.bind (expr_yields cx i) fun _ _ => ?_
    refine Yields.bind (expr_yields cx v) fun actual _ => ?_
    refine Yields.bind (coerce_yields cx element actual) fun _ _ => ?_
    refine Yields.bind (Yields.kind cx element) fun _ _ => ?_
    exact Yields.emit trivial
  | field r f =>
    simp only [Lower.assignment]
    refine Yields.bind Yields.emitter fun _ _ => ?_
    refine Yields.bind (Yields.orFail _) fun p hp => ?_
    refine Yields.bind (Yields.orFail _) fun found _ => ?_
    obtain ⟨recordName, ft⟩ := found
    refine Yields.bind (loadPlace_yields cx (place_refers cx hp)) fun _ _ => ?_
    refine Yields.bind (expr_yields cx v) fun actual _ => ?_
    refine Yields.bind (coerce_yields cx ft actual) fun _ _ => ?_
    refine Yields.bind (Yields.kind cx ft) fun _ _ => ?_
    exact Yields.emit trivial

theorem nested_yields {α : Type} (name : String) {R : α → Prop} :
    Yields (Refers cx) (nested name) R :=
  Yields.bind Yields.emitter fun _ _ => Yields.throw _

mutual

/-- Lowering a statement only appends instructions that refer to the context. -/
theorem stmt_yields : ∀ st : Stmt, Yields (Refers cx) (stmt cx st) (fun _ => True) := by
  intro st
  cases st with
  | varDecl n t i =>
    simp only [Lower.stmt]
    refine Yields.bind (Yields.orFail _) fun ty _ => ?_
    refine Yields.bind (Yields.kind cx ty) fun _ _ => ?_
    refine Yields.bind (initialValue_yields cx ty i) fun _ _ => ?_
    refine Yields.bind (Yields.declareLocal _ _ _ _) fun _ _ => ?_
    exact Yields.emit trivial
  | arrayDecl n e size =>
    simp only [Lower.stmt]
    refine Yields.bind (Yields.resolve cx _) fun ty _ => ?_
    refine Yields.bind (Yields.kind cx ty) fun _ _ => ?_
    refine Yields.bind (newValue_yields cx ty) fun _ _ => ?_
    refine Yields.bind (Yields.declareLocal _ _ _ _) fun _ _ => ?_
    exact Yields.emit trivial
  | assign t v =>
    simp only [Lower.stmt]
    exact assignment_yields cx t v
  | ifThen c t e =>
    simp only [Lower.stmt]
    refine Yields.bind Yields.newLabel fun _ _ => ?_
    refine Yields.bind Yields.newLabel fun _ _ => ?_
    refine Yields.bind (expr_yields cx c) fun _ _ => ?_
    refine Yields.bind (Yields.emit trivial) fun _ _ => ?_
    refine Yields.bind Yields.enterScope fun _ _ => ?_
    refine Yields.bind (stmts_yields t) fun _ _ => ?_
    refine Yields.bind Yields.exitScope fun _ _ => ?_
    -- the jump over the else branch is left out when the then branch returns
    refine Yields.optional_then (Yields.emit trivial) ?_
    refine Yields.bind (Yields.emit trivial) fun _ _ => ?_
    refine Yields.bind Yields.enterScope fun _ _ => ?_
    refine Yields.bind (stmts_yields e) fun _ _ => ?_
    refine Yields.bind Yields.exitScope fun _ _ => ?_
    split
    · exact Yields.emit trivial
    · exact Yields.pure trivial
  | whileDo c b =>
    simp only [Lower.stmt]
    refine Yields.bind Yields.newLabel fun _ _ => ?_
    refine Yields.bind Yields.newLabel fun _ _ => ?_
    refine Yields.bind (Yields.emit trivial) fun _ _ => ?_
    refine Yields.bind (expr_yields cx c) fun _ _ => ?_
    refine Yields.bind (Yields.emit trivial) fun _ _ => ?_
    refine Yields.bind Yields.enterScope fun _ _ => ?_
    refine Yields.bind (stmts_yields b) fun _ _ => ?_
    refine Yields.bind Yields.exitScope fun _ _ => ?_
    refine Yields.bind (Yields.emit trivial) fun _ _ => ?_
    exact Yields.emit trivial
  | forRange v start stop reverse b =>
    simp only [Lower.stmt]
    refine Yields.bind (expr_yields cx start) fun _ _ => ?_
    refine Yields.bind Yields.enterScope fun _ _ => ?_
    refine Yields.bind (Yields.declareLocal _ _ _ _) fun _ _ => ?_
    refine Yields.bind (Yields.emit trivial) fun _ _ => ?_
    refine Yields.bind Yields.newLabel fun _ _ => ?_
    refine Yields.bind Yields.newLabel fun _ _ => ?_
    refine Yields.bind (Yields.emit trivial) fun _ _ => ?_
    refine Yields.bind (Yields.emit trivial) fun _ _ => ?_
    refine Yields.bind (expr_yields cx stop) fun _ _ => ?_
    refine Yields.bind (Yields.emit trivial) fun _ _ => ?_
    refine Yields.bind (stmts_yields b) fun _ _ => ?_
    refine Yields.bind (Yields.emit trivial) fun _ _ => ?_
    refine Yields.bind (Yields.emit trivial) fun _ _ => ?_
    refine Yields.bind (Yields.emit trivial) fun _ _ => ?_
    refine Yields.bind (Yields.emit trivial) fun _ _ => ?_
    refine Yields.bind (Yields.emit trivial) fun _ _ => ?_
    refine Yields.bind (Yields.emit trivial) fun _ _ => ?_
    exact Yields.exitScope
  | call n args =>
    simp only [Lower.stmt]
    refine Yields.bind (callee_yields cx n args) fun sig hsig => ?_
    refine Yields.bind (arguments_yields cx args sig.params) fun ks hks => ?_
    refine Yields.bind (finishCall_yields cx hsig.1 (hks hsig.2.symm)) fun t _ => ?_
    split
    · exact Yields.bind (Yields.kind cx t) fun _ _ => Yields.emit trivial
    · exact Yields.pure trivial
  | ret v =>
    cases v with
    | some e =>
      simp only [Lower.stmt]
      refine Yields.bind Yields.emitter fun em _ => ?_
      refine Yields.bind (expr_yields cx e) fun actual _ => ?_
      refine Yields.bind (coerce_yields cx _ actual) fun _ _ => ?_
      refine Yields.bind (Yields.kind cx _) fun _ _ => ?_
      exact Yields.emit trivial
    | none =>
      simp only [Lower.stmt]
      exact Yields.emit trivial
  | print e =>
    simp only [Lower.stmt]
    refine Yields.bind (expr_yields cx e) fun t _ => ?_
    refine Yields.bind (Yields.kind cx t) fun _ _ => ?_
    exact Yields.emit trivial
  | routine n _ _ _ => exact nested_yields cx n
  | recordType n _ => exact nested_yields cx n
  | typeAlias n _ => exact nested_yields cx n

/-- Lowering statements in order only appends instructions that refer to the context. -/
theorem stmts_yields : ∀ ss : List Stmt, Yields (Refers cx) (stmts cx ss) (fun _ => True) := by
  intro ss
  cases ss with
  | nil => exact Yields.pure trivial
  | cons st rest =>
    simp only [Lower.stmts]
    exact Yields.bind (stmt_yields st) fun _ _ => stmts_yields rest

end

/-! ## Lowered routines -/

/-- A lowered routine has the name of its declaration, the kinds of its parameter types and of
its return type, and code that refers only to the context. -/
theorem routine_sat (n : String) (ps : List Param) (r : Option Ty) (b : List Stmt)
    (s : LowerState) :
    LSat (routine cx n ps r b) s (fun rc _ => rc.name = n ∧
      List.Forall₂ (KindOf cx.env) (ps.map (·.ty)) rc.params ∧
      KindOf cx.env (returnTypeOrVoid r) rc.ret ∧ ∀ i ∈ rc.code, Refers cx i) := by
  unfold routine
  rw [lsat_bind]
  refine ((Yields.note _ _ : Yields (Refers cx) _ _) s).mono fun _ s₁ _ => ?_
  rw [lsat_bind]
  refine ((Yields.resolve cx _ : Yields (Refers cx) _ _) s₁).mono fun rt s₂ h₂ => ?_
  rw [lsat_bind]
  refine ((Yields.kind cx rt : Yields (Refers cx) _ _) s₂).mono fun rk s₃ h₃ => ?_
  rw [lsat_bind]
  refine (lsat_modify _).mpr ?_
  -- the routine's own code starts empty, under its name
  generalize hs₄ : { s₃ with em := Emitter.start n rt } = s₄
  have empty : s₄.em.code = #[] := by rw [← hs₄]; rfl
  have named : s₄.em.name = n := by rw [← hs₄]; rfl
  dsimp only
  rw [lsat_bind]
  -- each parameter adds the kind of its type
  refine (lsat_forIn (fun done kinds s' => Extends (Refers cx) s₄ s' ∧
      List.Forall₂ (KindOf cx.env) (done.map (·.ty)) kinds.toList) ⟨Extends.refl s₄, .nil⟩
      ?_).mono fun kinds s₅ h₅ => ?_
  · intro done p rest kinds s₆ _ hI
    rw [lsat_bind]
    refine ((Yields.resolve cx _ : Yields (Refers cx) _ _) s₆).mono fun t s₇ ht => ?_
    rw [lsat_bind]
    refine ((Yields.kind cx t : Yields (Refers cx) _ _) s₇).mono fun k s₈ hk => ?_
    rw [lsat_bind]
    refine ((Yields.declareParam _ _ _ : Yields (Refers cx) _ _) s₈).mono fun _ s₉ h₉ => ?_
    rw [lsat_pure]
    refine ⟨_, rfl, hI.1.trans (ht.1.trans (hk.1.trans h₉.1)), ?_⟩
    rw [Array.toList_push, List.map_append]
    exact List.rel_append hI.2 (.cons ⟨t, ht.2, hk.2⟩ .nil)
  · refine (finish_after (stmts_yields cx b) (by exact Yields.emit trivial) _ _ s₅).mono
      fun rc _ hrc => ?_
    obtain ⟨s', e, hname, hparams, hret, hcode⟩ := hrc
    refine ⟨?_, hparams ▸ h₅.2, hret ▸ ⟨rt, h₂.2, h₃.2⟩, ?_⟩
    · rw [hname, e.name, h₅.1.name, named]
    · exact Finished.code_of_empty ⟨s', h₅.1.trans e, hname, hparams, hret, hcode⟩ empty

/-- The initializer, when there is one, has code that refers only to the context. -/
theorem initializer_sat (ss : List Stmt) (s : LowerState) :
    LSat (initializer cx ss) s (fun o _ => ∀ rc ∈ o, ∀ i ∈ rc.code, Refers cx i) := by
  unfold initializer
  rw [lsat_bind]
  refine (lsat_modify _).mpr ?_
  generalize hs₁ : ({ s with em := Emitter.start "initializer" .void } : LowerState) = s₁
  have empty : s₁.em.code = #[] := by rw [← hs₁]; rfl
  rw [lsat_bind]
  refine ((Yields.forIn fun st _ _ => ?_ : Yields (Refers cx) _ _) s₁).mono fun _ s₂ h₂ => ?_
  · split
    · exact Yields.bind (Yields.orFail _) fun p hp => Yields.bind (initialValue_yields cx _ _)
        fun _ _ => Yields.bind (storePlace_yields cx (global_refers cx hp)) fun _ _ =>
          Yields.pure ⟨_, rfl⟩
    · exact Yields.bind (Yields.orFail _) fun p hp => Yields.bind (newValue_yields cx _)
        fun _ _ => Yields.bind (storePlace_yields cx (global_refers cx hp)) fun _ _ =>
          Yields.pure ⟨_, rfl⟩
    · exact Yields.pure ⟨_, rfl⟩
    · exact Yields.pure ⟨_, rfl⟩
    · exact Yields.pure ⟨_, rfl⟩
    · exact Yields.bind (stmt_yields cx _) fun _ _ => Yields.pure ⟨_, rfl⟩
  · rw [lsat_bind]
    refine ((Yields.emitter : Yields (Refers cx) _ _) s₂).mono fun _ s₃ h₃ => ?_
    split
    · exact (lsat_pure _).mpr fun _ h => by cases h
    · rw [lsat_bind]
      refine ((Yields.note _ _ : Yields (Refers cx) _ _) s₃).mono fun _ s₄ h₄ => ?_
      rw [lsat_bind]
      refine ((Yields.emit trivial : Yields (Refers cx) (emit (.ret .void)) _) s₄).mono
        fun _ s₅ h₅ => ?_
      rw [lsat_bind, lsat_finish, lsat_pure]
      intro rc hrc
      cases hrc
      exact (h₂.1.trans (h₃.1.trans (h₄.1.trans h₅.1))).code_of_empty empty

end Yields

end Lower

end ImpStack
