import ImpStack.Proofs.References
import ImpStack.Proofs.Judgment

/-! # Returns in lowered code

    A routine's code returns with `ret k`, where `k` should be the kind of the routine's result,
    and it should never run off its end. Lowering emits a return in three places: for
    `return e`, with the kind of the routine's return type; for `return` without a value, as a
    void return; and after the body of a void routine that does not end in a return. Expressions
    emit none.

    So every return of a routine gives its result kind as soon as a routine with a result has no
    `return` without a value (`stmts_returnsIn`), and a block that ends in a return on every
    path (`endsWithReturn`) is lowered to code whose last instruction is a return
    (`stmts_end_in_return`): control cannot fall out of it. A routine's code therefore ends in
    a return of its result kind when its body does or when it is void (`routine_returns`);
    `lowerProgram_returns` says so of every routine and initializer of a module, for programs
    whose routines with a result end in a return and hold no `return` without a value
    (`ReturnsChecked`). That the analyzer's programs are such is the subject of the next module.
-/

namespace ImpStack

/-! ## Returns without a value -/

mutual

/-- Whether a statement holds a `return` without a value, in its nested blocks too. A routine
declaration is not looked into: lowering refuses one inside a routine or a block. -/
def Stmt.returnsBare : Stmt → Bool
  | .ret none => true
  | .ifThen _ t e => Stmt.blockReturnsBare t || Stmt.blockReturnsBare e
  | .whileDo _ b => Stmt.blockReturnsBare b
  | .forRange _ _ _ _ b => Stmt.blockReturnsBare b
  | _ => false

/-- Whether a block holds a `return` without a value. -/
def Stmt.blockReturnsBare : List Stmt → Bool
  | [] => false
  | s :: rest => s.returnsBare || Stmt.blockReturnsBare rest

end

/-- Every routine that `ss` declares with a return type resolving in `env` to a type other than
void ends in a return on every path and holds no `return` without a value. -/
def ReturnsChecked (env : TypeEnv) (ss : List Stmt) : Prop :=
  ∀ n ps r b, Stmt.routine n ps r b ∈ ss → ∀ R, (returnTypeOrVoid r).resolveDeep env = .ok R →
    R.isVoid = false → Stmt.blockReturnsBare b = false ∧ endsWithReturn b = true

/-- A return of kind `k`, or an instruction that does not return. -/
def Instr.ReturnsAs (k : ValueKind) : Instr → Prop
  | .ret k' => k' = k
  | _ => True

namespace Lower

/-! ## Expressions return nowhere -/

section Expressions

variable (cx : LowerCtx) {k : ValueKind}

theorem loadPlace_returns (p : Place) :
    Yields (Instr.ReturnsAs k) (loadPlace p) (fun _ => True) := by
  cases p <;> exact Yields.emit trivial

theorem storePlace_returns (p : Place) :
    Yields (Instr.ReturnsAs k) (storePlace p) (fun _ => True) := by
  cases p <;> exact Yields.emit trivial

theorem boolSelect_returns (c : Condition) :
    Yields (Instr.ReturnsAs k) (boolSelect c) (fun _ => True) := by
  unfold boolSelect
  refine Yields.bind Yields.newLabel fun _ _ => ?_
  refine Yields.bind Yields.newLabel fun _ _ => ?_
  refine Yields.bind (Yields.emit trivial) fun _ _ => ?_
  refine Yields.bind (Yields.emit trivial) fun _ _ => ?_
  refine Yields.bind (Yields.emit trivial) fun _ _ => ?_
  refine Yields.bind (Yields.emit trivial) fun _ _ => ?_
  refine Yields.bind (Yields.emit trivial) fun _ _ => ?_
  exact Yields.emit trivial

theorem applyCoercion_returns (c : Coercion) :
    Yields (Instr.ReturnsAs k) (applyCoercion c) (fun _ => True) := by
  cases c with
  | identity | boolToInt => exact Yields.pure trivial
  | intToReal | boolToReal | realToInt => exact Yields.emit trivial
  | intToBool => exact boolSelect_returns _
  | realToBool => exact Yields.bind (Yields.emit trivial) fun _ _ => boolSelect_returns _

theorem indexLoop_returns (alignWide : Bool) (size : Int) {body : Nat → LowerM Unit}
    (hb : ∀ n, Yields (Instr.ReturnsAs k) (body n) (fun _ => True)) :
    Yields (Instr.ReturnsAs k) (indexLoop alignWide size body) (fun _ => True) := by
  unfold indexLoop
  refine Yields.bind (Yields.allocate _ _) fun _ _ => ?_
  refine Yields.bind Yields.newLabel fun _ _ => ?_
  refine Yields.bind Yields.newLabel fun _ _ => ?_
  refine Yields.bind (Yields.emit trivial) fun _ _ => ?_
  refine Yields.bind (Yields.emit trivial) fun _ _ => ?_
  refine Yields.bind (Yields.emit trivial) fun _ _ => ?_
  refine Yields.bind (Yields.emit trivial) fun _ _ => ?_
  refine Yields.bind (Yields.emit trivial) fun _ _ => ?_
  refine Yields.bind (Yields.emit trivial) fun _ _ => ?_
  refine Yields.bind (hb _) fun _ _ => ?_
  refine Yields.bind (Yields.emit trivial) fun _ _ => ?_
  refine Yields.bind (Yields.emit trivial) fun _ _ => ?_
  refine Yields.bind (Yields.emit trivial) fun _ _ => ?_
  refine Yields.bind (Yields.emit trivial) fun _ _ => ?_
  refine Yields.bind (Yields.emit trivial) fun _ _ => ?_
  exact Yields.emit trivial

theorem coerce_returns (expected actual : Ty) :
    Yields (Instr.ReturnsAs k) (coerce cx expected actual) (fun _ => True) := by
  fun_induction coerce cx expected actual with
  | case1 dst size src _ _ ih =>
    refine Yields.bind (Yields.kind _ _) fun _ _ => ?_
    refine Yields.bind (Yields.kind _ _) fun _ _ => ?_
    refine Yields.bind (Yields.kind _ _) fun _ _ => ?_
    refine Yields.bind (Yields.note _ _) fun _ _ => ?_
    refine Yields.bind (Yields.allocate _ _) fun _ _ => ?_
    refine Yields.bind (Yields.emit trivial) fun _ _ => ?_
    refine Yields.bind (Yields.emit trivial) fun _ _ => ?_
    refine Yields.bind (Yields.emit trivial) fun _ _ => ?_
    refine indexLoop_returns _ _ fun _ => ?_
    refine Yields.bind (Yields.emit trivial) fun _ _ => ?_
    refine Yields.bind (Yields.emit trivial) fun _ _ => ?_
    refine Yields.bind (Yields.emit trivial) fun _ _ => ?_
    refine Yields.bind (Yields.emit trivial) fun _ _ => ?_
    refine Yields.bind (Yields.emit trivial) fun _ _ => ?_
    exact Yields.bind ih fun _ _ => Yields.emit trivial
  | case2 => exact Yields.pure trivial
  | case3 => exact applyCoercion_returns _

theorem freshValue_returns (fuel : Nat) (t : Ty) :
    Yields (Instr.ReturnsAs k) (freshValue cx fuel t) (fun _ => True) := by
  fun_induction freshValue cx fuel t with
  | case1 => exact Yields.throw _
  | case2 fuel t ih =>
    refine Yields.bind (Yields.resolve cx t) fun r _ => ?_
    split
    · exact Yields.emit trivial
    · exact Yields.emit trivial
    · exact Yields.emit trivial
    · exact Yields.emit trivial
    · exact Yields.throw _
    · refine Yields.bind (Yields.emit trivial) fun _ _ => ?_
      refine Yields.bind (Yields.forIn fun field _ _ => ?_) fun _ _ => Yields.pure trivial
      refine Yields.bind (Yields.resolve cx _) fun ft _ => ?_
      split
      · refine Yields.bind (Yields.kind cx ft) fun _ _ => ?_
        refine Yields.bind (Yields.emit trivial) fun _ _ => ?_
        refine Yields.bind (ih ft) fun _ _ => ?_
        refine Yields.bind (Yields.emit trivial) fun _ _ => ?_
        exact Yields.pure ⟨_, rfl⟩
      · exact Yields.pure ⟨_, rfl⟩
    · refine Yields.bind (Yields.kind cx _) fun _ _ => ?_
      refine Yields.bind (Yields.emit trivial) fun _ _ => ?_
      refine Yields.bind (Yields.emit trivial) fun _ _ => ?_
      split
      · refine indexLoop_returns _ _ fun _ => ?_
        refine Yields.bind (Yields.emit trivial) fun _ _ => ?_
        refine Yields.bind (Yields.emit trivial) fun _ _ => ?_
        exact Yields.bind (ih _) fun _ _ => Yields.emit trivial
      · exact Yields.pure trivial
    · exact Yields.throw _

theorem newValue_returns (t : Ty) : Yields (Instr.ReturnsAs k) (newValue cx t) (fun _ => True) :=
  freshValue_returns cx _ t

theorem callee_returns (n : String) (args : List Expr) :
    Yields (Instr.ReturnsAs k) (callee cx n args) (fun _ => True) := by
  unfold callee
  split
  · exact Yields.throw _
  · dsimp only
    split
    · exact Yields.throw_bind _ _
    · exact Yields.pure trivial

theorem finishCall_returns (n : String) (sig : RoutineSig) (ks : List ValueKind) :
    Yields (Instr.ReturnsAs k) (finishCall cx n sig ks) (fun _ => True) := by
  unfold finishCall
  refine Yields.bind (Yields.resolve cx _) fun _ _ => ?_
  refine Yields.bind (Yields.kind cx _) fun _ _ => ?_
  exact Yields.bind (Yields.emit trivial) fun _ _ => Yields.pure trivial

mutual

/-- Lowering an expression emits no return. -/
theorem expr_returns : ∀ e : Expr, Yields (Instr.ReturnsAs k) (expr cx e) (fun _ => True) := by
  intro e
  cases e with
  | int v | real v | bool v | str v =>
    simp only [Lower.expr]
    exact Yields.bind (Yields.emit trivial) fun _ _ => Yields.pure trivial
  | var n =>
    simp only [Lower.expr]
    refine Yields.bind Yields.emitter fun _ _ => ?_
    refine Yields.bind (Yields.orFail _) fun p _ => ?_
    exact Yields.bind (loadPlace_returns p) fun _ _ => Yields.pure trivial
  | binary l op r =>
    simp only [Lower.expr]
    cases op with
    | and | or =>
      refine Yields.bind Yields.newLabel fun _ _ => ?_
      refine Yields.bind Yields.newLabel fun _ _ => ?_
      refine Yields.bind (expr_returns l) fun _ _ => ?_
      refine Yields.bind (Yields.emit trivial) fun _ _ => ?_
      refine Yields.bind (expr_returns r) fun _ _ => ?_
      refine Yields.bind (Yields.emit trivial) fun _ _ => ?_
      refine Yields.bind (Yields.emit trivial) fun _ _ => ?_
      refine Yields.bind (Yields.emit trivial) fun _ _ => ?_
      refine Yields.bind (Yields.emit trivial) fun _ _ => ?_
      refine Yields.bind (Yields.emit trivial) fun _ _ => ?_
      refine Yields.bind (Yields.emit trivial) fun _ _ => ?_
      exact Yields.pure trivial
    | xor =>
      refine Yields.bind (expr_returns l) fun _ _ => ?_
      refine Yields.bind (expr_returns r) fun _ _ => ?_
      exact Yields.bind (Yields.emit trivial) fun _ _ => Yields.pure trivial
    | lt | le | gt | ge | eq | ne =>
      refine Yields.bind Yields.emitter fun _ _ => ?_
      refine Yields.bind (Yields.orFail _) fun rt _ => ?_
      refine Yields.bind (expr_returns l) fun lt _ => ?_
      split
      · refine Yields.bind (Yields.pure_true _) fun operand _ => ?_
        refine Yields.bind (coerce_returns cx operand lt) fun _ _ => ?_
        refine Yields.bind (expr_returns r) fun _ _ => ?_
        refine Yields.bind (coerce_returns cx operand rt) fun _ _ => ?_
        refine Yields.bind Yields.newLabel fun _ _ => ?_
        refine Yields.bind Yields.newLabel fun _ _ => ?_
        refine Yields.bind (Yields.kind cx operand) fun _ _ => ?_
        refine Yields.bind (Yields.emit trivial) fun _ _ => ?_
        refine Yields.bind (Yields.emit trivial) fun _ _ => ?_
        refine Yields.bind (Yields.emit trivial) fun _ _ => ?_
        refine Yields.bind (Yields.emit trivial) fun _ _ => ?_
        refine Yields.bind (Yields.emit trivial) fun _ _ => ?_
        refine Yields.bind (Yields.emit trivial) fun _ _ => ?_
        exact Yields.pure trivial
      · exact Yields.throw_bind _ _
    | add | sub | mul | div | mod =>
      refine Yields.bind Yields.emitter fun _ _ => ?_
      refine Yields.bind (Yields.orFail _) fun rt _ => ?_
      refine Yields.bind (expr_returns l) fun lt _ => ?_
      split
      · refine Yields.bind (Yields.pure_true _) fun result _ => ?_
        refine Yields.bind (coerce_returns cx result lt) fun _ _ => ?_
        refine Yields.bind (expr_returns r) fun _ _ => ?_
        refine Yields.bind (coerce_returns cx result rt) fun _ _ => ?_
        refine Yields.bind (Yields.kind cx result) fun _ _ => ?_
        exact Yields.bind (Yields.emit trivial) fun _ _ => Yields.pure trivial
      · exact Yields.throw_bind _ _
  | unary op e =>
    cases op with
    | not =>
      simp only [Lower.expr]
      refine Yields.bind (expr_returns e) fun _ _ => ?_
      exact Yields.bind (boolSelect_returns _) fun _ _ => Yields.pure trivial
    | neg =>
      simp only [Lower.expr]
      refine Yields.bind (expr_returns e) fun t _ => ?_
      refine Yields.bind (Yields.kind cx t) fun _ _ => ?_
      exact Yields.bind (Yields.emit trivial) fun _ _ => Yields.pure trivial
  | index a i =>
    simp only [Lower.expr]
    refine Yields.bind Yields.emitter fun _ _ => ?_
    refine Yields.bind (Yields.orFail _) fun p _ => ?_
    refine Yields.bind (Yields.orFail _) fun element _ => ?_
    refine Yields.bind (loadPlace_returns p) fun _ _ => ?_
    refine Yields.bind (expr_returns i) fun _ _ => ?_
    refine Yields.bind (Yields.kind cx element) fun _ _ => ?_
    exact Yields.bind (Yields.emit trivial) fun _ _ => Yields.pure trivial
  | field r f =>
    simp only [Lower.expr]
    refine Yields.bind Yields.emitter fun _ _ => ?_
    refine Yields.bind (Yields.orFail _) fun p _ => ?_
    refine Yields.bind (Yields.orFail _) fun found _ => ?_
    obtain ⟨recordName, ft⟩ := found
    refine Yields.bind (loadPlace_returns p) fun _ _ => ?_
    refine Yields.bind (Yields.kind cx ft) fun _ _ => ?_
    exact Yields.bind (Yields.emit trivial) fun _ _ => Yields.pure trivial
  | call n args =>
    simp only [Lower.expr]
    refine Yields.bind (callee_returns cx n args) fun sig _ => ?_
    refine Yields.bind (arguments_returns args sig.params) fun ks _ => ?_
    refine Yields.bind (finishCall_returns cx n sig ks) fun t _ => ?_
    split
    · exact Yields.throw_bind _ _
    · exact Yields.pure trivial
  | cast e target =>
    simp only [Lower.expr]
    refine Yields.bind (expr_returns e) fun _ _ => ?_
    refine Yields.bind (Yields.resolve cx target) fun _ _ => ?_
    split
    · exact Yields.bind (applyCoercion_returns _) fun _ _ => Yields.pure trivial
    · exact Yields.throw _

/-- Pushing call arguments emits no return. -/
theorem arguments_returns : ∀ (args : List Expr) (ps : List Ty),
    Yields (Instr.ReturnsAs k) (arguments cx args ps) (fun _ => True) := by
  intro args ps
  cases args with
  | nil => exact Yields.pure trivial
  | cons a as =>
    cases ps with
    | nil => exact Yields.pure trivial
    | cons p ps =>
      simp only [Lower.arguments]
      refine Yields.bind (Yields.resolve cx p) fun pt _ => ?_
      refine Yields.bind (expr_returns a) fun actual _ => ?_
      refine Yields.bind (coerce_returns cx pt actual) fun _ _ => ?_
      refine Yields.bind (Yields.kind cx pt) fun _ _ => ?_
      refine Yields.bind (arguments_returns as ps) fun _ _ => ?_
      exact Yields.pure trivial

end

theorem initialValue_returns (ty : Ty) (i : Option Expr) :
    Yields (Instr.ReturnsAs k) (initialValue cx ty i) (fun _ => True) := by
  cases i with
  | some e =>
    simp only [Lower.initialValue]
    exact Yields.bind (expr_returns cx e) fun actual _ => coerce_returns cx ty actual
  | none => exact newValue_returns cx ty

theorem assignment_returns (t : Target) (v : Expr) :
    Yields (Instr.ReturnsAs k) (assignment cx t v) (fun _ => True) := by
  cases t with
  | var n =>
    simp only [Lower.assignment]
    refine Yields.bind Yields.emitter fun _ _ => ?_
    refine Yields.bind (Yields.orFail _) fun p _ => ?_
    refine Yields.bind (expr_returns cx v) fun actual _ => ?_
    refine Yields.bind (coerce_returns cx _ actual) fun _ _ => ?_
    exact storePlace_returns p
  | element a i =>
    simp only [Lower.assignment]
    refine Yields.bind Yields.emitter fun _ _ => ?_
    refine Yields.bind (Yields.orFail _) fun p _ => ?_
    refine Yields.bind (Yields.orFail _) fun element _ => ?_
    refine Yields.bind (loadPlace_returns p) fun _ _ => ?_
    refine Yields.bind (expr_returns cx i) fun _ _ => ?_
    refine Yields.bind (expr_returns cx v) fun actual _ => ?_
    refine Yields.bind (coerce_returns cx element actual) fun _ _ => ?_
    refine Yields.bind (Yields.kind cx element) fun _ _ => ?_
    exact Yields.emit trivial
  | field r f =>
    simp only [Lower.assignment]
    refine Yields.bind Yields.emitter fun _ _ => ?_
    refine Yields.bind (Yields.orFail _) fun p _ => ?_
    refine Yields.bind (Yields.orFail _) fun found _ => ?_
    obtain ⟨recordName, ft⟩ := found
    refine Yields.bind (loadPlace_returns p) fun _ _ => ?_
    refine Yields.bind (expr_returns cx v) fun actual _ => ?_
    refine Yields.bind (coerce_returns cx ft actual) fun _ _ => ?_
    refine Yields.bind (Yields.kind cx ft) fun _ _ => ?_
    exact Yields.emit trivial

end Expressions

/-! ## Statements return with the routine's kind -/

/-- Every successful run of `m`, from a state lowering a routine whose return type has kind
`rk`, appends only returns of kind `rk` and gives a value of which `R` holds. -/
def ReturnsIn (cx : LowerCtx) (rk : ValueKind) {α : Type} (m : LowerM α) (R : α → Prop) : Prop :=
  ∀ s, ValueKind.of cx.env s.em.returnType = .ok rk →
    LSat m s (fun a s' => Extends (Instr.ReturnsAs rk) s s' ∧ R a)

namespace ReturnsIn

variable {cx : LowerCtx} {rk : ValueKind} {α β γ : Type} {R : α → Prop} {R' : β → Prop}

theorem of_yields {m : LowerM α} (h : Yields (Instr.ReturnsAs rk) m R) : ReturnsIn cx rk m R :=
  fun s _ => h s

/-- The routine being lowered stays the same along a step, so its return type does. -/
theorem bind {m : LowerM α} {f : α → LowerM β} (hm : ReturnsIn cx rk m R)
    (hf : ∀ a, R a → ReturnsIn cx rk (f a) R') : ReturnsIn cx rk (m >>= f) R' := by
  intro s hs
  rw [lsat_bind]
  refine (hm s hs).mono fun a s₁ h₁ => ?_
  refine (hf a h₁.2 s₁ (by rw [h₁.1.returnType]; exact hs)).mono fun _ _ h₂ => ?_
  exact ⟨h₁.1.trans h₂.1, h₂.2⟩

/-- A step that reads the emitter sees the routine's return type. -/
theorem emitter_bind {f : Emitter → LowerM β}
    (hf : ∀ em, ValueKind.of cx.env em.returnType = .ok rk → ReturnsIn cx rk (f em) R') :
    ReturnsIn cx rk (emitter >>= f) R' := by
  intro s hs
  unfold emitter
  rw [lsat_bind, lsat_bind, lsat_get, lsat_pure]
  exact hf s.em hs s hs

theorem optional_then {c : Prop} [Decidable c] {m : LowerM Unit} {k : LowerM β}
    (hm : ReturnsIn cx rk m (fun _ => True)) (hk : ReturnsIn cx rk k R') :
    ReturnsIn cx rk (if c then m >>= fun _ => k else k) R' := by
  split
  · exact bind hm fun _ _ => hk
  · exact hk

/-- A loop each of whose steps returns with `rk`, and goes on to the next element. -/
theorem forIn {xs : List γ} {init : β} {f : γ → β → LowerM (ForInStep β)}
    (hf : ∀ x ∈ xs, ∀ b, ReturnsIn cx rk (f x b) (fun r => ∃ b', r = .yield b')) :
    ReturnsIn cx rk (ForIn.forIn xs init f) (fun _ => True) := by
  intro s hs
  refine (lsat_forIn (fun _ _ s' => Extends (Instr.ReturnsAs rk) s s') (Extends.refl s)
    ?_).mono fun _ s' e => ⟨e, trivial⟩
  intro done x rest b s₁ hxs e₁
  have hx : x ∈ xs := by rw [hxs]; simp
  refine (hf x hx b s₁ (by rw [e₁.returnType]; exact hs)).mono fun r s₂ h => ?_
  exact ⟨h.2.choose, h.2.choose_spec, e₁.trans h.1⟩

end ReturnsIn

section Statements

variable (cx : LowerCtx) {rk : ValueKind}

theorem nested_returnsIn {α : Type} (name : String) :
    ReturnsIn cx rk (nested name : LowerM α) (fun _ => True) :=
  ReturnsIn.of_yields (Yields.bind Yields.emitter fun _ _ => Yields.throw _)

mutual

/-- In a routine whose return type has kind `rk`, lowering a statement emits returns of kind
`rk` only, as long as a `return` without a value can only be met when `rk` is void. -/
theorem stmt_returnsIn : ∀ st : Stmt, rk = .void ∨ st.returnsBare = false →
    ReturnsIn cx rk (stmt cx st) (fun _ => True) := by
  intro st h
  cases st with
  | varDecl n t i =>
    simp only [Lower.stmt]
    refine .of_yields (Yields.bind (Yields.orFail _) fun ty _ => ?_)
    refine Yields.bind (Yields.kind cx ty) fun _ _ => ?_
    refine Yields.bind (initialValue_returns cx ty i) fun _ _ => ?_
    refine Yields.bind (Yields.declareLocal _ _ _ _) fun _ _ => ?_
    exact Yields.emit trivial
  | arrayDecl n e size =>
    simp only [Lower.stmt]
    refine .of_yields (Yields.bind (Yields.resolve cx _) fun ty _ => ?_)
    refine Yields.bind (Yields.kind cx ty) fun _ _ => ?_
    refine Yields.bind (newValue_returns cx ty) fun _ _ => ?_
    refine Yields.bind (Yields.declareLocal _ _ _ _) fun _ _ => ?_
    exact Yields.emit trivial
  | assign t v =>
    simp only [Lower.stmt]
    exact .of_yields (assignment_returns cx t v)
  | ifThen c t e =>
    -- neither branch holds a bare return unless `rk` is void
    have ht : rk = .void ∨ Stmt.blockReturnsBare t = false := h.imp_right fun h => by
      simp only [Stmt.returnsBare, Bool.or_eq_false_iff] at h
      exact h.1
    have he : rk = .void ∨ Stmt.blockReturnsBare e = false := h.imp_right fun h => by
      simp only [Stmt.returnsBare, Bool.or_eq_false_iff] at h
      exact h.2
    simp only [Lower.stmt]
    refine .bind (.of_yields Yields.newLabel) fun _ _ => ?_
    refine .bind (.of_yields Yields.newLabel) fun _ _ => ?_
    refine .bind (.of_yields (expr_returns cx c)) fun _ _ => ?_
    refine .bind (.of_yields (Yields.emit trivial)) fun _ _ => ?_
    refine .bind (.of_yields Yields.enterScope) fun _ _ => ?_
    refine .bind (stmts_returnsIn t ht) fun _ _ => ?_
    refine .bind (.of_yields Yields.exitScope) fun _ _ => ?_
    refine .optional_then (.of_yields (Yields.emit trivial)) ?_
    refine .bind (.of_yields (Yields.emit trivial)) fun _ _ => ?_
    refine .bind (.of_yields Yields.enterScope) fun _ _ => ?_
    refine .bind (stmts_returnsIn e he) fun _ _ => ?_
    refine .bind (.of_yields Yields.exitScope) fun _ _ => ?_
    split
    · exact .of_yields (Yields.emit trivial)
    · exact .of_yields (Yields.pure trivial)
  | whileDo c b =>
    have hb : rk = .void ∨ Stmt.blockReturnsBare b = false := h
    simp only [Lower.stmt]
    refine .bind (.of_yields Yields.newLabel) fun _ _ => ?_
    refine .bind (.of_yields Yields.newLabel) fun _ _ => ?_
    refine .bind (.of_yields (Yields.emit trivial)) fun _ _ => ?_
    refine .bind (.of_yields (expr_returns cx c)) fun _ _ => ?_
    refine .bind (.of_yields (Yields.emit trivial)) fun _ _ => ?_
    refine .bind (.of_yields Yields.enterScope) fun _ _ => ?_
    refine .bind (stmts_returnsIn b hb) fun _ _ => ?_
    refine .bind (.of_yields Yields.exitScope) fun _ _ => ?_
    refine .bind (.of_yields (Yields.emit trivial)) fun _ _ => ?_
    exact .of_yields (Yields.emit trivial)
  | forRange v start stop reverse b =>
    have hb : rk = .void ∨ Stmt.blockReturnsBare b = false := h
    simp only [Lower.stmt]
    refine .bind (.of_yields (expr_returns cx start)) fun _ _ => ?_
    refine .bind (.of_yields Yields.enterScope) fun _ _ => ?_
    refine .bind (.of_yields (Yields.declareLocal _ _ _ _)) fun _ _ => ?_
    refine .bind (.of_yields (Yields.emit trivial)) fun _ _ => ?_
    refine .bind (.of_yields Yields.newLabel) fun _ _ => ?_
    refine .bind (.of_yields Yields.newLabel) fun _ _ => ?_
    refine .bind (.of_yields (Yields.emit trivial)) fun _ _ => ?_
    refine .bind (.of_yields (Yields.emit trivial)) fun _ _ => ?_
    refine .bind (.of_yields (expr_returns cx stop)) fun _ _ => ?_
    refine .bind (.of_yields (Yields.emit trivial)) fun _ _ => ?_
    refine .bind (stmts_returnsIn b hb) fun _ _ => ?_
    refine .of_yields (Yields.bind (Yields.emit trivial) fun _ _ => ?_)
    refine Yields.bind (Yields.emit trivial) fun _ _ => ?_
    refine Yields.bind (Yields.emit trivial) fun _ _ => ?_
    refine Yields.bind (Yields.emit trivial) fun _ _ => ?_
    refine Yields.bind (Yields.emit trivial) fun _ _ => ?_
    refine Yields.bind (Yields.emit trivial) fun _ _ => ?_
    exact Yields.exitScope
  | call n args =>
    simp only [Lower.stmt]
    refine .of_yields (Yields.bind (callee_returns cx n args) fun sig _ => ?_)
    refine Yields.bind (arguments_returns cx args sig.params) fun ks _ => ?_
    refine Yields.bind (finishCall_returns cx n sig ks) fun t _ => ?_
    split
    · exact Yields.bind (Yields.kind cx t) fun _ _ => Yields.emit trivial
    · exact Yields.pure trivial
  | ret v =>
    cases v with
    | some e =>
      -- the return's kind is the kind of the routine's return type
      simp only [Lower.stmt]
      refine .emitter_bind fun em hem => ?_
      refine .bind (.of_yields (expr_returns cx e)) fun actual _ => ?_
      refine .bind (.of_yields (coerce_returns cx _ actual)) fun _ _ => ?_
      refine .of_yields (Yields.bind (Yields.kind cx _) fun k hk => Yields.emit ?_)
      rw [hem] at hk
      exact (Except.ok.inj hk).symm
    | none =>
      -- a return without a value is met only when `rk` is void
      have hv : rk = .void := h.resolve_right (by simp [Stmt.returnsBare])
      simp only [Lower.stmt]
      exact .of_yields (Yields.emit hv.symm)
  | print e =>
    simp only [Lower.stmt]
    refine .of_yields (Yields.bind (expr_returns cx e) fun t _ => ?_)
    refine Yields.bind (Yields.kind cx t) fun _ _ => ?_
    exact Yields.emit trivial
  | routine n _ _ _ => exact nested_returnsIn cx n
  | recordType n _ => exact nested_returnsIn cx n
  | typeAlias n _ => exact nested_returnsIn cx n

/-- In a routine whose return type has kind `rk`, lowering statements emits returns of kind
`rk` only, as long as a `return` without a value can only be met when `rk` is void. -/
theorem stmts_returnsIn : ∀ ss : List Stmt, rk = .void ∨ Stmt.blockReturnsBare ss = false →
    ReturnsIn cx rk (stmts cx ss) (fun _ => True) := by
  intro ss h
  cases ss with
  | nil => exact .of_yields (Yields.pure trivial)
  | cons st rest =>
    have hst : rk = .void ∨ st.returnsBare = false := h.imp_right fun h => by
      simp only [Stmt.blockReturnsBare, Bool.or_eq_false_iff] at h
      exact h.1
    have hrest : rk = .void ∨ Stmt.blockReturnsBare rest = false := h.imp_right fun h => by
      simp only [Stmt.blockReturnsBare, Bool.or_eq_false_iff] at h
      exact h.2
    simp only [Lower.stmts]
    exact .bind (stmt_returnsIn st hst) fun _ _ => stmts_returnsIn rest hrest

end

end Statements

/-! ## Blocks that end in a return -/

/-- From `s` to `s'`, code was appended whose last instruction is a return. -/
def EndsInReturn (s s' : LowerState) : Prop :=
  ∃ new k, s'.em.code.toList = s.em.code.toList ++ new ∧ new.getLast? = some (.ret k)

namespace EndsInReturn

variable {Q : Instr → Prop} {s₁ s₂ s₃ : LowerState}

/-- Code appended before code that ends in a return. -/
theorem after (h₁ : Extends Q s₁ s₂) (h₂ : EndsInReturn s₂ s₃) : EndsInReturn s₁ s₃ := by
  obtain ⟨-, -, X, e₁, -⟩ := h₁
  obtain ⟨Y, k, e₂, last⟩ := h₂
  refine ⟨X ++ Y, k, by rw [e₂, e₁, List.append_assoc], ?_⟩
  rw [List.getLast?_append, last]
  rfl

/-- A step that leaves the code alone. -/
theorem of_code (h : EndsInReturn s₁ s₂) (hc : s₃.em.code = s₂.em.code) : EndsInReturn s₁ s₃ := by
  rw [EndsInReturn, hc]
  exact h

/-- A return emitted after appended code. -/
theorem ret (h : Extends Q s₁ s₂) (k : ValueKind) :
    EndsInReturn s₁ { s₂ with em := { s₂.em with code := s₂.em.code.push (.ret k) } } :=
  after h ⟨[.ret k], k, by simp, rfl⟩

/-- Appending a return of kind `rk` keeps every return of kind `rk`. -/
theorem ret_extends {s : LowerState} {rk : ValueKind} (h : rk = .void) :
    Extends (Instr.ReturnsAs rk) s
      { s with em := { s.em with code := s.em.code.push (.ret .void) } } :=
  ⟨rfl, rfl, [.ret .void], by simp, by simpa [Instr.ReturnsAs] using h.symm⟩

end EndsInReturn

/-- A step that appends code, taken after others that did, from `s₀` on. -/
theorem Yields.lsat_then {α β : Type} {Q : Instr → Prop} {m : LowerM α} {f : α → LowerM β}
    {R : α → Prop} {P : β → LowerState → Prop} {s₀ s : LowerState} (hm : Yields Q m R)
    (h₀ : Extends Q s₀ s) (hf : ∀ a s₁, Extends Q s₀ s₁ → R a → LSat (f a) s₁ P) :
    LSat (m >>= f) s P := by
  rw [lsat_bind]
  exact (hm s).mono fun a s₁ h₁ => hf a s₁ (h₀.trans h₁.1) h₁.2

section Ends

variable (cx : LowerCtx)

/-- A return statement is lowered to code that ends in a return. -/
theorem ret_ends (v : Option Expr) (s : LowerState) :
    LSat (stmt cx (.ret v)) s (fun _ s' => EndsInReturn s s') := by
  cases v with
  | some e =>
    simp only [Lower.stmt]
    refine Yields.lsat_then Yields.emitter (Extends.refl s : Extends (Refers cx) s s)
      fun em s₁ h₁ _ => ?_
    refine Yields.lsat_then (expr_yields cx e) h₁ fun actual s₂ h₂ _ => ?_
    refine Yields.lsat_then (coerce_yields cx _ actual) h₂ fun _ s₃ h₃ _ => ?_
    refine Yields.lsat_then (Yields.kind cx _) h₃ fun k s₄ h₄ _ => ?_
    exact (lsat_modify _).mpr (EndsInReturn.ret h₄ k)
  | none =>
    simp only [Lower.stmt]
    exact (lsat_modify _).mpr (EndsInReturn.ret (Extends.refl s : Extends (Refers cx) s s) _)

/-- An `if` both of whose branches end in a return is lowered to code that ends in the else
branch's return: the then branch jumps nowhere, and no end label follows. -/
theorem ifThen_ends (c : Expr) {t e : List Stmt} (ht : endsWithReturn t = true)
    (he : endsWithReturn e = true)
    (ihe : ∀ s, LSat (stmts cx e) s (fun _ s' => EndsInReturn s s')) (s : LowerState) :
    LSat (stmt cx (.ifThen c t e)) s (fun _ s' => EndsInReturn s s') := by
  simp only [Lower.stmt, ht, he, Bool.not_true, Bool.or_self, Bool.false_eq_true, ↓reduceIte]
  refine Yields.lsat_then Yields.newLabel (Extends.refl s : Extends (Refers cx) s s)
    fun _ s₁ h₁ _ => ?_
  refine Yields.lsat_then Yields.newLabel h₁ fun _ s₂ h₂ _ => ?_
  refine Yields.lsat_then (expr_yields cx c) h₂ fun _ s₃ h₃ _ => ?_
  refine Yields.lsat_then (Yields.emit trivial) h₃ fun _ s₄ h₄ _ => ?_
  refine Yields.lsat_then Yields.enterScope h₄ fun _ s₅ h₅ _ => ?_
  refine Yields.lsat_then (stmts_yields cx t) h₅ fun _ s₆ h₆ _ => ?_
  refine Yields.lsat_then Yields.exitScope h₆ fun _ s₇ h₇ _ => ?_
  refine Yields.lsat_then (Yields.emit trivial) h₇ fun _ s₈ h₈ _ => ?_
  refine Yields.lsat_then Yields.enterScope h₈ fun _ s₉ h₉ _ => ?_
  rw [lsat_bind]
  refine (ihe s₉).mono fun _ s₁₀ h₁₀ => ?_
  rw [lsat_bind]
  refine (lsat_modify _).mpr ?_
  exact (lsat_pure _).mpr (EndsInReturn.after h₉ (h₁₀.of_code rfl))

/-- A block that ends in a return on every path is lowered to code whose last instruction is a
return: control never falls out of the end of its code. -/
theorem stmts_end_in_return (ss : List Stmt) (h : endsWithReturn ss = true) (s : LowerState) :
    LSat (stmts cx ss) s (fun _ s' => EndsInReturn s s') := by
  fun_induction endsWithReturn ss generalizing s with
  | case1 => cases h
  | case2 v =>
    simp only [Lower.stmts]
    rw [lsat_bind]
    exact (ret_ends cx v s).mono fun _ _ h₁ => (lsat_pure _).mpr h₁
  | case3 c t e _ ihe =>
    simp only [Bool.and_eq_true] at h
    simp only [Lower.stmts]
    rw [lsat_bind]
    exact (ifThen_ends cx c h.1 h.2 (ihe h.2) s).mono fun _ _ h₁ => (lsat_pure _).mpr h₁
  | case4 => cases h
  | case5 st rest _ _ _ ih =>
    -- the last statements end in a return, after whatever the first one appends
    simp only [Lower.stmts]
    exact Yields.lsat_then (stmt_yields cx st) (Extends.refl s) fun _ s₁ h₁ _ =>
      (ih h s₁).mono fun _ _ h₂ => EndsInReturn.after h₁ h₂

end Ends

/-! ## Routines and modules -/

/-- Code every return of which gives kind `rk`, and whose last instruction is such a return. -/
def CodeReturns (rk : ValueKind) (code : List Instr) : Prop :=
  (∀ k, Instr.ret k ∈ code → k = rk) ∧ code.getLast? = some (.ret rk)

theorem LSat.and {α : Type} {m : LowerM α} {s : LowerState} {P P' : α → LowerState → Prop}
    (h : LSat m s P) (h' : LSat m s P') : LSat m s (fun a s' => P a s' ∧ P' a s') :=
  fun a s' hrun => ⟨h a s' hrun, h' a s' hrun⟩

theorem resolveDeep_of_resolveIn {env : TypeEnv} {t r : Ty} (h : resolveIn env t = .ok r) :
    t.resolveDeep env = .ok r := by
  unfold resolveIn at h
  split at h
  · next r' hr =>
    cases h
    exact hr
  · cases h

theorem kind_void {env : TypeEnv} {k : ValueKind} (h : ValueKind.of env .void = .ok k) :
    k = .void := by
  have hv : ValueKind.of env .void = .ok .void := ValueKind.of_resolved (Ty.resolved_prim _)
  rw [hv] at h
  exact (Except.ok.inj h).symm

/-- Code lowered from an empty start with returns of kind `rk` only, whose last instruction is a
return, ends in a return of kind `rk`. -/
theorem codeReturns_of {rk : ValueKind} (k : ValueKind) {s₀ s : LowerState} (he : s₀.em.code = #[])
    (hx : Extends (Instr.ReturnsAs rk) s₀ s) (hl : s.em.code.toList.getLast? = some (.ret k)) :
    CodeReturns rk s.em.code.toList := by
  have rets : ∀ k', Instr.ret k' ∈ s.em.code.toList → k' = rk :=
    fun k' hk => hx.code_of_empty he _ hk
  refine ⟨rets, ?_⟩
  rw [hl, rets k (List.mem_of_getLast? hl)]

section Routines

variable (cx : LowerCtx)

/-- A lowered routine returns with the kind of its return type and ends in a return, when it is
void or when its body ends in a return and holds no `return` without a value. -/
theorem routine_returns (n : String) (ps : List Param) (r : Option Ty) (b : List Stmt)
    (hb : ∀ R, (returnTypeOrVoid r).resolveDeep cx.env = .ok R → R.isVoid = false →
      Stmt.blockReturnsBare b = false ∧ endsWithReturn b = true) (s : LowerState) :
    LSat (routine cx n ps r b) s (fun rc _ => CodeReturns rc.ret rc.code) := by
  unfold routine
  rw [lsat_bind]
  refine ((Yields.note _ _ : Yields (fun _ => True) _ _) s).mono fun _ s₁ _ => ?_
  rw [lsat_bind]
  refine ((Yields.resolve cx _ : Yields (fun _ => True) _ _) s₁).mono fun rt s₂ h₂ => ?_
  rw [lsat_bind]
  refine ((Yields.kind cx rt : Yields (fun _ => True) _ _) s₂).mono fun rk s₃ h₃ => ?_
  -- a routine with a result ends in a return and never returns without a value
  have fits : rk = .void ∨ Stmt.blockReturnsBare b = false ∧ endsWithReturn b = true := by
    cases hv : rt.isVoid with
    | true =>
      have hrt := h₃.2
      rw [(Ty.isVoid_iff rt).mp hv] at hrt
      exact .inl (kind_void hrt)
    | false => exact .inr (hb rt (resolveDeep_of_resolveIn h₂.2) hv)
  rw [lsat_bind]
  refine (lsat_modify _).mpr ?_
  generalize hs₄ : { s₃ with em := Emitter.start n rt } = s₄
  have empty : s₄.em.code = #[] := by rw [← hs₄]; rfl
  have returning : ValueKind.of cx.env s₄.em.returnType = .ok rk := by rw [← hs₄]; exact h₃.2
  dsimp only
  rw [lsat_bind]
  refine ((ReturnsIn.forIn fun p _ _ => ?_) s₄ returning).mono fun kinds s₅ h₅ => ?_
  · refine .of_yields (Yields.bind (Yields.resolve cx _) fun t _ => ?_)
    refine Yields.bind (Yields.kind cx t) fun _ _ => ?_
    refine Yields.bind (Yields.declareParam _ _ _) fun _ _ => ?_
    exact Yields.pure ⟨_, rfl⟩
  rw [lsat_bind]
  have body := (stmts_returnsIn cx b (fits.imp_right And.left) s₅
    (by rw [h₅.1.returnType]; exact returning)).and
    (fun a s' hrun hends => stmts_end_in_return cx b hends s₅ a s' hrun)
  refine body.mono fun _ s₆ h₆ => ?_
  have e₆ := h₅.1.trans h₆.1.1
  split
  · -- a void routine whose body may fall through its end gets a last return
    rename_i hc
    simp only [Bool.and_eq_true, beq_iff_eq, Bool.not_eq_eq_eq_not, Bool.not_true] at hc
    rw [lsat_bind]
    refine (lsat_modify _).mpr ?_
    rw [lsat_finish]
    refine codeReturns_of .void empty (e₆.trans (EndsInReturn.ret_extends hc.1)) ?_
    simp
  · -- otherwise the body ends in a return
    rename_i hc
    have hends : endsWithReturn b = true := by
      rcases fits with hv | hf
      · simpa [hv] using hc
      · exact hf.2
    obtain ⟨new, k, e, last⟩ := h₆.2 hends
    rw [lsat_finish]
    refine codeReturns_of k empty e₆ ?_
    rw [e, List.getLast?_append, last]
    rfl

/-- The initializer, when there is one, returns void only and ends in a return. -/
theorem initializer_returns (ss : List Stmt) (s : LowerState) :
    LSat (initializer cx ss) s (fun o _ => ∀ rc ∈ o, CodeReturns rc.ret rc.code) := by
  unfold initializer
  rw [lsat_bind]
  refine (lsat_modify _).mpr ?_
  generalize hs₁ : ({ s with em := Emitter.start "initializer" .void } : LowerState) = s₁
  have empty : s₁.em.code = #[] := by rw [← hs₁]; rfl
  have returning : ValueKind.of cx.env s₁.em.returnType = .ok .void := by
    rw [← hs₁]
    exact ValueKind.of_resolved (Ty.resolved_prim _)
  rw [lsat_bind]
  refine ((ReturnsIn.forIn fun st _ _ => ?_) s₁ returning).mono fun _ s₂ h₂ => ?_
  · -- a top-level statement lowers in a void routine, where any return is void
    split
    · refine .of_yields (Yields.bind (Yields.orFail _) fun p _ => ?_)
      refine Yields.bind (initialValue_returns cx _ _) fun _ _ => ?_
      exact Yields.bind (storePlace_returns p) fun _ _ => Yields.pure ⟨_, rfl⟩
    · refine .of_yields (Yields.bind (Yields.orFail _) fun p _ => ?_)
      refine Yields.bind (newValue_returns cx _) fun _ _ => ?_
      exact Yields.bind (storePlace_returns p) fun _ _ => Yields.pure ⟨_, rfl⟩
    · exact .of_yields (Yields.pure ⟨_, rfl⟩)
    · exact .of_yields (Yields.pure ⟨_, rfl⟩)
    · exact .of_yields (Yields.pure ⟨_, rfl⟩)
    · exact .bind (stmt_returnsIn cx _ (.inl rfl)) fun _ _ => .of_yields (Yields.pure ⟨_, rfl⟩)
  rw [lsat_bind]
  refine ((Yields.emitter : Yields (Instr.ReturnsAs .void) _ _) s₂).mono fun _ s₃ h₃ => ?_
  split
  · exact (lsat_pure _).mpr fun _ h => by cases h
  · rw [lsat_bind]
    refine ((Yields.note _ _ : Yields (Instr.ReturnsAs .void) _ _) s₃).mono fun _ s₄ h₄ => ?_
    rw [lsat_bind]
    refine (lsat_modify _).mpr ?_
    rw [lsat_bind, lsat_finish, lsat_pure]
    intro rc hrc
    cases hrc
    refine codeReturns_of .void empty
      ((h₂.1.trans (h₃.1.trans h₄.1)).trans (EndsInReturn.ret_extends rfl)) ?_
    simp

/-- Every routine and the initializer of a lowered module return with their result kind and
end in a return, when the program's routines with a result end in a return and hold no
`return` without a value. -/
theorem module_returns (scopes : Scopes) (opts : LowerOptions) (p : Program)
    (hp : ReturnsChecked scopes.env p.statements) (s : LowerState) :
    LSat (module scopes opts p) s
      (fun m _ => ∀ rc ∈ m.routines ++ m.initializer.toList, CodeReturns rc.ret rc.code) := by
  unfold module
  rw [lsat_bind]
  intro types s₁ _
  dsimp only
  rw [lsat_bind]
  intro acc s₂ _
  generalize hcx : (⟨scopes.env, scopes.routines, acc.snd, opts.alignWide⟩ : LowerCtx) = cx
  have henv : cx.env = scopes.env := by rw [← hcx]
  rw [lsat_bind]
  refine (lsat_forIn (fun _ rs _ => ∀ rc ∈ rs.toList, CodeReturns rc.ret rc.code)
    (fun _ h => by cases h) ?_).mono fun rs s₃ hrs => ?_
  · intro done st rest rs s₄ hxs hI
    split
    · rename_i n ps r b
      have hmem : Stmt.routine n ps r b ∈ p.statements := by rw [hxs]; simp
      rw [lsat_bind]
      refine (routine_returns cx n ps r b (henv ▸ hp n ps r b hmem) s₄).mono fun rc _ hrc => ?_
      rw [lsat_pure]
      refine ⟨_, rfl, fun rc' h' => ?_⟩
      rw [Array.toList_push, List.mem_append, List.mem_singleton] at h'
      rcases h' with h' | rfl
      · exact hI rc' h'
      · exact hrc
    · rw [lsat_pure]
      exact ⟨_, rfl, hI⟩
  rw [lsat_bind]
  refine (initializer_returns cx p.statements s₃).mono fun init s₄ hinit => ?_
  rw [lsat_bind]
  intro _ _ _
  rw [lsat_pure]
  intro rc hrc
  rcases List.mem_append.mp hrc with h | h
  · exact hrs rc h
  · exact hinit rc (by simpa using h)

/-- In a module lowered from a program whose routines with a result end in a return and hold
no `return` without a value, every routine and the initializer return with their result kind
only, and their code ends in such a return. -/
theorem lowerProgram_returns {scopes : Scopes} {opts : LowerOptions} {p : Program} {m : Module}
    (hp : ReturnsChecked scopes.env p.statements) (h : (lowerProgram scopes opts p).1 = .ok m) :
    ∀ rc ∈ m.routines ++ m.initializer.toList, CodeReturns rc.ret rc.code :=
  module_returns scopes opts p hp _ m _ (Prod.ext h rfl)

end Routines

end Lower

end ImpStack
