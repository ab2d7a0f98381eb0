import ImpStack.Proofs.OperandStack
import ImpStack.Proofs.LowerExpr

/-! # Expressions push their values

  Lowering an expression the checker typed, from a state aligned with the checker's scopes,
  appends code that pushes one value of the expression's type above whatever is on the stack
  (`Infers.pushes`), and call arguments push one value of each parameter's kind
  (`ArgsInfer.pushes`). The checker's typing is what makes this hold: the operands of `and`,
  `or`, `xor` and `not` are booleans and an index is an integer, one slot each, and every
  conversion lowering inserts goes between compatible types, so it fits their widths. The
  types lowering gives and the frames it keeps come from `Infers.lowers`.
-/

namespace ImpStack

open Lower

theorem Lower.Sat.and {α : Type} {m : LowerM α} {st : LowerState}
    {Q₁ Q₂ : α → LowerState → Prop} {E₁ E₂ : Error → Prop} (h₁ : Sat m st Q₁ E₁)
    (h₂ : Sat m st Q₂ E₂) : Sat m st (fun a st' => Q₁ a st' ∧ Q₂ a st') (fun e => E₁ e ∧ E₂ e) := by
  unfold Sat at *
  rcases hm : m.run.run st with ⟨r, st'⟩
  rw [hm] at h₁ h₂
  cases r <;> exact ⟨h₁, h₂⟩

/-! ## Operand types the checker allows -/

/-- The operands of a comparison convert to their common type. -/
theorem Ty.comparisonOperands_compatible {L R t : Ty} (h : Ty.comparisonOperands L R = some t) :
    Ty.compatible t L = true ∧ Ty.compatible t R = true := by
  unfold Ty.comparisonOperands at h
  split at h
  · next numeric =>
    simp only [Bool.and_eq_true, Ty.isNumeric_iff] at numeric
    obtain ⟨hL | hL, hR | hR⟩ := numeric <;> subst hL hR <;>
      simp [Ty.isReal, Ty.asPrim?, Ty.integer, Ty.real] at h <;> subst h <;>
      simp [Ty.compatible, Ty.integer, Ty.real]
  · split at h
    · next both =>
      simp only [Bool.and_eq_true, Ty.isBoolean_iff] at both
      obtain ⟨rfl, rfl⟩ := both
      cases h
      simp [Ty.compatible, Ty.boolean]
    · cases h

/-- The operands of an arithmetic operation convert to its result type. -/
theorem Ty.binaryResult_arithmetic_compatible {op : BinOp} {L R t : Ty}
    (hop : op.isArithmetic = true) (h : Ty.binaryResult op L R = some t) :
    Ty.compatible t L = true ∧ Ty.compatible t R = true := by
  have hc : op.isComparison = false := by
    cases op <;> simp_all [BinOp.isArithmetic, BinOp.isComparison]
  have hl : op.isLogical = false := by cases op <;> simp_all [BinOp.isArithmetic, BinOp.isLogical]
  simp only [Ty.binaryResult, hc, hl, Bool.false_eq_true, ↓reduceIte] at h
  cases L <;> cases R <;> simp [Ty.asPrim?] at h
  rename_i l r
  cases l <;> cases r <;> simp [Prim.isNumeric] at h <;> subst h <;>
    simp [Ty.compatible, Ty.integer, Ty.real]

/-! ## Steps inside an expression -/

section Steps

variable {cx : LowerCtx} {st : LowerState} {E : Error → Prop}

/-- Converting between compatible resolved types keeps the frames and takes the stack from the
slots of the one to those of the other. -/
theorem Lower.coerce_run (E' A : Ty) (hE : E'.Resolved) (hA : A.Resolved)
    (hc : Ty.compatible E' A = true) (k : Nat) {Q : Unit → LowerState → Prop}
    (hQ : ∀ st', ImpStack.Keeps st st' → DepthStep (k + A.slots) (k + E'.slots) st st' → Q () st') :
    Sat (coerce cx E' A) st Q (fun _ => True) :=
  ((show Sat (coerce cx E' A) st (fun _ st' => Emits E'.SizesFit st st') (fun _ => True) from
    coerce_sat cx E' A hE hA fun _ h => h).and (coerce_stacks cx E' A hE hA hc k st)).mono
    (fun _ st' h => hQ st' h.1.1 h.2) fun _ _ => trivial

/-- An explicit conversion keeps the frames and takes the stack from the slots of the one type
to those of the other. -/
theorem Lower.applyCoercion_run {c : Coercion} {w w' : Nat} (hf : c.Fits w w') (k : Nat)
    {Q : Unit → LowerState → Prop}
    (hQ : ∀ st', ImpStack.Keeps st st' → DepthStep (k + w) (k + w') st st' → Q () st') :
    Sat (applyCoercion c) st Q (fun _ => True) :=
  ((applyCoercion_sat c (E := fun _ => True) (Q := fun _ st' => Emits True st st')
    fun _ h => h).and (applyCoercion_stacks c hf k st)).mono
    (fun _ st' h => hQ st' h.1.1 h.2) fun _ _ => trivial

/-- Pushing a variable keeps the frames and pushes its place's kind. -/
theorem Lower.loadPlace_run (p : Place) (k : Nat) {Q : Unit → LowerState → Prop}
    (hQ : ∀ st', ImpStack.Keeps st st' → DepthStep k (k + p.kind.width) st st' → Q () st') :
    Sat (loadPlace p) st Q E :=
  ((loadPlace_sat p (E := E) (Q := fun _ st' => Emits (p.kind ≠ .void) st st') fun _ h => h).and
    (loadPlace_stacks p k st)).mono (fun _ st' h => hQ st' h.1.1 h.2) fun _ h => h.1

end Steps

/-! ## Expressions -/

/-- Lowering `e` from any state aligned with `sc` appends code that pushes one value of the
type lowering gives, above any `k` slots. -/
def Pushes (cx : LowerCtx) (sc : Scopes) (e : Expr) : Prop :=
  ∀ st, Aligned cx sc st.em → ∀ k, Sat (expr cx e) st
    (fun T st' => DepthStep k (k + T.slots) st st') (fun _ => True)

/-- Lowering call arguments from an aligned state, against parameter types that resolve,
appends code that pushes one value of each parameter's kind, as many slots as the call pops. -/
def ArgsPush (cx : LowerCtx) (sc : Scopes) (ps : List Ty) (args : List Expr) : Prop :=
  ∀ st, Aligned cx sc st.em → (∀ p ∈ ps, ∃ P, p.resolveDeep sc.env = .ok P) → ∀ k,
    Sat (arguments cx args ps) st
      (fun ks st' => DepthStep k (k + ks.foldr (fun k n => k.width + n) 0) st st')
      (fun _ => True)

variable {cx : LowerCtx} {sc : Scopes} {st : LowerState}

/-- Running a lowered expression inside a longer step, with the type the checker gave it, the
frames it keeps and the value it pushes. -/
theorem Pushes.run {e : Expr} {o : Option Ty} (hp : Pushes cx sc e) (hl : Lowers cx sc e o)
    (ha : Aligned cx sc st.em) (k : Nat) {Q : Ty → LowerState → Prop}
    (hQ : ∀ T st', o = some T → ImpStack.Keeps st st' → DepthStep k (k + T.slots) st st' → Q T st') :
    Sat (expr cx e) st Q (fun _ => True) :=
  ((hl st ha).and (hp st ha k)).mono (fun T st' h => hQ T st' h.1.1 h.1.2.1 h.2)
    fun _ _ => trivial

/-- A variable of the scopes takes the slots of its type, as its place's kind does. -/
theorem Aligned.place_width (ha : Aligned cx sc st.em) {n : String} {T : Ty} {p : Place}
    (found : sc.typeOf? n = some T) (hk : ValueKind.of cx.env T = .ok p.kind) :
    p.kind.width = T.slots :=
  ValueKind.width_of (ha.resolved n T found) hk

namespace Pushes

theorem intLit (v : Int) : Pushes cx sc (.int v) := fun st _ k => by
  simp only [expr, sat_bind, sat_emit, sat_pure]
  exact DepthStep.plain (i := .push (.int v)) rfl rfl rfl k st

theorem realLit (x : Float) : Pushes cx sc (.real x) := fun st _ k => by
  simp only [expr, sat_bind, sat_emit, sat_pure]
  exact DepthStep.plain (i := .push (.real x)) rfl rfl rfl k st

theorem boolLit (b : Bool) : Pushes cx sc (.bool b) := fun st _ k => by
  simp only [expr, sat_bind, sat_emit, sat_pure]
  exact DepthStep.plain (i := .push (.bool b)) rfl rfl rfl k st

theorem strLit (s : String) : Pushes cx sc (.str s) := fun st _ k => by
  simp only [expr, sat_bind, sat_emit, sat_pure]
  exact DepthStep.plain (i := .push (.str s)) rfl rfl rfl k st

theorem var {n : String} {T : Ty} (found : sc.typeOf? n = some T) : Pushes cx sc (.var n) := by
  intro st ha k
  obtain ⟨p, hp, hty, hk⟩ := ha.place found
  simp only [expr, sat_bind, sat_emitter, sat_orFail_ok hp]
  refine (loadPlace_stacks p k st).mono (fun _ st' h => ?_) fun _ _ => trivial
  rw [sat_pure, hty, ← Aligned.place_width ha found hk]
  exact h


theorem logical {l r : Expr} {op : BinOp} {ol or : Option Ty} (hop : op = .and ∨ op = .or)
    (left : Infers sc l ol) (right : Infers sc r or) (pl : Pushes cx sc l) (pr : Pushes cx sc r)
    (suits : ∀ L R, ol = some L → or = some R → (Ty.binaryResult op L R).isSome) :
    Pushes cx sc (.binary l op r) := by
  intro st ha k
  rcases hop with rfl | rfl
  all_goals
    simp only [expr, sat_bind, sat_newLabel]
    refine pl.run left.lowers (by exact ha) k fun L st₁ hL k₁ d₁ => ?_
    simp only [sat_emit]
    refine pr.run right.lowers (by exact ha.keeps k₁) k fun R st₂ hR _ d₂ => ?_
    simp only [sat_pure]
    -- both operands are booleans, one slot each
    obtain ⟨T, hT, -⟩ := binary_typed hL hR suits
    obtain ⟨rfl, rfl, -⟩ := Ty.binaryResult_logical (by rfl) hT
    exact DepthStep.shortCircuit d₁ d₂ ⟨rfl, rfl⟩ ⟨rfl, rfl⟩ ⟨rfl, rfl⟩

theorem xorOp {l r : Expr} {ol or : Option Ty} (left : Infers sc l ol) (right : Infers sc r or)
    (pl : Pushes cx sc l) (pr : Pushes cx sc r)
    (suits : ∀ L R, ol = some L → or = some R → (Ty.binaryResult .xor L R).isSome) :
    Pushes cx sc (.binary l .xor r) := by
  intro st ha k
  simp only [expr, sat_bind]
  refine pl.run left.lowers ha k fun L st₁ hL k₁ d₁ => ?_
  refine pr.run right.lowers (ha.keeps k₁) (k + L.slots) fun R st₂ hR _ d₂ => ?_
  simp only [sat_emit, sat_pure]
  obtain ⟨T, hT, -⟩ := binary_typed hL hR suits
  obtain ⟨rfl, rfl, -⟩ := Ty.binaryResult_logical (by rfl) hT
  exact d₁.trans (d₂.trans (DepthStep.plain (i := .arith .xor .bool) rfl rfl rfl k _))

theorem compareOp {l r : Expr} {op : BinOp} {ol or : Option Ty} (hop : op.isComparison = true)
    (left : Infers sc l ol) (right : Infers sc r or) (pl : Pushes cx sc l)
    (pr : Pushes cx sc r) : Pushes cx sc (.binary l op r) := by
  intro st ha k
  -- the six comparisons lower alike
  cases op <;> simp only [BinOp.isComparison] at hop <;> try contradiction
  all_goals
    simp only [expr, sat_bind, sat_emitter]
    cases hs : Lower.staticType cx st.em r with
    | error err => exact trivial
    | ok R' =>
      simp only [sat_orFail]
      refine pl.run left.lowers ha k fun L st₁ hL k₁ d₁ => ?_
      cases hc : Ty.comparisonOperands L R' with
      | none => exact trivial
      | some t =>
        simp only [sat_bind, sat_pure]
        obtain ⟨cL, cR⟩ := Ty.comparisonOperands_compatible hc
        have htr : t.Resolved := by
          rcases Ty.comparisonOperands_cases hc with rfl | rfl | rfl <;> trivial
        refine coerce_run t L htr (left.resolved ha.resolved hL) cL k fun st₂ k₂ d₂ => ?_
        refine pr.run right.lowers (ha.keeps (k₁.trans k₂)) (k + t.slots)
          fun R st₃ hR _ d₃ => ?_
        -- the right operand's type lowering read first is the one it gives
        have hRR : R' = R := Except.ok.inj (hs.symm.trans (right.staticType ha hR))
        subst hRR
        refine coerce_run t R' htr (right.resolved ha.resolved hR) cR (k + t.slots)
          fun st₄ _ d₄ => ?_
        obtain ⟨kt, hk⟩ := @ValueKind.of_resolved_ok cx.env _ htr
        have wk := ValueKind.width_of htr hk
        simp only [sat_newLabel, kind, sat_orFail_ok hk, sat_emit]
        refine d₁.trans (d₂.trans (d₃.trans (d₄.trans ?_)))
        exact (DepthStep.select ⟨rfl, rfl⟩ rfl rfl rfl rfl k).cast
          (by simp [Instr.stackEffect]; omega) rfl

theorem arithOp {l r : Expr} {op : BinOp} {ol or : Option Ty} (hop : op.isArithmetic = true)
    (left : Infers sc l ol) (right : Infers sc r or) (pl : Pushes cx sc l)
    (pr : Pushes cx sc r) : Pushes cx sc (.binary l op r) := by
  intro st ha k
  -- the five arithmetic operators lower alike
  cases op <;> simp only [BinOp.isArithmetic] at hop <;> try contradiction
  all_goals
    simp only [expr, sat_bind, sat_emitter]
    cases hs : Lower.staticType cx st.em r with
    | error err => exact trivial
    | ok R' =>
      simp only [sat_orFail]
      refine pl.run left.lowers ha k fun L st₁ hL k₁ d₁ => ?_
      cases hc : Ty.binaryResult _ L R' with
      | none => exact trivial
      | some t =>
        simp only [sat_bind, sat_pure]
        obtain ⟨cL, cR⟩ := Ty.binaryResult_arithmetic_compatible (by rfl) hc
        have htr : t.Resolved := by
          rcases Ty.binaryResult_arithmetic (by rfl) hc with rfl | rfl <;> trivial
        refine coerce_run t L htr (left.resolved ha.resolved hL) cL k fun st₂ k₂ d₂ => ?_
        refine pr.run right.lowers (ha.keeps (k₁.trans k₂)) (k + t.slots)
          fun R st₃ hR _ d₃ => ?_
        have hRR : R' = R := Except.ok.inj (hs.symm.trans (right.staticType ha hR))
        subst hRR
        refine coerce_run t R' htr (right.resolved ha.resolved hR) cR (k + t.slots)
          fun st₄ _ d₄ => ?_
        obtain ⟨kt, hk⟩ := @ValueKind.of_resolved_ok cx.env _ htr
        have wk := ValueKind.width_of htr hk
        simp only [kind, sat_orFail_ok hk, sat_emit]
        exact d₁.trans (d₂.trans (d₃.trans (d₄.trans
          ((DepthStep.plain rfl rfl rfl k _).cast (by simp [Instr.stackEffect]; omega)
            (by simp [Instr.stackEffect, wk])))))

theorem binary {l r : Expr} {op : BinOp} {ol or : Option Ty} (left : Infers sc l ol)
    (right : Infers sc r or) (pl : Pushes cx sc l) (pr : Pushes cx sc r)
    (suits : ∀ L R, ol = some L → or = some R → (Ty.binaryResult op L R).isSome) :
    Pushes cx sc (.binary l op r) := by
  cases op with
  | and => exact logical (Or.inl rfl) left right pl pr suits
  | or => exact logical (Or.inr rfl) left right pl pr suits
  | xor => exact xorOp left right pl pr suits
  | lt | le | gt | ge | eq | ne => exact compareOp rfl left right pl pr
  | add | sub | mul | div | mod => exact arithOp rfl left right pl pr

theorem unary {op : UnOp} {e : Expr} {o : Option Ty} (operand : Infers sc e o)
    (pe : Pushes cx sc e) (suits : ∀ T, o = some T → (Ty.unaryResult op T).isSome) :
    Pushes cx sc (.unary op e) := by
  intro st ha k
  cases op with
  | not =>
    simp only [expr, sat_bind]
    refine pe.run operand.lowers ha k fun E st₁ hE _ d₁ => ?_
    -- a negated condition is a boolean, one slot
    obtain ⟨T, hT⟩ := Option.isSome_iff_exists.mp (suits E hE)
    obtain ⟨rfl, -⟩ := Ty.unaryResult_not hT
    refine (boolSelect_stacks .eq k st₁).mono (fun _ st₂ d₂ => ?_) fun _ _ => trivial
    rw [sat_pure]
    exact d₁.trans d₂
  | neg =>
    simp only [expr, sat_bind]
    refine pe.run operand.lowers ha k fun E st₁ hE _ d₁ => ?_
    have hEr := operand.resolved ha.resolved hE
    obtain ⟨kE, hk⟩ := @ValueKind.of_resolved_ok cx.env _ hEr
    have wk := ValueKind.width_of hEr hk
    simp only [kind, sat_orFail_ok hk, sat_emit, sat_pure]
    exact d₁.trans ((DepthStep.plain (i := .neg kE) rfl rfl rfl k _).cast
      (by simp [Instr.stackEffect, wk]) (by simp [Instr.stackEffect, wk]))

theorem index {a : String} {i : Expr} {el : Ty} {size : Int} {oi : Option Ty}
    (found : sc.typeOf? a = some (.array el size)) (hi : Infers sc i oi) (pi : Pushes cx sc i)
    (integer : ∀ T, oi = some T → T = .integer) : Pushes cx sc (.index a i) := by
  intro st ha k
  obtain ⟨p, hp, hty, hk⟩ := ha.place found
  have hel := element_resolved ha.resolved found
  obtain ⟨ke, hek⟩ : ∃ k, ValueKind.of cx.env el = .ok k := ValueKind.of_resolved_ok hel
  have he : elementType p = .ok el := by simp [elementType, hty]
  have wp : p.kind.width = 1 := Aligned.place_width ha found hk
  simp only [expr, sat_bind, sat_emitter, sat_orFail_ok hp, sat_orFail_ok he]
  refine loadPlace_run p k fun st₁ k₁ d₁ => ?_
  refine pi.run hi.lowers (ha.keeps k₁) (k + p.kind.width) fun I st₂ hI _ d₂ => ?_
  -- the array reference and the integer index make way for the element
  obtain rfl := integer I hI
  simp only [kind, sat_orFail_ok hek, sat_emit, sat_pure]
  exact d₁.trans (d₂.trans ((DepthStep.plain (i := .arrayLoad ke) rfl rfl rfl k _).cast
    (by simp [Instr.stackEffect, wp]) (by simp [Instr.stackEffect, ValueKind.width_of hel hek])))

theorem field {r f : String} {R F : Ty} {name : String} {fields : List (String × Ty)}
    (found : sc.typeOf? r = some R) (record : R.resolveDeep sc.env = .ok (.record name fields))
    (member : fields.lookup f = some F) : Pushes cx sc (.field r f) := by
  intro st ha k
  obtain ⟨p, hp, hty, hk⟩ := ha.place found
  have wp : p.kind.width = R.slots := Aligned.place_width ha found hk
  rw [record_of_resolveDeep ha.resolved found record] at hty wp
  simp only [expr, sat_bind, sat_emitter, sat_orFail_ok hp]
  cases hF : F.resolveDeep sc.env with
  | error err =>
    have hft : fieldType cx p f = .error (err.orUnresolved F.display) := by
      simp [fieldType, hty, Ty.recordName?, Ty.field?, member, resolveIn, ha.env, hF, bind,
        Except.bind, pure, Except.pure]
    simp only [hft, sat_orFail]
  | ok FR =>
    have hft : fieldType cx p f = .ok (name, FR) := by
      simp [fieldType, hty, Ty.recordName?, Ty.field?, member, resolveIn, ha.env, hF, bind,
        Except.bind, pure, Except.pure]
    have hFR := Ty.resolveDeep_resolved hF
    obtain ⟨kf, hfk⟩ : ∃ k, ValueKind.of cx.env FR = .ok k := ValueKind.of_resolved_ok hFR
    simp only [sat_orFail_ok hft]
    refine (loadPlace_stacks p k st).mono (fun _ st₁ d₁ => ?_) fun _ _ => trivial
    simp only [kind, sat_orFail_ok hfk, sat_emit, sat_pure]
    -- the record reference makes way for the field
    exact d₁.trans ((DepthStep.plain (i := .getField name f kf) rfl rfl rfl k _).cast
      (by simp [Instr.stackEffect, wp]) (by simp [Instr.stackEffect, ValueKind.width_of hFR hfk]))

theorem call {n : String} {args : List Expr} {sig : RoutineSig}
    (found : sc.routine? n = some sig) (count : sig.params.length = args.length)
    (pargs : ArgsPush cx sc sig.params args) : Pushes cx sc (.call n args) := by
  intro st ha k
  obtain ⟨hps, R, hR⟩ := ha.signatures n sig found
  have hRr := Ty.resolveDeep_resolved hR
  obtain ⟨rk, hrk⟩ : ∃ k, ValueKind.of cx.env R = .ok k := ValueKind.of_resolved_ok hRr
  simp only [expr, sat_bind]
  refine callee_sat (by rw [ha.routine?, found]) count ?_
  refine (pargs st ha hps k).mono (fun ks st₁ d₁ => ?_) fun _ _ => trivial
  simp only [finishCall, resolve, sat_bind, sat_orFail_ok (resolveIn_ok (ha.env ▸ hR)), kind,
    sat_orFail_ok hrk, sat_emit, sat_pure]
  split
  · exact trivial
  · -- the call pops exactly the arguments and pushes the result
    rw [sat_pure]
    exact d₁.trans ((DepthStep.plain (i := .call n ks rk) rfl rfl rfl k _).cast rfl
      (by simp [Instr.stackEffect, ValueKind.width_of hRr hrk]))

theorem cast {e : Expr} {target : Ty} (pe : Pushes cx sc e) : Pushes cx sc (.cast e target) := by
  intro st ha k
  simp only [expr, sat_bind]
  refine (pe st ha k).mono (fun S st₁ d₁ => ?_) fun _ _ => trivial
  simp only [resolve, sat_orFail]
  cases resolveIn cx.env target with
  | error err => trivial
  | ok T =>
    dsimp only
    cases hc : Ty.coercion S T with
    | none => exact trivial
    | some c =>
      simp only [sat_bind]
      refine applyCoercion_run (Ty.coercion_fits hc) k fun st₂ _ d₂ => ?_
      rw [sat_pure]
      exact d₁.trans d₂

end Pushes

namespace ArgsPush

theorem nil : ArgsPush cx sc [] [] := fun st _ _ k => by
  simp only [arguments, sat_pure]
  exact DepthStep.refl k st

theorem cons {p : Ty} {a : Expr} {ps : List Ty} {as : List Expr} {o : Option Ty}
    (head : Infers sc a o) (pa : Pushes cx sc a)
    (suits : ∀ P A, p.resolveDeep sc.env = .ok P → o = some A → Ty.compatible P A = true)
    (tail : ArgsPush cx sc ps as) : ArgsPush cx sc (p :: ps) (a :: as) := by
  intro st ha hps k
  obtain ⟨P, hP⟩ := hps p List.mem_cons_self
  have hPr := Ty.resolveDeep_resolved hP
  obtain ⟨kp, hkp⟩ : ∃ k, ValueKind.of cx.env P = .ok k := ValueKind.of_resolved_ok hPr
  simp only [arguments, resolve, sat_bind, sat_orFail_ok (resolveIn_ok (ha.env ▸ hP))]
  refine pa.run head.lowers ha k fun A st₁ hA k₁ d₁ => ?_
  refine coerce_run P A hPr (head.resolved ha.resolved hA) (suits P A hP hA) k
    fun st₂ k₂ d₂ => ?_
  simp only [kind, sat_orFail_ok hkp]
  refine (tail st₂ (ha.keeps (k₁.trans k₂)) (fun q hq => hps q (List.mem_cons_of_mem p hq))
    (k + P.slots)).mono (fun ks st₃ d₃ => ?_) fun _ _ => trivial
  rw [sat_pure]
  -- each argument is left converted to its parameter's kind
  exact d₁.trans (d₂.trans (d₃.cast rfl (by simp [ValueKind.width_of hPr hkp]; omega)))

end ArgsPush

mutual

/-- Every expression the checker types, lowered from a state aligned with its scopes, pushes
one value of the type lowering gives. -/
theorem Infers.pushes : ∀ {e : Expr} {o : Option Ty}, Infers sc e o → Pushes cx sc e
  | _, _, .int v => Pushes.intLit v
  | _, _, .real x => Pushes.realLit x
  | _, _, .bool b => Pushes.boolLit b
  | _, _, .str s => Pushes.strLit s
  | _, _, .var found => Pushes.var found
  | _, _, .binary left right suits => Pushes.binary left right left.pushes right.pushes suits
  | _, _, .unary operand suits => Pushes.unary operand operand.pushes suits
  | _, _, .index found hi integer => Pushes.index found hi hi.pushes integer
  | _, _, .field found record member => Pushes.field found record member
  | _, _, .call found count arguments _ => Pushes.call found count arguments.pushes
  | _, _, .cast operand _ _ _ => Pushes.cast operand.pushes

/-- Call arguments the checker accepts push one value of each parameter's kind. -/
theorem ArgsInfer.pushes : ∀ {ps : List Ty} {args : List Expr}, ArgsInfer sc ps args →
    ArgsPush cx sc ps args
  | _, _, .nil => ArgsPush.nil
  | _, _, .cons head suits tail => ArgsPush.cons head head.pushes suits tail.pushes

end

end ImpStack
