import ImpStack.Proofs.CheckWalk

/-! # Checking what the judgment accepts

  The converse of the soundness of the walk: every check passes on what the judgment accepts,
  reports nothing and returns its input unchanged. An expression the judgment types is
  checked silently to the type the judgment gives (`Infers.rechecks`); a statement or block
  the judgment accepts is checked silently, returned as it is, and leaves the scopes the
  judgment says (`StmtChecks.rechecks`); so does a routine (`RoutineChecks.rechecks`).
-/

namespace ImpStack

namespace Check

/-- A step that reports nothing and keeps the scopes and the routines being walked. -/
def Silent (st st' : Checker) : Prop := Reads st st' ∧ Quiet st st'

theorem Silent.refl (st : Checker) : Silent st st := ⟨Reads.refl st, rfl⟩

theorem Silent.trans {st₁ st₂ st₃ : Checker} (h₁ : Silent st₁ st₂) (h₂ : Silent st₂ st₃) :
    Silent st₁ st₃ := ⟨h₁.1.trans h₂.1, h₂.2.trans h₁.2⟩

theorem Silent.scopes {st st' : Checker} (h : Silent st st') : st'.scopes = st.scopes := h.1.scopes

section Helpers

variable {st : Checker}

theorem use_silent (n : String) {Q : Unit → Checker → Prop} (hQ : ∀ st', Silent st st' → Q () st') :
    CSat (use n) st Q :=
  use_sat n fun st' r q => hQ st' ⟨r, q⟩

theorem arrayElement_rechecks {a : String} {el : Ty} {size : Int}
    (found : st.scopes.typeOf? a = some (.array el size)) :
    CSat (arrayElement a) st (fun o st' => Silent st st' ∧ o = some el) := by
  simp only [arrayElement, csat_bind]
  refine use_silent a fun st₁ s₁ => ?_
  simp only [csat_scopes, s₁.scopes, found, csat_pure]
  exact ⟨s₁, trivial⟩

theorem indexOk_rechecks {oi : Option Ty} (integer : ∀ T, oi = some T → T = .integer) :
    CSat (indexOk oi) st (fun ok st' => Silent st st' ∧ ok = oi.isSome) := by
  cases oi with
  | none => exact ⟨Silent.refl st, rfl⟩
  | some T =>
    obtain rfl := integer T rfl
    exact ⟨Silent.refl st, rfl⟩

theorem recordField_rechecks {r f name : String} {R F : Ty} {fields : List (String × Ty)}
    (found : st.scopes.typeOf? r = some R)
    (record : R.resolveDeep st.scopes.env = .ok (.record name fields))
    (member : fields.lookup f = some F) :
    CSat (recordField r f) st (fun o st' => Silent st st' ∧
      o = (F.resolveDeep st.scopes.env).toOption) := by
  simp only [recordField, csat_bind]
  refine use_silent r fun st₁ s₁ => ?_
  simp only [csat_scopes, s₁.scopes, found, csat_bind, csat_resolveQuiet, record,
    Except.toOption, Ty.field?, member]
  exact ⟨s₁, trivial⟩

theorem callee_rechecks {n : String} {args : List Expr} {sig : RoutineSig}
    (found : st.scopes.routine? n = some sig) (count : sig.params.length = args.length) :
    CSat (callee n args) st (fun o st' => Silent st st' ∧ o = some sig) := by
  simp only [callee, csat_bind, csat_scopes, found, count, bne_self_eq_false, Bool.false_eq_true,
    ↓reduceIte, csat_pure]
  exact ⟨Silent.refl st, trivial⟩

theorem checkArgument_rechecks {name : String} {params : List Ty} {index : Nat} {p : Ty}
    {actual : Option Ty} (hp : params[index]? = some p)
    (suits : ∀ P A, p.resolveDeep st.scopes.env = .ok P → actual = some A →
      Ty.compatible P A = true) :
    CSat (checkArgument name params index actual) st (fun _ st' => Silent st st') := by
  simp only [checkArgument, hp, csat_bind, csat_resolveQuiet]
  cases hP : p.resolveDeep st.scopes.env with
  | error err => exact Silent.refl st
  | ok P =>
    cases actual with
    | none => exact Silent.refl st
    | some A =>
      simp only [Except.toOption, suits P A hP rfl, Bool.not_true, Bool.false_eq_true,
        ↓reduceIte, csat_pure]
      exact Silent.refl st

theorem resolveReported_rechecks {t T : Ty} (valid : t.isValid st.scopes.env = true)
    (resolved : t.resolveDeep st.scopes.env = .ok T) :
    CSat (resolveReported t) st (fun o st' => Silent st st' ∧ o = some T) := by
  simp only [resolveReported, csat_bind, csat_scopes, valid, Bool.not_true, Bool.false_eq_true,
    ↓reduceIte, resolved, csat_pure]
  exact ⟨Silent.refl st, trivial⟩

end Helpers

end Check

/-! ## Expressions -/

section Expressions

open Check

mutual

/-- Checking an expression the judgment types reports nothing and gives the judgment's type. -/
theorem Infers.rechecks {sc : Scopes} : ∀ {e : Expr} {o : Option Ty}, Infers sc e o →
    ∀ st : Checker, st.scopes = sc → CSat (typeOf e) st (fun o' st' => Silent st st' ∧ o' = o) := by
  intro e o he st hsc
  subst hsc
  cases he with
  | int v => exact ⟨Silent.refl st, rfl⟩
  | real x => exact ⟨Silent.refl st, rfl⟩
  | bool b => exact ⟨Silent.refl st, rfl⟩
  | str s => exact ⟨Silent.refl st, rfl⟩
  | var found =>
    simp only [typeOf, csat_bind]
    refine use_silent _ fun st₁ s₁ => ?_
    simp only [csat_scopes, s₁.scopes, found, Option.isNone_some, Bool.false_eq_true, ↓reduceIte,
      csat_pure]
    exact ⟨s₁, trivial⟩
  | binary left right suits =>
    simp only [typeOf, csat_bind]
    refine (left.rechecks st rfl).mono₂ fun ol st₁ s₁ hl => ?_
    refine (right.rechecks st₁ s₁.scopes).mono₂ fun or st₂ s₂ hr => ?_
    subst hl hr
    cases ol with
    | none => exact ⟨s₁.trans s₂, rfl⟩
    | some L =>
      cases or with
      | none => exact ⟨s₁.trans s₂, rfl⟩
      | some R =>
        obtain ⟨T, hT⟩ := Option.isSome_iff_exists.mp (suits L R rfl rfl)
        simp only [binaryType, hT, csat_pure]
        exact ⟨s₁.trans s₂, by simp [hT]⟩
  | unary operand suits =>
    simp only [typeOf, csat_bind]
    refine (operand.rechecks st rfl).mono₂ fun o' st₁ s₁ ho => ?_
    subst ho
    cases o' with
    | none => exact ⟨s₁, rfl⟩
    | some T =>
      obtain ⟨U, hU⟩ := Option.isSome_iff_exists.mp (suits T rfl)
      simp only [hU, csat_pure]
      exact ⟨s₁, by simp [hU]⟩
  | index found index integer =>
    simp only [typeOf, csat_bind]
    refine (arrayElement_rechecks found).mono₂ fun oel st₁ s₁ hel => ?_
    refine (index.rechecks st₁ s₁.scopes).mono₂ fun oi st₂ s₂ hi => ?_
    subst hel hi
    refine (indexOk_rechecks integer).mono₂ fun ok st₃ s₃ hok => ?_
    subst hok
    cases oi with
    | none => exact ⟨s₁.trans (s₂.trans s₃), rfl⟩
    | some T =>
      simp only [Option.isSome_some, ↓reduceIte, csat_resolveQuiet, s₃.scopes, s₂.scopes,
        s₁.scopes]
      exact ⟨s₁.trans (s₂.trans s₃), rfl⟩
  | field found record member =>
    exact recordField_rechecks found record member
  | @call _ _ sig found count arguments nonVoid =>
    simp only [typeOf, csat_bind]
    refine (callee_rechecks found count).mono₂ fun osig st₁ s₁ hsig => ?_
    subst hsig
    simp only [csat_bind]
    refine (arguments.rechecks _ _ 0 st₁ s₁.scopes (List.drop_zero)).mono fun _ st₂ s₂ => ?_
    simp only [csat_resolveQuiet, s₂.scopes, s₁.scopes]
    cases hR : sig.returnType.resolveDeep st.scopes.env with
    | error err => exact ⟨s₁.trans s₂, rfl⟩
    | ok T =>
      simp only [Except.toOption, nonVoid T hR, Bool.false_eq_true, ↓reduceIte, csat_pure]
      exact ⟨s₁.trans s₂, trivial⟩
  | @cast _ target T _ operand valid resolved castable =>
    simp only [typeOf, csat_bind]
    refine (operand.rechecks st rfl).mono₂ fun os st₁ s₁ hs => ?_
    subst hs
    have valid₁ : target.isValid st₁.scopes.env = true := by rw [s₁.scopes]; exact valid
    have resolved₁ : target.resolveDeep st₁.scopes.env = .ok T := by rw [s₁.scopes]; exact resolved
    refine (resolveReported_rechecks valid₁ resolved₁).mono₂ fun ot st₂ s₂ ht => ?_
    subst ht
    cases os with
    | none => exact ⟨s₁.trans s₂, rfl⟩
    | some S =>
      simp only [castable S rfl, Bool.not_true, Bool.false_eq_true, ↓reduceIte, csat_pure]
      exact ⟨s₁.trans s₂, rfl⟩

/-- Checking call arguments that the judgment accepts against the parameters from position
`index` on reports nothing. -/
theorem ArgsInfer.rechecks {sc : Scopes} : ∀ {ps : List Ty} {args : List Expr},
    ArgsInfer sc ps args → ∀ (name : String) (params : List Ty) (index : Nat) (st : Checker),
      st.scopes = sc → params.drop index = ps →
        CSat (checkArguments name params index args) st (fun _ st' => Silent st st') := by
  intro ps args ha name params index st hsc hps
  subst hsc
  cases ha with
  | nil => exact Silent.refl st
  | cons head suits tail =>
    rename_i p _ ps' _ _
    have hp : params[index]? = some p := by rw [← List.head?_drop, hps]; rfl
    have hps' : params.drop (index + 1) = ps' := by rw [← List.tail_drop, hps]; rfl
    simp only [checkArguments, csat_bind]
    refine (head.rechecks st rfl).mono₂ fun o st₁ s₁ ho => ?_
    subst ho
    have suits₁ : ∀ P A, p.resolveDeep st₁.scopes.env = .ok P → o = some A →
        Ty.compatible P A = true := by
      rw [s₁.scopes]; exact suits
    refine (checkArgument_rechecks hp suits₁).mono fun _ st₂ s₂ => ?_
    exact (tail.rechecks name params (index + 1) st₂ (by rw [s₂.scopes, s₁.scopes]) hps').mono
      fun _ st₃ s₃ => s₁.trans (s₂.trans s₃)

end

end Expressions

/-! ## Statements -/

namespace Check

/-- A step that reports nothing, keeps the routines being walked and leaves the scopes `sc'`. -/
structure Leaves (sc' : Scopes) (st st' : Checker) : Prop where
  quiet : Quiet st st'
  scopes : st'.scopes = sc'
  returnTypes : st'.returnTypes = st.returnTypes

theorem Silent.leaves {st st' : Checker} (h : Silent st st') : Leaves st.scopes st st' :=
  ⟨h.2, h.1.scopes, h.1.returnTypes⟩

theorem Leaves.trans {sc₁ sc₂ : Scopes} {st₁ st₂ st₃ : Checker} (h₁ : Leaves sc₁ st₁ st₂)
    (h₂ : Leaves sc₂ st₂ st₃) : Leaves sc₂ st₁ st₃ :=
  ⟨h₂.quiet.trans h₁.quiet, h₂.scopes, h₂.returnTypes.trans h₁.returnTypes⟩

theorem Silent.then_leaves {sc : Scopes} {st₁ st₂ st₃ : Checker} (h₁ : Silent st₁ st₂)
    (h₂ : Leaves sc st₂ st₃) : Leaves sc st₁ st₃ :=
  h₁.leaves.trans h₂

section Helpers

variable {st : Checker}

theorem checkCondition_rechecks {construct : String} {o : Option Ty}
    (boolean : ∀ T, o = some T → T = .boolean) :
    CSat (checkCondition construct o) st (fun _ st' => Silent st st') := by
  cases o with
  | none => exact Silent.refl st
  | some T =>
    obtain rfl := boolean T rfl
    exact Silent.refl st

theorem checkBound_rechecks {o : Option Ty} (integer : ∀ T, o = some T → T = .integer) :
    CSat (checkBound o) st (fun _ st' => Silent st st') := by
  cases o with
  | none => exact Silent.refl st
  | some T =>
    obtain rfl := integer T rfl
    exact Silent.refl st

theorem checkLoopVariable_rechecks {v : String} (loop : st.scopes.typeOf? v = some .integer) :
    CSat (checkLoopVariable v) st (fun _ st' => Silent st st') := by
  simp only [checkLoopVariable, csat_bind, csat_scopes, loop]
  exact Silent.refl st

theorem targetType_rechecks {t : Target} {ot : Option Ty} (h : TargetInfers st.scopes t ot) :
    CSat (targetType t) st (fun o st' => Silent st st' ∧ o = ot) := by
  cases h with
  | var found =>
    simp only [targetType, csat_bind, csat_scopes, found, csat_pure]
    exact ⟨Silent.refl st, trivial⟩
  | element found index integer =>
    simp only [targetType, csat_bind]
    refine (arrayElement_rechecks found).mono₂ fun oel st₁ s₁ hel => ?_
    subst hel
    simp only [csat_bind]
    refine (index.rechecks st₁ s₁.scopes).mono₂ fun oi st₂ s₂ hi => ?_
    subst hi
    refine (indexOk_rechecks integer).mono₂ fun ok st₃ s₃ hok => ?_
    subst hok
    cases oi <;> exact ⟨s₁.trans (s₂.trans s₃), rfl⟩
  | field found record member =>
    exact recordField_rechecks found record member

/-- Checking that a value of type `o` may be stored where `T` is wanted, when it may. -/
theorem compatible_rechecks {T : Ty} {o : Option Ty} {err : Ty → Error}
    (suits : ∀ A, o = some A → Ty.compatible T A = true) :
    CSat (match o with
      | some actual => if !Ty.compatible T actual then report (err actual) else pure ()
      | none => pure ()) st (fun _ st' => Silent st st') := by
  cases o with
  | none => exact Silent.refl st
  | some A =>
    simp only [suits A rfl, Bool.not_true, Bool.false_eq_true, ↓reduceIte]
    exact Silent.refl st

theorem checkAssignment_rechecks {t : Target} {v : Expr} {ot : Option Ty}
    (target : TargetInfers st.scopes t ot) (value : ∀ T, ot = some T → StoresInto st.scopes T v) :
    CSat (checkAssignment t v) st (fun _ st' => Silent st st') := by
  simp only [checkAssignment, csat_bind]
  refine (targetType_rechecks target).mono₂ fun o st₁ s₁ ho => ?_
  subst ho
  cases o with
  | none => exact s₁
  | some T =>
    obtain ⟨o, hv, hc⟩ := value T rfl
    simp only [csat_bind]
    refine use_silent _ fun st₂ s₂ => ?_
    refine (hv.rechecks st₂ (by rw [s₂.scopes, s₁.scopes])).mono₂ fun o' st₃ s₃ ho' => ?_
    subst ho'
    exact (compatible_rechecks hc).mono fun _ st₄ s₄ => s₁.trans (s₂.trans (s₃.trans s₄))

theorem checkReturn_rechecks {v : Option Expr} {sc : Scopes}
    (h : StmtChecks true st.returnTypes.head? sc (.ret v) sc) (hsc : st.scopes = sc) :
    CSat (checkReturn v) st (fun _ st' => Silent st st') := by
  subst hsc
  simp only [checkReturn, csat_bind, csat_get]
  cases h with
  | retValue routine nonVoid value =>
    obtain ⟨rest, hr⟩ := List.head?_eq_some_iff.mp routine
    obtain ⟨o, hv, hc⟩ := value
    simp only [hr, nonVoid, Bool.false_eq_true, ↓reduceIte, csat_bind]
    refine (hv.rechecks st rfl).mono₂ fun o' st₁ s₁ ho => ?_
    subst ho
    exact (compatible_rechecks hc).mono fun _ st₂ s₂ => s₁.trans s₂
  | retNone routine void =>
    obtain ⟨rest, hr⟩ := List.head?_eq_some_iff.mp routine
    simp only [hr, void, Bool.not_true, Bool.false_eq_true, ↓reduceIte]
    exact Silent.refl st

theorem checkPrint_rechecks {e : Expr} {o : Option Ty} (value : Infers st.scopes e o)
    (printable : ∀ T, o = some T → ∃ p, T = .prim p ∧ p ≠ .void) :
    CSat (checkPrint e) st (fun _ st' => Silent st st') := by
  simp only [checkPrint, csat_bind]
  refine (value.rechecks st rfl).mono₂ fun o' st₁ s₁ ho => ?_
  subst ho
  cases o' with
  | none => exact s₁
  | some T =>
    obtain ⟨p, rfl, hp⟩ := printable T rfl
    cases p with
    | void => exact absurd rfl hp
    | _ => exact s₁

/-- Checking a block in a scope of its own, when the block checks silently in the entered
scope and leaves scopes whose innermost one is its own: the scopes are restored after it.
What follows is `K`. -/
theorem scoped_rechecks {ss : List Stmt} {K : List Stmt → Checker → Prop}
    (block : ∀ st₁, st₁.scopes = st.scopes.enter → st₁.returnTypes = st.returnTypes →
      ∃ sc₁, sc₁.exit = st.scopes ∧ sc₁.locals ≠ [] ∧
        CSat (checkStmts ss) st₁ (fun ss' st' => ss' = ss ∧ Leaves sc₁ st₁ st'))
    (hK : ∀ st', Leaves st.scopes st st' → K ss st') :
    CSat enterScope st (fun _ st₁ => CSat (checkStmts ss) st₁ (fun ss' st₂ =>
      CSat exitScope st₂ (fun _ st₃ => K ss' st₃))) := by
  refine enterScope_sat fun st₁ hs₁ r₁ q₁ => ?_
  obtain ⟨sc₁, hexit, hne, hb⟩ := block st₁ hs₁ r₁.returnTypes
  refine hb.mono₂ fun ss' st₂ hss l₂ => ?_
  subst hss
  refine exitScope_sat fun st₃ hs₃ r₃ q₃ => hK st₃ ⟨?_, ?_, ?_⟩
  · exact q₃.trans (l₂.quiet.trans q₁)
  · rw [hs₃ (by rw [l₂.scopes]; exact hne), l₂.scopes, hexit]
  · rw [r₃.returnTypes, l₂.returnTypes, r₁.returnTypes]

/-- Checking a declaration with a written type that the judgment accepts. -/
theorem checkVarDecl_rechecks {n : String} {t T : Ty} {init : Option Expr}
    (fresh : st.scopes.isDefinedHere n = false) (valid : t.isValid st.scopes.env = true)
    (resolved : t.resolveDeep st.scopes.env = .ok T)
    (initial : ∀ i, init = some i → StoresInto st.scopes T i) :
    CSat (checkVarDecl n (some t) init) st (fun s' st' => s' = .varDecl n (some t) init ∧
      Leaves (st.scopes.declare n T) st st') := by
  unfold checkVarDecl
  simp only [csat_bind, csat_scopes, fresh, Bool.false_eq_true, ↓reduceIte]
  refine (resolveReported_rechecks valid resolved).mono₂ fun o st₁ s₁ ho => ?_
  subst ho
  -- after the initializer, the declared type is what the scopes gain
  have declare : ∀ st₂, Silent st st₂ → CSat (declareVar n T) st₂ (fun _ st₃ =>
      CSat (pure (Stmt.varDecl n (some t) init)) st₃ (fun s' st' =>
        s' = .varDecl n (some t) init ∧ Leaves (st.scopes.declare n T) st st')) := by
    intro st₂ s₂
    refine declareVar_sat n T fun st₃ hs₃ r₃ q₃ => ?_
    rw [csat_pure]
    exact ⟨rfl, s₂.then_leaves ⟨q₃, by rw [hs₃, s₂.scopes], r₃.returnTypes⟩⟩
  cases init with
  | none =>
    simp only [csat_bind]
    exact declare st₁ s₁
  | some i =>
    obtain ⟨o, hi, hc⟩ := initial i rfl
    simp only [csat_bind]
    refine (hi.rechecks st₁ s₁.scopes).mono₂ fun o' st₂ s₂ ho => ?_
    subst ho
    cases o' with
    | none =>
      simp only [csat_bind]
      exact declare st₂ (s₁.trans s₂)
    | some A =>
      simp only [hc A rfl, Bool.not_true, Bool.false_eq_true, ↓reduceIte, csat_bind]
      exact declare st₂ (s₁.trans s₂)

/-- Checking a declaration without a type whose initializer has none. -/
theorem checkVarDecl_untyped_rechecks {n : String} {i : Expr}
    (fresh : st.scopes.isDefinedHere n = false) (initial : Infers st.scopes i none) :
    CSat (checkVarDecl n none (some i)) st (fun s' st' => s' = .varDecl n none (some i) ∧
      Leaves st.scopes st st') := by
  unfold checkVarDecl
  simp only [csat_bind, csat_scopes, fresh, Bool.false_eq_true, ↓reduceIte]
  refine (initial.rechecks st rfl).mono₂ fun o st₁ s₁ ho => ?_
  subst ho
  exact ⟨rfl, s₁.leaves⟩

theorem checkArrayDecl_rechecks {n : String} {el E : Ty} {size : Int}
    (fresh : st.scopes.isDefinedHere n = false) (positive : 0 < size)
    (valid : el.isValid st.scopes.env = true) (resolved : el.resolveDeep st.scopes.env = .ok E) :
    CSat (checkArrayDecl n el size) st (fun _ st' =>
      Leaves (st.scopes.declare n (.array E size)) st st') := by
  have hsize : ¬ size ≤ 0 := by omega
  simp only [checkArrayDecl, csat_bind, csat_scopes, fresh, Bool.false_eq_true, ↓reduceIte,
    hsize]
  refine (resolveReported_rechecks valid resolved).mono₂ fun o st₁ s₁ ho => ?_
  subst ho
  exact declareVar_sat n _ fun st₂ hs₂ r₂ q₂ =>
    s₁.then_leaves ⟨q₂, by rw [hs₂, s₁.scopes], r₂.returnTypes⟩

end Helpers

end Check

section Statements

open Check

mutual

/-- Checking a statement the judgment accepts, with loop variables visible, reports nothing,
returns the statement as it is and leaves the scopes the judgment says. -/
theorem StmtChecks.rechecks {ret : Option Ty} : ∀ {sc sc' : Scopes} {s : Stmt},
    StmtChecks true ret sc s sc' → ∀ st : Checker, st.scopes = sc → st.returnTypes.head? = ret →
      CSat (checkStmt s) st (fun s' st' => s' = s ∧ Leaves sc' st st') := by
  intro sc sc' s h st hsc hret
  subst hsc
  cases h with
  | declare fresh valid resolved initial =>
    rw [checkStmt]
    exact checkVarDecl_rechecks fresh valid resolved initial
  | declareUntyped fresh initial =>
    rw [checkStmt]
    exact checkVarDecl_untyped_rechecks fresh initial
  | array fresh positive valid resolved =>
    simp only [checkStmt, csat_bind, csat_pure]
    exact (checkArrayDecl_rechecks fresh positive valid resolved).mono fun _ _ l => ⟨trivial, l⟩
  | assign target value =>
    simp only [checkStmt, csat_bind, csat_pure]
    exact (checkAssignment_rechecks target value).mono fun _ _ s₁ => ⟨trivial, s₁.leaves⟩
  | ifThen cond boolean thenBranch elseBranch =>
    simp only [checkStmt, csat_bind, csat_pure]
    refine (cond.rechecks st rfl).mono₂ fun oc st₁ s₁ hc => ?_
    subst hc
    refine (checkCondition_rechecks boolean).mono fun _ st₂ s₂ => ?_
    have s₁₂ := s₁.trans s₂
    -- each branch runs in a scope of its own, which it leaves as its innermost one
    have hthen := thenBranch.exit_eq (by simp)
    have helse := elseBranch.exit_eq (by simp)
    refine scoped_rechecks (fun st₃ hs₃ hr₃ => ⟨_, by rw [hthen.1, s₁₂.scopes]; rfl, hthen.2,
      thenBranch.rechecks st₃ (by rw [hs₃, s₁₂.scopes])
        (by rw [hr₃, s₁₂.1.returnTypes, hret])⟩) fun st₄ l₄ => ?_
    refine scoped_rechecks (fun st₅ hs₅ hr₅ => ⟨_, by rw [helse.1, l₄.scopes, s₁₂.scopes]; rfl,
      helse.2, elseBranch.rechecks st₅ (by rw [hs₅, l₄.scopes, s₁₂.scopes])
        (by rw [hr₅, l₄.returnTypes, s₁₂.1.returnTypes, hret])⟩) fun st₆ l₆ => ?_
    refine ⟨rfl, s₁₂.then_leaves (l₄.trans ?_)⟩
    rw [← s₁₂.scopes, ← l₄.scopes]
    exact l₆
  | whileDo cond boolean body =>
    simp only [checkStmt, csat_bind, csat_pure]
    refine (cond.rechecks st rfl).mono₂ fun oc st₁ s₁ hc => ?_
    subst hc
    refine (checkCondition_rechecks boolean).mono fun _ st₂ s₂ => ?_
    have s₁₂ := s₁.trans s₂
    have hbody := body.exit_eq (by simp)
    refine scoped_rechecks (fun st₃ hs₃ hr₃ => ⟨_, by rw [hbody.1, s₁₂.scopes]; rfl, hbody.2,
      body.rechecks st₃ (by rw [hs₃, s₁₂.scopes])
        (by rw [hr₃, s₁₂.1.returnTypes, hret])⟩) fun st₄ l₄ => ?_
    refine ⟨rfl, s₁₂.then_leaves ?_⟩
    rw [← s₁₂.scopes]
    exact l₄
  | @forRange _ _ v _ _ _ _ _ _ start startInteger stop stopInteger loopVariable _ body =>
    simp only [checkStmt, csat_bind, csat_pure]
    refine (start.rechecks st rfl).mono₂ fun os st₁ s₁ hs => ?_
    subst hs
    refine (checkBound_rechecks startInteger).mono fun _ st₂ s₂ => ?_
    refine (stop.rechecks st₂ (by rw [s₂.scopes, s₁.scopes])).mono₂ fun oe st₃ s₃ he => ?_
    subst he
    refine (checkBound_rechecks stopInteger).mono fun _ st₄ s₄ => ?_
    have s₁₄ := s₁.trans (s₂.trans (s₃.trans s₄))
    have loop := loopVariable rfl
    rw [← s₁₄.scopes] at loop
    refine (checkLoopVariable_rechecks loop).mono fun _ st₅ s₅ => ?_
    have s₁₅ := s₁₄.trans s₅
    -- the body runs in the loop's own scope, which holds the counter
    refine enterScope_sat fun st₆ hs₆ r₆ q₆ => ?_
    refine declareVar_sat v .integer fun st₇ hs₇ r₇ q₇ => ?_
    have inner : st₇.scopes = st.scopes.enter.declare v .integer := by
      rw [hs₇, hs₆, s₁₅.scopes]
    have hbody := body.exit_eq (Scopes.declare_locals_ne_nil _ _ _ (by simp))
    refine (body.rechecks st₇ inner (by rw [r₇.returnTypes, r₆.returnTypes, s₁₅.1.returnTypes,
      hret])).mono₂ fun b' st₈ hb l₈ => ?_
    subst hb
    refine exitScope_sat fun st₉ hs₉ r₉ q₉ => ⟨rfl, s₁₅.then_leaves ⟨?_, ?_, ?_⟩⟩
    · exact q₉.trans (l₈.quiet.trans (q₇.trans q₆))
    · rw [hs₉ (by rw [l₈.scopes]; exact hbody.2), l₈.scopes, hbody.1,
        Scopes.exit_declare _ _ _ (by simp), Scopes.exit_enter]
    · rw [r₉.returnTypes, l₈.returnTypes, r₇.returnTypes, r₆.returnTypes]
  | call found count arguments =>
    simp only [checkStmt, csat_bind]
    refine (callee_rechecks found count).mono₂ fun osig st₁ s₁ hsig => ?_
    subst hsig
    simp only [csat_bind, csat_pure]
    exact (arguments.rechecks _ _ 0 st₁ s₁.scopes List.drop_zero).mono fun _ _ s₂ =>
      ⟨trivial, (s₁.trans s₂).leaves⟩
  | retValue routine nonVoid value =>
    simp only [checkStmt, csat_bind, csat_pure]
    rw [← hret] at routine
    exact (checkReturn_rechecks (.retValue routine nonVoid value) rfl).mono fun _ _ s₁ =>
      ⟨trivial, s₁.leaves⟩
  | retNone routine void =>
    simp only [checkStmt, csat_bind, csat_pure]
    rw [← hret] at routine
    exact (checkReturn_rechecks (.retNone routine void) rfl).mono fun _ _ s₁ => ⟨trivial, s₁.leaves⟩
  | print value printable =>
    simp only [checkStmt, csat_bind, csat_pure]
    exact (checkPrint_rechecks value printable).mono fun _ _ s₁ => ⟨trivial, s₁.leaves⟩

/-- Checking a block the judgment accepts reports nothing, returns the block as it is and
leaves the scopes the judgment says. -/
theorem BlockChecks.rechecks {ret : Option Ty} : ∀ {sc sc' : Scopes} {ss : List Stmt},
    BlockChecks true ret sc ss sc' → ∀ st : Checker, st.scopes = sc → st.returnTypes.head? = ret →
      CSat (checkStmts ss) st (fun ss' st' => ss' = ss ∧ Leaves sc' st st') := by
  intro sc sc' ss h st hsc hret
  subst hsc
  cases h with
  | nil => exact ⟨rfl, (Silent.refl st).leaves⟩
  | cons head tail =>
    simp only [checkStmts, csat_bind, csat_pure]
    refine (head.rechecks st rfl hret).mono₂ fun s' st₁ hs l₁ => ?_
    subst hs
    exact (tail.rechecks st₁ l₁.scopes (by rw [l₁.returnTypes, hret])).mono₂
      fun ss' st₂ hss l₂ => ⟨by rw [hss], l₁.trans l₂⟩

end

end Statements

/-! ## Routines -/

section Routines

open Check

/-- Declaring parameters keeps the declared types. -/
theorem ParamsDeclare.env_eq {sc sc' : Scopes} {ps : List Param} (h : ParamsDeclare sc ps sc') :
    sc'.env = sc.env := by
  induction h with
  | nil => rfl
  | cons _ _ _ _ ih => exact ih.trans (Scopes.declare_types _ _ _)

/-- Declaring parameters the judgment accepts reports nothing and leaves the scopes it says. -/
theorem ParamsDeclare.rechecks (name : String) {sc sc' : Scopes} {ps : List Param}
    (h : ParamsDeclare sc ps sc') : ∀ st : Checker, st.scopes = sc →
      CSat (declareParams name ps) st (fun _ st' => Leaves sc' st st') := by
  induction h with
  | nil =>
    intro st hsc
    rw [← hsc]
    exact (Silent.refl st).leaves
  | cons fresh valid resolved _ ih =>
    intro st hsc
    subst hsc
    simp only [declareParams, csat_bind, csat_scopes, fresh, Bool.false_eq_true, ↓reduceIte]
    refine (resolveReported_rechecks valid resolved).mono₂ fun o st₁ s₁ ho => ?_
    subst ho
    rw [csat_bind]
    refine declareVar_sat _ _ fun st₂ hs₂ r₂ q₂ => ?_
    rw [s₁.scopes] at hs₂
    exact (ih st₂ hs₂).mono fun _ st₃ l₃ =>
      s₁.then_leaves (Leaves.trans ⟨q₂, hs₂, r₂.returnTypes⟩ l₃)

/-- The rest of a routine's check, once its return type `R` is known, on a body the judgment
accepts that ends in a return unless `R` is void: it reports nothing, returns the body and
leaves the routine's scope. -/
theorem routineTail_rechecks {name : String} {R : Ty} {b : List Stmt} {st : Checker}
    {sc' : Scopes} (body : BlockChecks true (some R) st.scopes b sc')
    (ends : R.isVoid = false → endsWithReturn b = true) (hl : st.scopes.locals ≠ []) : CSat (do
      modify fun st => { st with returnTypes := R :: st.returnTypes }
      let body' ← checkStmts b
      if (!R.isVoid && !endsWithReturn body') = true then report (.missingReturn name)
      modify fun st => { st with returnTypes := st.returnTypes.drop 1 }
      exitScope
      pure body') st (fun b' st' => b' = b ∧ Leaves st.scopes.exit st st') := by
  simp only [csat_bind, csat_modify]
  refine (body.rechecks { st with returnTypes := R :: st.returnTypes } rfl rfl).mono₂
    fun b' st₁ hb l₁ => ?_
  subst hb
  have complete : (!R.isVoid && !endsWithReturn b') = false := by
    cases hv : R.isVoid with
    | true => rfl
    | false => simp [ends hv]
  simp only [complete, Bool.false_eq_true, ↓reduceIte, csat_bind, csat_modify, csat_pure]
  have hexit := body.exit_eq hl
  refine exitScope_sat fun st₂ hs₂ r₂ q₂ => ⟨trivial, q₂.trans l₁.quiet, ?_, ?_⟩
  · rw [hs₂ (by rw [l₁.scopes]; exact hexit.2), l₁.scopes, hexit.1]
  · rw [r₂.returnTypes, l₁.returnTypes]
    rfl

/-- Checking a routine the judgment accepts reports nothing, returns its body as it is and
restores the scopes. -/
theorem RoutineChecks.rechecks {sc : Scopes} {ps : List Param} {r : Option Ty} {b : List Stmt}
    (h : RoutineChecks true sc ps r b) (name : String) (st : Checker) (hsc : st.scopes = sc) :
    CSat (checkRoutineBody name ps r b) st (fun b' st' => b' = b ∧ Leaves sc st st') := by
  obtain ⟨params, returns, body, ends⟩ := h
  subst hsc
  unfold checkRoutineBody
  simp only [csat_bind]
  refine enterScope_sat fun st₁ hs₁ r₁ q₁ => ?_
  refine (params.rechecks name st₁ hs₁).mono fun _ st₂ l₂ => ?_
  -- the parameters stay in the routine's own scope, which the body leaves again
  have hexit := params.exit_eq (by simp)
  have entered : Leaves _ st st₂ := Leaves.trans ⟨q₁, hs₁, r₁.returnTypes⟩ l₂
  have finish : ∀ st₃ b' st₄, Silent st₂ st₃ → (b' = b ∧ Leaves st₃.scopes.exit st₃ st₄) →
      b' = b ∧ Leaves st.scopes st st₄ := by
    rintro st₃ b' st₄ s₃ ⟨hb, l₄⟩
    refine ⟨hb, entered.trans (s₃.then_leaves ?_)⟩
    rw [s₃.scopes, l₂.scopes, hexit.1, Scopes.exit_enter] at l₄
    exact l₄
  cases r with
  | none =>
    obtain rfl : _ = Ty.void := returns
    simp only [pure_bind]
    exact (routineTail_rechecks (l₂.scopes ▸ body) ends (l₂.scopes ▸ hexit.2)).mono
      fun b' st₄ h₄ => finish st₂ b' st₄ (Silent.refl st₂) h₄
  | some t =>
    obtain ⟨valid, resolved⟩ := returns
    have henv : st₂.scopes.env = st.scopes.env := by rw [l₂.scopes, params.env_eq]; rfl
    rw [← henv] at valid resolved
    simp only [pure_bind]
    rw [csat_bind]
    refine (resolveReported_rechecks valid resolved).mono₂ fun o st₃ s₃ ho => ?_
    subst ho
    rw [← l₂.scopes, ← s₃.scopes] at body hexit
    exact (routineTail_rechecks body ends hexit.2).mono fun b' st₄ h₄ => finish st₃ b' st₄ s₃ h₄

end Routines

/-! ## The walk -/

section Walk

open Check

/-- Pass 1 on one statement, read off its heading. -/
def signatureStep : Option Stmt → CheckM Unit
  | some (.routine n ps r _) => declareRoutine n ps r
  | _ => pure ()

/-- Pass 2 on one statement, read off its heading. -/
def typeStep : Option Stmt → CheckM Unit
  | some (.recordType n fs) => declareRecord n fs
  | some (.typeAlias n t) => declareAlias n t
  | _ => pure ()

theorem declareSignatures_cons (s : Stmt) (ss : List Stmt) :
    declareSignatures (s :: ss) = signatureStep s.heading >>= fun _ => declareSignatures ss := by
  simp only [declareSignatures, List.forIn_cons, bind_assoc]
  cases s <;> rfl

theorem declareTypes_cons (s : Stmt) (ss : List Stmt) :
    declareTypes (s :: ss) = typeStep s.heading >>= fun _ => declareTypes ss := by
  simp only [declareTypes, List.forIn_cons, bind_assoc]
  cases s <;> rfl

/-- The first two passes read only the headings of the statements. -/
theorem declarations_congr : ∀ (ss ss' : List Stmt), ss'.map Stmt.heading = ss.map Stmt.heading →
    declareSignatures ss' = declareSignatures ss ∧ declareTypes ss' = declareTypes ss := by
  intro ss
  induction ss with
  | nil =>
    intro ss' h
    cases ss' with
    | nil => exact ⟨rfl, rfl⟩
    | cons _ _ => simp at h
  | cons s ss ih =>
    intro ss' h
    cases ss' with
    | nil => simp at h
    | cons s' ss' =>
      simp only [List.map_cons, List.cons.injEq] at h
      have tail := ih ss' h.2
      rw [declareSignatures_cons, declareSignatures_cons, declareTypes_cons, declareTypes_cons,
        h.1, tail.1, tail.2]
      exact ⟨rfl, rfl⟩

theorem declared_congr {ss ss' : List Stmt} (h : ss'.map Stmt.heading = ss.map Stmt.heading) :
    declared ss' = declared ss := by
  obtain ⟨hsig, htypes⟩ := declarations_congr ss ss' h
  simp only [declared, declarations, hsig, htypes]

/-- Pass 3 on globals the judgment accepts in order reports nothing and returns them. -/
theorem globals_rechecks : ∀ (ss : List Stmt) (st : Checker) {sc' : Scopes},
    BlockChecks true st.returnTypes.head? st.scopes (ss.filter Stmt.declaresGlobal) sc' →
      CSat (ss.mapM checkGlobal) st (fun ss' st' => ss' = ss ∧ Leaves sc' st st') := by
  intro ss
  induction ss with
  | nil =>
    intro st sc' h
    cases h
    exact ⟨rfl, (Silent.refl st).leaves⟩
  | cons s ss ih =>
    intro st sc' h
    rw [csat_mapM_cons, checkGlobal_eq]
    split
    · rename_i hg
      rw [List.filter_cons_of_pos hg] at h
      cases h with
      | cons head tail =>
        refine (head.rechecks st rfl rfl).mono₂ fun s' st₁ hs l₁ => ?_
        rw [← l₁.scopes, ← congrArg List.head? l₁.returnTypes] at tail
        exact (ih st₁ tail).mono₂ fun ss' st₂ hss l₂ =>
          ⟨by rw [hs, hss], l₁.trans l₂⟩
    · rename_i hg
      rw [List.filter_cons_of_neg hg] at h
      rw [csat_pure]
      exact (ih st h).mono₂ fun ss' st₂ hss l₂ => ⟨by rw [hss], l₂⟩

/-- A pass each of whose steps checks silently and returns its statement. -/
theorem mapM_rechecks (f : Stmt → CheckM Stmt) {sc : Scopes} {rt : List Ty} : ∀ (ss : List Stmt),
    (∀ s ∈ ss, ∀ st : Checker, st.scopes = sc → st.returnTypes = rt →
      CSat (f s) st (fun s' st' => s' = s ∧ Leaves sc st st')) →
    ∀ st : Checker, st.scopes = sc → st.returnTypes = rt →
      CSat (ss.mapM f) st (fun ss' st' => ss' = ss ∧ Leaves sc st st') := by
  intro ss
  induction ss with
  | nil =>
    intro _ st hsc _
    simp only [List.mapM_nil, csat_pure]
    rw [← hsc]
    exact ⟨trivial, (Silent.refl st).leaves⟩
  | cons s ss ih =>
    intro hf st hsc hrt
    rw [csat_mapM_cons]
    refine (hf s List.mem_cons_self st hsc hrt).mono₂ fun s' st₁ hs l₁ => ?_
    refine (ih (fun s hs => hf s (List.mem_cons_of_mem _ hs)) st₁ l₁.scopes
      (l₁.returnTypes.trans hrt)).mono₂ fun ss' st₂ hss l₂ => ⟨by rw [hs, hss], l₁.trans l₂⟩

theorem checkRoutine_rechecks {s : Stmt} {sc : Scopes} {st : Checker}
    (h : ∀ n ps r b, s = .routine n ps r b → RoutineChecks true sc ps r b) (hsc : st.scopes = sc) :
    CSat (checkRoutine s) st (fun s' st' => s' = s ∧ Leaves sc st st') := by
  cases s with
  | routine n ps r b =>
    simp only [checkRoutine, csat_bind, csat_pure]
    exact ((h n ps r b rfl).rechecks n st hsc).mono₂ fun b' st' hb l => ⟨by rw [hb], l⟩
  | _ =>
    show CSat (pure _) st _
    rw [csat_pure, ← hsc]
    exact ⟨rfl, (Silent.refl st).leaves⟩

theorem checkMain_rechecks {s : Stmt} {sc : Scopes} {st : Checker}
    (h : isDeclaration s = false → StmtChecks true none sc s sc) (hsc : st.scopes = sc)
    (hret : st.returnTypes.head? = none) :
    CSat (checkMain s) st (fun s' st' => s' = s ∧ Leaves sc st st') := by
  unfold checkMain
  split
  · rw [csat_pure, ← hsc]
    exact ⟨rfl, (Silent.refl st).leaves⟩
  · rename_i hd
    exact (h (by simpa using hd)).rechecks st hsc hret

/-- A program the judgment accepts from the scopes its first two passes leave, when those
passes report nothing, is walked without a diagnostic and returned as it is. -/
theorem walk_rechecks {ss : List Stmt} {sc' : Scopes} (hq : (declared ss).diagnostics = [])
    (acc : Accepts true (declared ss).scopes sc' ss) :
    CSat (walk ⟨ss⟩) ⟨Scopes.empty, [], [], [], []⟩ (fun p' st' => p' = ⟨ss⟩ ∧ st'.diagnostics = []) := by
  rw [walk_eq]
  simp only [csat_bind, csat_note, csat_get, csat_pure]
  refine (declarations_sat ss _ fun _ _ h => absurd h List.not_mem_nil).with_state.mono
    fun _ st₁ h₁ => ?_
  obtain ⟨⟨d₁, _, _⟩, hst₁⟩ := h₁
  have hret : st₁.returnTypes = [] := d₁.returnTypes
  have hdecl : st₁ = declared ss := hst₁
  rw [← hdecl] at hq acc
  have globals : BlockChecks true st₁.returnTypes.head? st₁.scopes
      (ss.filter Stmt.declaresGlobal) sc' := by
    rw [hret]
    exact acc.globals
  refine (globals_rechecks ss st₁ globals).mono₂ fun ss₃ st₂ hss₃ l₂ => ?_
  subst hss₃
  refine (@mapM_rechecks checkRoutine _ [] ss₃ (fun s hs st hsc _ => checkRoutine_rechecks
      (fun n ps r b h => acc.routines n ps r b (h ▸ hs)) hsc) _ ?routinesScopes
      ?routinesReturn).mono₂ fun ss₄ st₃ hss₄ l₃ => ?_
  case routinesScopes => exact l₂.scopes
  case routinesReturn => exact l₂.returnTypes.trans hret
  subst hss₄
  refine (@mapM_rechecks checkMain _ [] ss₄ (fun s hs st hsc hrt => checkMain_rechecks
      (acc.main s hs) hsc (by rw [hrt]; rfl)) _ ?mainScopes ?mainReturn).mono₂
      fun ss₅ st₄ hss₅ l₄ => ?_
  case mainScopes => exact l₃.scopes
  case mainReturn => exact l₃.returnTypes.trans (l₂.returnTypes.trans hret)
  subst hss₅
  exact ⟨rfl, l₄.quiet.trans (l₃.quiet.trans (l₂.quiet.trans hq))⟩

end Walk

end ImpStack
