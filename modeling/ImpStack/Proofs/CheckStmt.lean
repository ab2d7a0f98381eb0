import ImpStack.Proofs.CheckExpr

/-! # A quiet check of a statement establishes its judgment

  Statements change the scopes, so a statement's run is only a `Steps`: it keeps the return
  types of the routines being walked and only adds diagnostics. A quiet run of `checkStmt`
  establishes `StmtChecks` for the statement it returns, with the loop variables visible
  (`checkStmt_quiet`), and a quiet run of `checkStmts` establishes `BlockChecks`.

  A statement the checker returns differs from the one it was given in one way: a
  declaration without a type gets its initializer's. For the judgment of the returned
  declaration that type must be valid, as a written one is. It is, in the scopes a clean walk
  works in (`Scopes.WellFormed`): there every type a check gives is valid, because resolution
  keeps validity and every type it starts from is valid (`Infers.valid`). The argument is the
  same for every property of types that resolution keeps and that array elements and record
  fields inherit (`Infers.inherits`).
-/

namespace ImpStack

/-! ## Validity survives resolution -/

namespace Ty

/-- Every declared type is valid. -/
def EnvValid (env : TypeEnv) : Prop := ∀ n t, env.lookup n = some t → t.isValid env = true

variable {env : TypeEnv}

theorem fieldsValid_lookup : ∀ {fs : List (String × Ty)} {f : String} {F : Ty},
    isValid.fieldsValid env fs = true → fs.lookup f = some F → F.isValid env = true := by
  intro fs
  induction fs with
  | nil => intro _ _ _ h; cases h
  | cons field rest ih =>
    intro f F hv h
    obtain ⟨g, t⟩ := field
    simp only [isValid.fieldsValid, Bool.and_eq_true] at hv
    rw [lookup_cons_ite] at h
    split at h
    · cases h; exact hv.1
    · exact ih hv.2 h

/-- Following names from a valid type ends at a valid type. -/
theorem isValid_resolveFrom (henv : EnvValid env) {o : Ty} :
    ∀ {t r : Ty} {k : Nat}, t.isValid env = true → resolveFrom env o t k = .ok r →
      r.isValid env = true := by
  intro t r k ht h
  induction k generalizing t with
  | zero => simp [resolveFrom] at h
  | succ k ih =>
    cases t with
    | named name =>
      simp only [resolveFrom] at h
      split at h
      · cases h; rfl
      · split at h
        · rename_i t' hfound
          exact ih (henv name t' hfound) h
        · cases h
    | _ => cases h; exact ht

/-- Deep resolution of a valid type gives a valid type. -/
theorem isValid_resolveDeep (henv : EnvValid env) {t r : Ty} (ht : t.isValid env = true)
    (h : t.resolveDeep env = .ok r) : r.isValid env = true := by
  unfold resolveDeep at h
  generalize depthBudget env t = k at h
  induction k generalizing t r with
  | zero => simp [resolveDeepFrom] at h
  | succ k ih =>
    simp only [resolveDeepFrom, bind, Except.bind] at h
    cases hr : t.resolve env with
    | error e => simp [hr] at h
    | ok r0 =>
      have hv : r0.isValid env = true := isValid_resolveFrom henv ht hr
      rw [hr] at h
      cases r0 with
      | array e n =>
        simp only [isValid, Bool.and_eq_true, decide_eq_true_eq] at hv
        cases he : resolveDeepFrom env e k with
        | error _ => simp [he] at h
        | ok r1 =>
          simp only [he, pure, Except.pure, Except.ok.injEq] at h
          subst h
          simp [isValid, hv.1, ih hv.2 he]
      | _ => simp only [pure, Except.pure, Except.ok.injEq] at h; subst h; exact hv

/-- An explicit conversion keeps the type or goes between scalars. -/
theorem isValidCast_cases {S T : Ty} (h : isValidCast S T = true) : T = S ∨ ∃ p, T = .prim p := by
  unfold isValidCast coercion at h
  split at h
  · rename_i heq
    exact .inl (eq_of_beq heq).symm
  · split at h <;> cases h
    all_goals
      rename_i hT
      right
      cases T with
      | prim p => exact ⟨p, rfl⟩
      | _ => simp [asPrim?] at hT

end Ty

/-! ## The scopes of a clean walk -/

namespace Scopes

/-- The scopes a clean walk works in: every variable has a resolved type, and every type the
checker can start from names only declared types and has positive sizes: a variable's type,
what a declared type stands for, and a routine's return type. -/
structure WellFormed (sc : Scopes) : Prop where
  resolved : sc.VarsResolved
  vars : ∀ n T, sc.typeOf? n = some T → T.isValid sc.env = true
  types : Ty.EnvValid sc.env
  returns : ∀ n sig, sc.routine? n = some sig → sig.returnType.isValid sc.env = true

variable {sc : Scopes}

theorem WellFormed.enter (h : sc.WellFormed) : sc.enter.WellFormed where
  resolved := h.resolved.enter
  vars n T hT := h.vars n T (by simpa using hT)
  types := h.types
  returns n sig hs := h.returns n sig hs

theorem WellFormed.declare (h : sc.WellFormed) {T : Ty} (hr : T.Resolved)
    (hv : T.isValid sc.env = true) (n : String) : (sc.declare n T).WellFormed where
  resolved := h.resolved.declare hr n
  vars m U hU := by
    rw [typeOf?_declare] at hU
    rw [declare_env]
    split at hU
    · cases hU; exact hv
    · exact h.vars m U hU
  types := by rw [declare_env]; exact h.types
  returns m sig hs := by
    rw [routine?_declare] at hs
    rw [declare_env]
    exact h.returns m sig hs

end Scopes

/-! ## What a clean check of an expression gives -/

section Inherits

variable {sc : Scopes} (Good : Ty → Prop)

/-- A property of types that scalars have, that deep resolution keeps, and that array elements
and record fields inherit holds of every type a clean check gives, once it holds of the
variables' types and of the routines' return types: a cast gives its operand's type or a
scalar, and every other type comes from resolving one of those. -/
theorem Infers.inherits (prim : ∀ p, Good (.prim p))
    (resolve : ∀ t r, Good t → t.resolveDeep sc.env = .ok r → Good r)
    (element : ∀ e n, Good (.array e n) → Good e)
    (field : ∀ n fs f F, Good (.record n fs) → fs.lookup f = some F → Good F)
    (vars : ∀ n T, sc.typeOf? n = some T → Good T)
    (returns : ∀ n sig, sc.routine? n = some sig → Good sig.returnType) :
    ∀ {e : Expr} {o : Option Ty}, Infers sc e o → ∀ {T : Ty}, o = some T → Good T := by
  intro e o he T h
  cases he with
  | int | real | bool | str => cases h; exact prim _
  | var found => cases h; exact vars _ _ found
  | binary =>
    simp only [Option.bind_eq_some_iff] at h
    obtain ⟨_, -, _, -, hT⟩ := h
    obtain ⟨p, rfl⟩ := Ty.binaryResult_prim hT
    exact prim p
  | unary operand =>
    simp only [Option.bind_eq_some_iff] at h
    obtain ⟨E, hE, hT⟩ := h
    rcases Ty.unaryResult_cases hT with rfl | rfl
    · exact prim _
    · exact operand.inherits prim resolve element field vars returns hE
  | index found =>
    simp only [Option.bind_eq_some_iff, Except.toOption_eq_some] at h
    obtain ⟨_, -, hT⟩ := h
    exact resolve _ _ (element _ _ (vars _ _ found)) hT
  | field found record member =>
    rw [Except.toOption_eq_some] at h
    have hR := resolve _ _ (vars _ _ found) record
    exact resolve _ _ (field _ _ _ _ hR member) h
  | call found =>
    rw [Except.toOption_eq_some] at h
    exact resolve _ _ (returns _ _ found) h
  | cast operand _ _ castable =>
    simp only [Option.map_eq_some_iff] at h
    obtain ⟨S, hS, rfl⟩ := h
    rcases Ty.isValidCast_cases (castable S hS) with rfl | ⟨p, rfl⟩
    · exact operand.inherits prim resolve element field vars returns hS
    · exact prim p

end Inherits

/-- In the scopes of a clean walk every type a clean check gives is valid. -/
theorem Infers.valid {sc : Scopes} (hwf : sc.WellFormed) {e : Expr} {o : Option Ty}
    (he : Infers sc e o) {T : Ty} (h : o = some T) : T.isValid sc.env = true :=
  he.inherits (fun T => T.isValid sc.env = true) (fun _ => rfl)
    (fun _ _ ht hr => Ty.isValid_resolveDeep hwf.types ht hr)
    (fun _ _ h => by simp only [Ty.isValid, Bool.and_eq_true] at h; exact h.2)
    (fun _ _ _ _ h hF => Ty.fieldsValid_lookup (by simpa [Ty.isValid] using h) hF)
    hwf.vars hwf.returns h

mutual

/-- Checking an expression only reads the variables it names, the routines and the declared
types: in scopes that agree on those it establishes the same. -/
theorem Infers.congr {sc sc' : Scopes} (env : sc'.env = sc.env)
    (routines : ∀ n, sc'.routine? n = sc.routine? n) :
    ∀ {e : Expr} {o : Option Ty}, Infers sc e o → (∀ n ∈ e.names, sc'.typeOf? n = sc.typeOf? n) →
      Infers sc' e o := by
  intro e o he h
  cases he with
  | int v => exact .int v
  | real x => exact .real x
  | bool b => exact .bool b
  | str s => exact .str s
  | var found => exact .var ((h _ (by simp [Expr.names])).trans found)
  | binary left right suits =>
    exact .binary (left.congr env routines fun n hn => h n (by simp [Expr.names, hn]))
      (right.congr env routines fun n hn => h n (by simp [Expr.names, hn])) suits
  | unary operand suits =>
    exact .unary (operand.congr env routines fun n hn => h n (by simpa [Expr.names] using hn)) suits
  | index found index integer =>
    have := Infers.index ((h _ (by simp [Expr.names])).trans found)
      (index.congr env routines fun n hn => h n (by simp [Expr.names, hn])) integer
    rwa [env] at this
  | field found record member =>
    have := Infers.field ((h _ (by simp [Expr.names])).trans found) (env ▸ record) member
    rwa [env] at this
  | call found count arguments nonVoid =>
    have := Infers.call ((routines _).trans found) count
      (arguments.congr env routines fun n hn => h n (by simpa [Expr.names] using hn))
      (env ▸ nonVoid)
    rwa [env] at this
  | cast operand valid resolved castable =>
    exact .cast (operand.congr env routines fun n hn => h n (by simpa [Expr.names] using hn))
      (env ▸ valid) (env ▸ resolved) castable

/-- Arguments check the same in scopes that agree on the variables they name. -/
theorem ArgsInfer.congr {sc sc' : Scopes} (env : sc'.env = sc.env)
    (routines : ∀ n, sc'.routine? n = sc.routine? n) :
    ∀ {ps : List Ty} {args : List Expr}, ArgsInfer sc ps args →
      (∀ n ∈ Expr.namesOf args, sc'.typeOf? n = sc.typeOf? n) → ArgsInfer sc' ps args := by
  intro ps args ha h
  cases ha with
  | nil => exact .nil
  | cons head suits tail =>
    exact .cons (head.congr env routines fun n hn => h n (by simp [Expr.namesOf, hn]))
      (env ▸ suits) (tail.congr env routines fun n hn => h n (by simp [Expr.namesOf, hn]))

end

/-! ## What the walk reads first -/

/-- What the walk reads of a top-level statement before checking it: the signature of a
routine, a type declaration, and whether the statement declares a variable or an array, and
which; nothing else. Checking a statement and folding its constants keep it. -/
def Stmt.heading : Stmt → Option Stmt
  | .routine n ps r _ => some (.routine n ps r [])
  | .recordType n fs => some (.recordType n fs)
  | .typeAlias n t => some (.typeAlias n t)
  | .varDecl n _ _ => some (.varDecl n none none)
  | .arrayDecl n el size => some (.arrayDecl n el size)
  | _ => none

namespace Check

/-! ## Steps of the walk -/

/-- A step of the walk keeps the return types of the routines being walked, the declared types
and the routines, and only adds diagnostics; unlike a read, it may change the variables. -/
structure Steps (st st' : Checker) : Prop where
  returnTypes : st'.returnTypes = st.returnTypes
  types : st'.scopes.types = st.scopes.types
  routines : st'.scopes.routines = st.scopes.routines
  grows : ∃ l, st'.diagnostics = st.diagnostics ++ l

theorem Reads.steps {st st' : Checker} (h : Reads st st') : Steps st st' :=
  ⟨h.returnTypes, by rw [h.scopes], by rw [h.scopes], h.grows⟩

theorem Steps.refl (st : Checker) : Steps st st := ⟨rfl, rfl, rfl, [], by simp⟩

theorem Steps.trans {st₁ st₂ st₃ : Checker} (h₁ : Steps st₁ st₂) (h₂ : Steps st₂ st₃) :
    Steps st₁ st₃ := by
  obtain ⟨l₁, hl₁⟩ := h₁.grows
  obtain ⟨l₂, hl₂⟩ := h₂.grows
  exact ⟨h₂.returnTypes.trans h₁.returnTypes, h₂.types.trans h₁.types,
    h₂.routines.trans h₁.routines, l₁ ++ l₂, by rw [hl₂, hl₁, List.append_assoc]⟩

/-- Diagnostics are only added, so a quiet run of two parts is quiet in both. -/
theorem Quiet.of_grows {st₁ st₂ st₃ : Checker} (h₁ : ∃ l, st₂.diagnostics = st₁.diagnostics ++ l)
    (h₂ : ∃ l, st₃.diagnostics = st₂.diagnostics ++ l) (hq : Quiet st₁ st₃) :
    Quiet st₁ st₂ ∧ Quiet st₂ st₃ := by
  obtain ⟨l₁, hl₁⟩ := h₁
  obtain ⟨l₂, hl₂⟩ := h₂
  unfold Quiet at *
  rw [hl₂, hl₁, List.append_assoc] at hq
  have hnil : l₁ ++ l₂ = [] := List.append_cancel_left (hq.trans (List.append_nil _).symm)
  obtain ⟨rfl, rfl⟩ := List.append_eq_nil_iff.mp hnil
  simp [hl₁, hl₂]

theorem Steps.split {st₁ st₂ st₃ : Checker} (h₁ : Steps st₁ st₂) (h₂ : Steps st₂ st₃)
    (hq : Quiet st₁ st₃) : Quiet st₁ st₂ ∧ Quiet st₂ st₃ :=
  Quiet.of_grows h₁.grows h₂.grows hq

/-- A run of steps one of which is loud is loud. -/
theorem Steps.loud {st st₁ st₂ : Checker} {P : Prop} (h₁ : Steps st st₁) (h₂ : Steps st₁ st₂)
    (nq : ¬ Quiet st st₁ ∨ ¬ Quiet st₁ st₂) : Steps st st₂ ∧ (Quiet st st₂ → P) :=
  ⟨h₁.trans h₂, fun hq => by
    obtain ⟨q₁, q₂⟩ := h₁.split h₂ hq
    exact absurd (nq.elim (absurd q₁) (absurd q₂)) not_false⟩

section Rules

variable {α β : Type} {st : Checker} {Q : β → Checker → Prop}

@[simp] theorem csat_modify (f : Checker → Checker) {Q : Unit → Checker → Prop} :
    CSat (modify f) st Q ↔ Q () (f st) := Iff.rfl

@[simp] theorem csat_get {Q : Checker → Checker → Prop} : CSat get st Q ↔ Q st st := Iff.rfl

@[simp] theorem csat_note (level : Level) (source : Source) (message : String)
    {Q : Unit → Checker → Prop} :
    CSat (note level source message) st Q ↔
      Q () { st with log := st.log ++ [⟨level, source, message⟩] } := Iff.rfl

/-- `CSat.mono` for a postcondition that is a conjunction, its parts taken apart. -/
theorem CSat.mono₂ {m : CheckM β} {P R Q' : β → Checker → Prop}
    (h : CSat m st fun b st' => P b st' ∧ R b st') (hQ : ∀ b st', P b st' → R b st' → Q' b st') :
    CSat m st Q' :=
  hQ _ _ h.1 h.2

theorem CSat.mono₃ {m : CheckM β} {P R S Q' : β → Checker → Prop}
    (h : CSat m st fun b st' => P b st' ∧ R b st' ∧ S b st')
    (hQ : ∀ b st', P b st' → R b st' → S b st' → Q' b st') : CSat m st Q' :=
  hQ _ _ h.1 h.2.1 h.2.2

/-- Two facts about the same run. -/
theorem CSat.and {m : CheckM β} {P R : β → Checker → Prop} (h₁ : CSat m st P) (h₂ : CSat m st R) :
    CSat m st (fun b st' => P b st' ∧ R b st') :=
  ⟨h₁, h₂⟩

/-- A fact that needs another one about the same run. -/
theorem CSat.imp {m : CheckM β} {P R : β → Checker → Prop}
    (h : CSat m st fun b st' => P b st' → R b st') (hP : CSat m st P) : CSat m st R :=
  h hP

/-- A step that only changes the variables, the used names or the log. -/
theorem Steps.of_quiet {st st' : Checker} (hr : st'.returnTypes = st.returnTypes)
    (ht : st'.scopes.types = st.scopes.types) (hro : st'.scopes.routines = st.scopes.routines)
    (hd : Quiet st st') : Steps st st' :=
  ⟨hr, ht, hro, [], by rw [hd, List.append_nil]⟩

theorem enterScope_sat {Q : Unit → Checker → Prop}
    (hQ : ∀ st', st'.scopes = st.scopes.enter → Steps st st' → Quiet st st' → Q () st') :
    CSat enterScope st Q := by
  simp only [enterScope, csat_bind, csat_modify, csat_scopes, csat_note]
  exact hQ _ rfl (Steps.of_quiet rfl rfl rfl rfl) rfl

theorem exitScope_sat {Q : Unit → Checker → Prop}
    (hQ : ∀ st', (st.scopes.locals ≠ [] → st'.scopes = st.scopes.exit) → Steps st st' →
      Quiet st st' → Q () st') :
    CSat exitScope st Q := by
  simp only [exitScope, csat_bind, csat_scopes]
  split
  · simp only [csat_modify, csat_bind, csat_scopes, csat_note]
    exact hQ _ (fun _ => rfl) (Steps.of_quiet rfl rfl rfl rfl) rfl
  · rename_i h
    exact hQ st (fun hl => absurd (by simpa using h) hl) (Steps.refl st) rfl

theorem declareVar_sat (n : String) (T : Ty) {Q : Unit → Checker → Prop}
    (hQ : ∀ st', st'.scopes = st.scopes.declare n T → Steps st st' → Quiet st st' → Q () st') :
    CSat (declareVar n T) st Q :=
  hQ _ rfl (Steps.of_quiet rfl (Scopes.declare_types _ _ _) (Scopes.declare_routines _ _ _) rfl) rfl

end Rules

/-! ## The checks of one statement -/

section Helpers

variable {st : Checker} (loops : Bool) (ret : Option Ty)

theorem checkCondition_sat (construct : String) (o : Option Ty) :
    CSat (checkCondition construct o) st (fun _ st' => Reads st st' ∧
      (Quiet st st' → ∀ T, o = some T → T = .boolean)) := by
  cases o with
  | none => exact pure_run (Reads.refl st) fun _ _ h => by cases h
  | some T =>
    simp only [checkCondition]
    split
    · exact report_sat _ fun st₂ r₂ nq₂ => loud_run (Reads.refl st) r₂ nq₂
    · rename_i h
      exact pure_run (Reads.refl st) fun _ _ h' => by cases h'; simpa using h

theorem checkBound_sat (o : Option Ty) :
    CSat (checkBound o) st (fun _ st' => Reads st st' ∧
      (Quiet st st' → ∀ T, o = some T → T = .integer)) := by
  cases o with
  | none => exact pure_run (Reads.refl st) fun _ _ h => by cases h
  | some T =>
    simp only [checkBound]
    split
    · exact report_sat _ fun st₂ r₂ nq₂ => loud_run (Reads.refl st) r₂ nq₂
    · rename_i h
      exact pure_run (Reads.refl st) fun _ _ h' => by cases h'; simpa using h

theorem checkLoopVariable_sat (v : String) :
    CSat (checkLoopVariable v) st (fun _ st' => Reads st st' ∧
      (Quiet st st' → st.scopes.typeOf? v = some .integer)) := by
  simp only [checkLoopVariable, csat_bind, csat_scopes]
  cases h : st.scopes.typeOf? v with
  | none => exact report_sat _ fun st₂ r₂ nq₂ => loud_run (Reads.refl st) r₂ nq₂
  | some T =>
    simp only
    split
    · exact report_sat _ fun st₂ r₂ nq₂ => loud_run (Reads.refl st) r₂ nq₂
    · rename_i hT
      exact pure_run (Reads.refl st) fun _ => by simpa using hT

/-- Checking an assignment's target: quiet only for a target it can type. -/
theorem targetType_sat (t : Target) :
    CSat (targetType t) st (fun o st' => Reads st st' ∧
      (Quiet st st' → TargetInfers st.scopes t o)) := by
  cases t with
  | var n =>
    simp only [targetType, csat_bind, csat_scopes]
    cases h : st.scopes.typeOf? n with
    | none => exact report_bind_sat _ _ fun st₂ r₂ nq₂ => loud_run (Reads.refl st) r₂ nq₂
    | some T => exact pure_run (Reads.refl st) fun _ => .var h
  | element a i =>
    simp only [targetType, csat_bind]
    refine (arrayElement_sat a).mono₂ fun oel st₁ r₁ h₁ => ?_
    cases oel with
    | none =>
      refine pure_run r₁ fun q => ?_
      obtain ⟨_, _, _, h⟩ := h₁ q
      cases h
    | some el =>
      simp only [csat_bind]
      refine (typeOf_quiet i st₁).mono₂ fun oi st₂ r₂ h₂ => ?_
      refine (indexOk_sat oi).mono₂ fun ok st₃ r₃ h₃ => ?_
      rw [r₁.scopes] at h₂
      -- a quiet run found the array and typed the index as an integer
      have element : Quiet st st₃ → TargetInfers st.scopes (.element a i) (oi.map fun _ => el) ∧
          (ok = true ↔ oi.isSome) := by
        intro hq
        obtain ⟨q₁, q₂₃⟩ := Quiet.split r₁ (r₂.trans r₃) hq
        obtain ⟨q₂, q₃⟩ := Quiet.split r₂ r₃ q₂₃
        obtain ⟨el', size, ha, hel⟩ := h₁ q₁
        cases hel
        exact ⟨.element ha (h₂ q₂) (h₃ q₃).1, (h₃ q₃).2⟩
      cases ok with
      | false =>
        refine pure_run (r₁.trans (r₂.trans r₃)) fun hq => ?_
        obtain ⟨ht, hok⟩ := element hq
        cases oi with
        | none => exact ht
        | some _ => simp at hok
      | true =>
        refine pure_run (r₁.trans (r₂.trans r₃)) fun hq => ?_
        obtain ⟨ht, hok⟩ := element hq
        cases oi with
        | none => simp at hok
        | some _ => exact ht
  | field r f =>
    simp only [targetType]
    refine (recordField_sat r f).mono₂ fun o st' r' h' => ⟨r', fun q => ?_⟩
    cases h' q with
    | field found record member => exact .field found record member

/-- Checking that a value of type `o` may be stored where `T` is wanted. -/
theorem compatible_sat (T : Ty) (o : Option Ty) (err : Ty → Error) :
    CSat (match o with
      | some actual => if !Ty.compatible T actual then report (err actual) else pure ()
      | none => pure ()) st (fun _ st' => Reads st st' ∧
        (Quiet st st' → ∀ A, o = some A → Ty.compatible T A = true)) := by
  cases o with
  | none => exact pure_run (Reads.refl st) fun _ _ h => by cases h
  | some A =>
    simp only
    split
    · exact report_sat _ fun st₂ r₂ nq₂ => loud_run (Reads.refl st) r₂ nq₂
    · rename_i h
      exact pure_run (Reads.refl st) fun _ _ h' => by cases h'; simpa using h

theorem checkAssignment_sat (t : Target) (v : Expr) :
    CSat (checkAssignment t v) st (fun _ st' => Reads st st' ∧
      (Quiet st st' → StmtChecks loops ret st.scopes (.assign t v) st.scopes)) := by
  simp only [checkAssignment, csat_bind]
  refine (targetType_sat t).mono₂ fun ot st₁ r₁ h₁ => ?_
  cases ot with
  | none => exact pure_run r₁ fun q => .assign (h₁ q) fun _ h => by cases h
  | some T =>
    simp only [csat_bind]
    refine use_sat _ fun st₂ r₂ q₂ => ?_
    refine (typeOf_quiet v st₂).mono₂ fun o st₃ r₃ h₃ => ?_
    refine (compatible_sat T o _).mono₂ fun _ st₄ r₄ h₄ =>
      pure_run (r₁.trans (r₂.trans (r₃.trans r₄))) fun hq => ?_
    obtain ⟨q₁, q₂₄⟩ := Quiet.split r₁ (r₂.trans (r₃.trans r₄)) hq
    obtain ⟨-, q₃₄⟩ := Quiet.split r₂ (r₃.trans r₄) q₂₄
    obtain ⟨q₃, q₄⟩ := Quiet.split r₃ r₄ q₃₄
    rw [r₂.scopes, r₁.scopes] at h₃
    exact .assign (h₁ q₁) fun _ h => by cases h; exact ⟨o, h₃ q₃, h₄ q₄⟩

theorem checkReturn_sat (v : Option Expr) :
    CSat (checkReturn v) st (fun _ st' => Reads st st' ∧
      (Quiet st st' → StmtChecks loops st.returnTypes.head? st.scopes (.ret v) st.scopes)) := by
  simp only [checkReturn, csat_bind, csat_get]
  cases hr : st.returnTypes with
  | nil => exact report_sat _ fun st₂ r₂ nq₂ => loud_run (Reads.refl st) r₂ nq₂
  | cons R _ =>
    cases v with
    | some e =>
      simp only
      split
      · exact report_sat _ fun st₂ r₂ nq₂ => loud_run (Reads.refl st) r₂ nq₂
      · rename_i hv
        simp only [csat_bind]
        refine (typeOf_quiet e st).mono₂ fun o st₁ r₁ h₁ => ?_
        refine (compatible_sat R o _).mono₂ fun _ st₂ r₂ h₂ =>
          pure_run (r₁.trans r₂) fun hq => ?_
        obtain ⟨q₁, q₂⟩ := Quiet.split r₁ r₂ hq
        exact .retValue rfl (Bool.eq_false_iff.mpr hv) ⟨o, h₁ q₁, h₂ q₂⟩
    | none =>
      simp only
      split
      · exact report_sat _ fun st₂ r₂ nq₂ => loud_run (Reads.refl st) r₂ nq₂
      · rename_i hv
        exact pure_run (Reads.refl st) fun _ => .retNone rfl (by simpa using hv)

theorem checkPrint_sat (e : Expr) :
    CSat (checkPrint e) st (fun _ st' => Reads st st' ∧
      (Quiet st st' → StmtChecks loops ret st.scopes (.print e) st.scopes)) := by
  simp only [checkPrint, csat_bind]
  refine (typeOf_quiet e st).mono₂ fun o st₁ r₁ h₁ => ?_
  cases o with
  | none => exact pure_run r₁ fun q => .print (h₁ q) fun _ h => by cases h
  | some T =>
    simp only
    split
    · exact report_sat _ fun st₂ r₂ nq₂ => loud_run r₁ r₂ nq₂
    · exact report_sat _ fun st₂ r₂ nq₂ => loud_run r₁ r₂ nq₂
    · rename_i p hne hp
      exact pure_run r₁ fun q => .print (h₁ q) fun _ h => by
        cases h
        cases T with
        | prim p' =>
          simp only [Ty.asPrim?, Option.some.injEq] at hp
          subst hp
          exact ⟨p', rfl, hne⟩
        | _ => simp [Ty.asPrim?] at hp

/-- Checking a variable declaration: quiet only for a fresh name, a valid type that resolves
and an initializer that suits it; a declaration without a type gets its initializer's, valid
and resolved in well-formed scopes. -/
theorem checkVarDecl_quiet (n : String) (t : Option Ty) (init : Option Expr) :
    CSat (checkVarDecl n t init) st (fun s' st' => Steps st st' ∧ (∃ t', s' = .varDecl n t' init) ∧
      (Quiet st st' → st.scopes.WellFormed →
        StmtChecks loops ret st.scopes s' st'.scopes ∧ st'.scopes.WellFormed)) := by
  unfold checkVarDecl
  by_cases hdef : st.scopes.isDefinedHere n = true
  · -- a name this scope declares already is reported
    cases init with
    | none =>
      simp only [csat_bind, csat_scopes, hdef, ↓reduceIte]
      exact report_sat _ fun st₁ r₁ nq₁ => ⟨r₁.steps, ⟨t, rfl⟩, fun hq => absurd hq nq₁⟩
    | some i =>
      simp only [csat_bind, csat_scopes, hdef, ↓reduceIte]
      refine report_sat _ fun st₁ r₁ nq₁ => ?_
      refine (typeOf_quiet i st₁).mono₂ fun _ st₂ r₂ _ => ?_
      have l := loud_first (P := False) r₁ nq₁ r₂
      exact ⟨l.1.steps, ⟨t, rfl⟩, fun hq => absurd (l.2 hq) id⟩
  have fresh : st.scopes.isDefinedHere n = false := Bool.eq_false_iff.mpr hdef
  cases t with
  | some t =>
    simp only [csat_bind, csat_scopes, fresh, Bool.false_eq_true, ↓reduceIte]
    refine (resolveReported_sat t).mono₂ fun o st₁ r₁ h₁ => ?_
    cases o with
    | none =>
      refine ⟨r₁.steps, ⟨_, rfl⟩, fun hq => ?_⟩
      obtain ⟨_, _, _, h⟩ := h₁ hq
      cases h
    | some T =>
      -- the type was valid and resolved to `T`, which is then declared
      have declared : ∀ st' : Checker, st'.scopes = st.scopes.declare n T → Quiet st st₁ →
          st.scopes.WellFormed → (∀ i, init = some i → StoresInto st.scopes T i) →
          StmtChecks loops ret st.scopes (.varDecl n (some t) init) st'.scopes ∧
            st'.scopes.WellFormed := by
        intro st' hs q₁ hwf hinit
        obtain ⟨hv, T', hT', h⟩ := h₁ q₁
        cases h
        rw [hs]
        exact ⟨.declare fresh hv hT' hinit, hwf.declare (Ty.resolveDeep_resolved hT')
          (Ty.isValid_resolveDeep hwf.types hv hT') n⟩
      cases init with
      | none =>
        simp only [csat_bind]
        refine declareVar_sat n T fun st₂ hs₂ r₂ q₂ => ?_
        rw [r₁.scopes] at hs₂
        refine ⟨r₁.steps.trans r₂, ⟨_, rfl⟩, fun hq hwf => ?_⟩
        exact declared st₂ hs₂ (Eq.trans q₂.symm hq) hwf fun _ h => by cases h
      | some i =>
        simp only [csat_bind]
        refine (typeOf_quiet i st₁).mono₂ fun oi st₂ r₂ h₂ => ?_
        rw [r₁.scopes] at h₂
        cases oi with
        | none =>
          simp only [csat_bind]
          refine declareVar_sat n T fun st₃ hs₃ r₃ q₃ => ?_
          rw [r₂.scopes, r₁.scopes] at hs₃
          refine ⟨(r₁.trans r₂).steps.trans r₃, ⟨_, rfl⟩, fun hq hwf => ?_⟩
          obtain ⟨q₁, q₂⟩ := Quiet.split r₁ r₂ (Eq.trans q₃.symm hq)
          exact declared st₃ hs₃ q₁ hwf fun _ h => by
            cases h; exact ⟨none, h₂ q₂, fun _ h => by cases h⟩
        | some A =>
          simp only
          split
          · -- an initializer that does not suit the type is reported
            simp only [csat_bind]
            refine report_sat _ fun st₃ r₃ nq₃ => ?_
            refine declareVar_sat n T fun st₄ hs₄ r₄ q₄ => ?_
            refine ⟨((r₁.trans r₂).trans r₃).steps.trans r₄, ⟨_, rfl⟩, fun hq => ?_⟩
            exact absurd (Quiet.split (r₁.trans r₂) r₃ (Eq.trans q₄.symm hq)).2 nq₃
          · rename_i hc
            simp only [csat_bind]
            refine declareVar_sat n T fun st₃ hs₃ r₃ q₃ => ?_
            rw [r₂.scopes, r₁.scopes] at hs₃
            refine ⟨(r₁.trans r₂).steps.trans r₃, ⟨_, rfl⟩, fun hq hwf => ?_⟩
            obtain ⟨q₁, q₂⟩ := Quiet.split r₁ r₂ (Eq.trans q₃.symm hq)
            exact declared st₃ hs₃ q₁ hwf fun _ h => by
              cases h; exact ⟨some A, h₂ q₂, fun _ h => by cases h; simpa using hc⟩
  | none =>
    cases init with
    | none =>
      simp only [csat_bind, csat_scopes, fresh, Bool.false_eq_true, ↓reduceIte]
      exact report_sat _ fun st₁ r₁ nq₁ => ⟨r₁.steps, ⟨_, rfl⟩, fun hq => absurd hq nq₁⟩
    | some i =>
      simp only [csat_bind, csat_scopes, fresh, Bool.false_eq_true, ↓reduceIte]
      refine (typeOf_quiet i st).mono₂ fun oi st₁ r₁ h₁ => ?_
      cases oi with
      | none =>
        simp only [csat_pure]
        refine ⟨r₁.steps, ⟨_, rfl⟩, fun hq hwf => ?_⟩
        rw [r₁.scopes]
        exact ⟨.declareUntyped fresh (h₁ hq), hwf⟩
      | some A =>
        -- the initializer's type is declared and written into the declaration
        simp only [csat_bind]
        refine declareVar_sat n A fun st₂ hs₂ r₂ q₂ => ?_
        rw [r₁.scopes] at hs₂
        simp only [csat_pure]
        refine ⟨r₁.steps.trans r₂, ⟨_, rfl⟩, fun hq hwf => ?_⟩
        have hi := h₁ (Eq.trans q₂.symm hq)
        have hr : A.Resolved := hi.resolved hwf.resolved rfl
        have hv : A.isValid st.scopes.env = true := hi.valid hwf rfl
        rw [hs₂]
        exact ⟨.declare fresh hv (Ty.resolveDeep_of_resolved hr) fun _ h => by
            cases h; exact ⟨some A, hi, fun _ h => by cases h; exact Ty.compatible_refl A⟩,
          hwf.declare hr hv n⟩

/-- Checking an array declaration: quiet only for a fresh name, a positive size and a valid
element type that resolves. -/
theorem checkArrayDecl_quiet (n : String) (el : Ty) (size : Int) :
    CSat (checkArrayDecl n el size) st (fun _ st' => Steps st st' ∧
      (Quiet st st' → st.scopes.WellFormed →
        StmtChecks loops ret st.scopes (.arrayDecl n el size) st'.scopes ∧
          st'.scopes.WellFormed)) := by
  simp only [checkArrayDecl, csat_bind, csat_scopes]
  split
  · exact report_bind_sat _ _ fun st₁ r₁ nq₁ => ⟨r₁.steps, fun hq => absurd hq nq₁⟩
  · rename_i hfresh
    split
    · exact report_bind_sat _ _ fun st₁ r₁ nq₁ => ⟨r₁.steps, fun hq => absurd hq nq₁⟩
    · rename_i hsize
      simp only [csat_bind]
      refine (resolveReported_sat el).mono₂ fun o st₁ r₁ h₁ => ?_
      cases o with
      | none =>
        refine ⟨r₁.steps, fun hq => ?_⟩
        obtain ⟨_, _, _, h⟩ := h₁ hq
        cases h
      | some E =>
        refine declareVar_sat n _ fun st₂ hs₂ r₂ q₂ => ?_
        rw [r₁.scopes] at hs₂
        refine ⟨r₁.steps.trans r₂, fun hq hwf => ?_⟩
        obtain ⟨hv, E', hE', h⟩ := h₁ (Eq.trans q₂.symm hq)
        cases h
        have positive : 0 < size := by omega
        rw [hs₂]
        refine ⟨.array (Bool.eq_false_iff.mpr hfresh) positive hv hE', hwf.declare ?_ ?_ n⟩
        · exact Ty.resolveDeep_resolved (Ty.resolveDeep_array_ok (n := size) hE')
        · simp [Ty.isValid, positive, Ty.isValid_resolveDeep hwf.types hv hE']

end Helpers

/-! ## Statements and blocks -/

/-- Checking a block in a scope of its own: when quiet, the block checks in the entered scope,
and leaving it restores the scopes. What follows is `K`. -/
theorem scoped_sat {st : Checker} {K : List Stmt → Checker → Prop} (ss : List Stmt)
    (block : ∀ st, CSat (checkStmts ss) st (fun ss' st' => Steps st st' ∧
      (Quiet st st' → st.scopes.WellFormed →
        BlockChecks true st.returnTypes.head? st.scopes ss' st'.scopes ∧ st'.scopes.WellFormed)))
    (hK : ∀ ss' st', Steps st st' → (Quiet st st' → st.scopes.WellFormed →
      (∃ sc', BlockChecks true st.returnTypes.head? st.scopes.enter ss' sc') ∧
        st'.scopes = st.scopes) → K ss' st') :
    CSat enterScope st (fun _ st₁ => CSat (checkStmts ss) st₁ (fun ss' st₂ =>
      CSat exitScope st₂ (fun _ st₃ => K ss' st₃))) := by
  refine enterScope_sat fun st₁ hs₁ r₁ q₁ => ?_
  refine (block st₁).mono₂ fun ss' st₂ r₂ h₂ => ?_
  refine exitScope_sat fun st₃ hs₃ r₃ q₃ => hK ss' st₃ (r₁.trans (r₂.trans r₃)) fun hq hwf => ?_
  have q₂ : Quiet st₁ st₂ := Eq.trans q₃.symm (Eq.trans hq q₁.symm)
  rw [hs₁, r₁.returnTypes] at h₂
  obtain ⟨hb, -⟩ := h₂ q₂ hwf.enter
  obtain ⟨hexit, hne⟩ := hb.exit_eq (by simp)
  exact ⟨⟨_, hb⟩, by rw [hs₃ hne, hexit, Scopes.exit_enter]⟩

mutual

/-- A quiet check of a statement, in well-formed scopes, establishes the judgment of the
statement it returns, with loop variables visible, and leaves well-formed scopes. The returned
statement has the heading of the given one. -/
theorem checkStmt_quiet : ∀ (s : Stmt) (st : Checker),
    CSat (checkStmt s) st (fun s' st' => Steps st st' ∧ s'.heading = s.heading ∧
      (Quiet st st' → st.scopes.WellFormed →
        StmtChecks true st.returnTypes.head? st.scopes s' st'.scopes ∧ st'.scopes.WellFormed))
  | .varDecl n t i, st => by
    rw [checkStmt]
    refine (checkVarDecl_quiet true st.returnTypes.head? n t i).mono₃ fun s' st' r hs h => ?_
    obtain ⟨t', hs⟩ := hs
    exact ⟨r, by rw [hs]; rfl, h⟩
  | .arrayDecl n el size, st => by
    simp only [checkStmt, csat_bind, csat_pure]
    exact (checkArrayDecl_quiet true st.returnTypes.head? n el size).mono₂ fun _ st' r h => ⟨r, trivial, h⟩
  | .assign t v, st => by
    simp only [checkStmt, csat_bind, csat_pure]
    exact (checkAssignment_sat true st.returnTypes.head? t v).mono₂ fun _ st' r h =>
      ⟨r.steps, trivial, fun hq hwf => by rw [r.scopes]; exact ⟨h hq, hwf⟩⟩
  | .ifThen c t e, st => by
    simp only [checkStmt, csat_bind, csat_pure]
    refine (typeOf_quiet c st).mono₂ fun oc st₁ r₁ h₁ => ?_
    refine (checkCondition_sat "If" oc).mono₂ fun _ st₂ r₂ h₂ => ?_
    refine scoped_sat t (checkStmts_quiet t) fun t' st₃ r₃ h₃ => ?_
    refine scoped_sat e (checkStmts_quiet e) fun e' st₄ r₄ h₄ => ?_
    have r₁₂ := r₁.trans r₂
    refine ⟨(r₁₂.steps.trans r₃).trans r₄, rfl, fun hq hwf => ?_⟩
    obtain ⟨q₁₃, q₄⟩ := Steps.split (r₁₂.steps.trans r₃) r₄ hq
    obtain ⟨q₁₂, q₃⟩ := Steps.split r₁₂.steps r₃ q₁₃
    obtain ⟨q₁, q₂⟩ := Quiet.split r₁ r₂ q₁₂
    rw [r₁₂.scopes, r₁₂.returnTypes] at h₃
    obtain ⟨⟨_, hb₁⟩, hs₃⟩ := h₃ q₃ hwf
    rw [hs₃, r₃.returnTypes, r₁₂.returnTypes] at h₄
    obtain ⟨⟨_, hb₂⟩, hs₄⟩ := h₄ q₄ hwf
    rw [hs₄]
    exact ⟨.ifThen (h₁ q₁) (h₂ q₂) hb₁ hb₂, hwf⟩
  | .whileDo c b, st => by
    simp only [checkStmt, csat_bind, csat_pure]
    refine (typeOf_quiet c st).mono₂ fun oc st₁ r₁ h₁ => ?_
    refine (checkCondition_sat "While" oc).mono₂ fun _ st₂ r₂ h₂ => ?_
    refine scoped_sat b (checkStmts_quiet b) fun b' st₃ r₃ h₃ => ?_
    have r₁₂ := r₁.trans r₂
    refine ⟨r₁₂.steps.trans r₃, rfl, fun hq hwf => ?_⟩
    obtain ⟨q₁₂, q₃⟩ := Steps.split r₁₂.steps r₃ hq
    obtain ⟨q₁, q₂⟩ := Quiet.split r₁ r₂ q₁₂
    rw [r₁₂.scopes, r₁₂.returnTypes] at h₃
    obtain ⟨⟨_, hb⟩, hs₃⟩ := h₃ q₃ hwf
    rw [hs₃]
    exact ⟨.whileDo (h₁ q₁) (h₂ q₂) hb, hwf⟩
  | .forRange v s e r b, st => by
    simp only [checkStmt, csat_bind, csat_pure]
    refine (typeOf_quiet s st).mono₂ fun os st₁ r₁ h₁ => ?_
    refine (checkBound_sat os).mono₂ fun _ st₂ r₂ h₂ => ?_
    refine (typeOf_quiet e st₂).mono₂ fun oe st₃ r₃ h₃ => ?_
    refine (checkBound_sat oe).mono₂ fun _ st₄ r₄ h₄ => ?_
    refine (checkLoopVariable_sat v).mono₂ fun _ st₅ r₅ h₅ => ?_
    refine enterScope_sat fun st₆ hs₆ r₆ q₆ => ?_
    refine declareVar_sat v .integer fun st₇ hs₇ r₇ q₇ => ?_
    refine (checkStmts_quiet b st₇).mono₂ fun b' st₈ r₈ h₈ => ?_
    refine exitScope_sat fun st₉ hs₉ r₉ q₉ => ?_
    -- the bounds and the loop variable only read; the body runs in the loop's own scope
    have r₂₅ := r₂.trans (r₃.trans (r₄.trans r₅))
    have r₁₅ := r₁.trans r₂₅
    have r₆₇ := r₆.trans r₇
    refine ⟨r₁₅.steps.trans (r₆₇.trans (r₈.trans r₉)), rfl, fun hq hwf => ?_⟩
    obtain ⟨q₁₇, q₈⟩ := Steps.split (r₁₅.steps.trans r₆₇) r₈ (Eq.trans q₉.symm hq)
    have q₁₅ : Quiet st st₅ := Eq.trans q₆.symm (Eq.trans q₇.symm q₁₇)
    obtain ⟨q₁, q₂₅⟩ := Quiet.split r₁ r₂₅ q₁₅
    obtain ⟨q₂, q₃₅⟩ := Quiet.split r₂ (r₃.trans (r₄.trans r₅)) q₂₅
    obtain ⟨q₃, q₄₅⟩ := Quiet.split r₃ (r₄.trans r₅) q₃₅
    obtain ⟨q₄, q₅⟩ := Quiet.split r₄ r₅ q₄₅
    have sc₄ : st₄.scopes = st.scopes := (r₁.trans (r₂.trans (r₃.trans r₄))).scopes
    have loop : st.scopes.typeOf? v = some .integer := sc₄ ▸ h₅ q₅
    have inner : st₇.scopes = st.scopes.enter.declare v .integer := by
      rw [hs₇, hs₆, r₁₅.scopes]
    have wf₇ : st₇.scopes.WellFormed := by
      rw [inner]; exact hwf.enter.declare (Ty.resolved_prim .integer) rfl v
    rw [r₆₇.returnTypes, r₁₅.returnTypes] at h₈
    obtain ⟨hb, -⟩ := h₈ q₈ wf₇
    rw [inner] at hb
    obtain ⟨hexit, hne⟩ := hb.exit_eq (Scopes.declare_locals_ne_nil _ _ _ (by simp))
    have hs : st₉.scopes = st.scopes := by
      rw [hs₉ hne, hexit, Scopes.exit_declare _ _ _ (by simp), Scopes.exit_enter]
    rw [hs]
    rw [r₂.scopes, r₁.scopes] at h₃
    -- the end bound reads the same with the counter declared: the counter is the visible
    -- integer variable of that name
    have stop := h₃ q₃
    refine ⟨.forRange (h₁ q₁) (h₂ q₂) stop (h₄ q₄) (fun _ => loop)
      (stop.congr (by simp) (by simp) fun n _ => ?_) hb, hwf⟩
    by_cases hn : n = v
    · subst hn; simp [loop]
    · simp [hn]
  | .routine n ps rt b, st => by
    simp only [checkStmt, csat_bind, csat_pure]
    exact report_sat _ fun st₁ r₁ nq₁ => ⟨r₁.steps, trivial, fun hq => absurd hq nq₁⟩
  | .recordType n fs, st => by
    simp only [checkStmt, csat_bind, csat_pure]
    exact report_sat _ fun st₁ r₁ nq₁ => ⟨r₁.steps, trivial, fun hq => absurd hq nq₁⟩
  | .typeAlias n t, st => by
    simp only [checkStmt, csat_bind, csat_pure]
    exact report_sat _ fun st₁ r₁ nq₁ => ⟨r₁.steps, trivial, fun hq => absurd hq nq₁⟩
  | .call n args, st => by
    simp only [checkStmt, csat_bind]
    refine (callee_sat n args).mono₃ fun osig st₁ r₁ hnone hsome => ?_
    cases osig with
    | none =>
      simp only [csat_bind, csat_pure]
      refine (checkArguments_quiet n [] 0 args st₁).mono₂ fun _ st₂ r₂ _ => ?_
      have l := loud_first (P := False) r₁ (hnone rfl) r₂
      exact ⟨l.1.steps, trivial, fun hq => absurd (l.2 hq) id⟩
    | some sig =>
      obtain ⟨hfound, hcount⟩ := hsome sig rfl
      simp only [csat_bind, csat_pure]
      refine (checkArguments_quiet n sig.params 0 args st₁).mono₂ fun _ st₂ r₂ h₂ =>
        ⟨(r₁.trans r₂).steps, trivial, fun hq hwf => ?_⟩
      obtain ⟨q₁, q₂⟩ := Quiet.split r₁ r₂ hq
      rw [r₁.scopes, List.drop_zero] at h₂
      rw [r₂.scopes, r₁.scopes]
      exact ⟨.call hfound (hcount q₁) (h₂ q₂ (hcount q₁)), hwf⟩
  | .ret v, st => by
    simp only [checkStmt, csat_bind, csat_pure]
    exact (checkReturn_sat true v).mono₂ fun _ st' r h =>
      ⟨r.steps, trivial, fun hq hwf => by rw [r.scopes]; exact ⟨h hq, hwf⟩⟩
  | .print e, st => by
    simp only [checkStmt, csat_bind, csat_pure]
    exact (checkPrint_sat true st.returnTypes.head? e).mono₂ fun _ st' r h =>
      ⟨r.steps, trivial, fun hq hwf => by rw [r.scopes]; exact ⟨h hq, hwf⟩⟩

/-- A quiet check of a block, in well-formed scopes, establishes the judgment of the block it
returns and leaves well-formed scopes. -/
theorem checkStmts_quiet : ∀ (ss : List Stmt) (st : Checker),
    CSat (checkStmts ss) st (fun ss' st' => Steps st st' ∧
      (Quiet st st' → st.scopes.WellFormed →
        BlockChecks true st.returnTypes.head? st.scopes ss' st'.scopes ∧ st'.scopes.WellFormed))
  | [], st => ⟨Steps.refl st, fun _ hwf => ⟨.nil, hwf⟩⟩
  | s :: rest, st => by
    simp only [checkStmts, csat_bind, csat_pure]
    refine (checkStmt_quiet s st).mono₃ fun s' st₁ r₁ _ h₁ => ?_
    refine (checkStmts_quiet rest st₁).mono₂ fun rest' st₂ r₂ h₂ =>
      ⟨r₁.trans r₂, fun hq hwf => ?_⟩
    obtain ⟨q₁, q₂⟩ := r₁.split r₂ hq
    obtain ⟨j₁, w₁⟩ := h₁ q₁ hwf
    rw [r₁.returnTypes] at h₂
    obtain ⟨j₂, w₂⟩ := h₂ q₂ w₁
    exact ⟨.cons j₁ j₂, w₂⟩

end

end Check

end ImpStack
