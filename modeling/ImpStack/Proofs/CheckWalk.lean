import Mathlib.Data.List.Forall2
import ImpStack.Proofs.CheckStmt

/-! # A quiet walk establishes the program judgment

  The walk runs five passes over the top-level statements. Named one by one (`walk_eq`),
  each gets its own guarantee:

  1. declaring the routine signatures only adds routines, each from a routine declaration of
     the program (`declareSignatures_sat`);
  2. declaring the types only adds types, and when quiet every declared type is valid
     (`declareTypes_sat`);
  3. a quiet check of the globals establishes `BlockChecks` for the declarations it returns,
     in order (`globals_quiet`);
  4. a quiet check of the routine bodies establishes `RoutineChecks` for each
     (`routines_quiet`); it also shows that every routine's return type is valid, which is
     what makes the scopes of passes 3 and 4 well formed;
  5. a quiet check of the remaining statements establishes `StmtChecks` for each, in the
     scopes the globals left (`main_quiet`).

  Together: a walk that reports nothing returns a program the judgment `Accepts` holds of,
  from the scopes the first two passes leave (`walk_quiet`). Every pass keeps the heading of
  each statement, what the first two passes read.
-/

namespace ImpStack

/-! ## Routines and programs -/

/-- Whether a top-level statement declares a global: a variable or an array. -/
def Stmt.declaresGlobal : Stmt → Bool
  | .varDecl .. | .arrayDecl .. => true
  | _ => false

/-- Whether a top-level statement declares a routine. -/
def Stmt.isRoutine : Stmt → Bool
  | .routine .. => true
  | _ => false

/-- What a pass that rewrites the statements of kind `k` does to a top-level statement: it
keeps the statement's heading, and leaves a statement of another kind as it is. -/
structure Stmt.Keeps (k : Stmt → Bool) (s s' : Stmt) : Prop where
  heading : s'.heading = s.heading
  other : k s = false → s' = s

/-- Declaring a routine's parameters one after another in `sc` reports nothing and leaves
`sc'`. -/
inductive ParamsDeclare : Scopes → List Param → Scopes → Prop
  | nil {sc : Scopes} : ParamsDeclare sc [] sc
  | cons {sc sc' : Scopes} {p : Param} {ps : List Param} {T : Ty}
      (fresh : sc.isDefinedHere p.name = false) (valid : p.ty.isValid sc.env = true)
      (resolved : p.ty.resolveDeep sc.env = .ok T)
      (rest : ParamsDeclare (sc.declare p.name T) ps sc') :
      ParamsDeclare sc (p :: ps) sc'

/-- Inside a routine, declaring the parameters only changes the innermost scope. -/
theorem ParamsDeclare.exit_eq : ∀ {sc sc' : Scopes} {ps : List Param}, ParamsDeclare sc ps sc' →
    sc.locals ≠ [] → sc'.exit = sc.exit ∧ sc'.locals ≠ [] := by
  intro sc sc' ps h
  induction h with
  | nil => exact fun hl => ⟨rfl, hl⟩
  | cons _ _ _ _ ih =>
    intro hl
    have h := ih (Scopes.declare_locals_ne_nil _ _ _ hl)
    exact ⟨h.1.trans (Scopes.exit_declare _ _ _ hl), h.2⟩

/-- The return type a routine declaration resolves to: `void` when none is written, else the
written type, which must be valid. -/
def ReturnResolves (env : TypeEnv) : Option Ty → Ty → Prop
  | none, R => R = .void
  | some t, R => t.isValid env = true ∧ t.resolveDeep env = .ok R

/-- Checking a routine's body in `sc` reports nothing: its parameters declare in a scope of
their own, its return type resolves to `R`, its body checks in a routine returning `R`, and it
ends in a return unless `R` is void. -/
inductive RoutineChecks (loops : Bool) (sc : Scopes) (ps : List Param) (r : Option Ty)
    (b : List Stmt) : Prop
  | intro {inner sc' : Scopes} {R : Ty} (params : ParamsDeclare sc.enter ps inner)
      (returns : ReturnResolves sc.env r R) (body : BlockChecks loops (some R) inner b sc')
      (ends : R.isVoid = false → endsWithReturn b = true)

/-- A program whose last three passes report nothing, from the scopes `sc` the first two
leave: its globals check in order and leave `sc'`, every routine's body checks in `sc'`, and
so does every other top-level statement. -/
structure Accepts (loops : Bool) (sc sc' : Scopes) (ss : List Stmt) : Prop where
  globals : BlockChecks loops none sc (ss.filter Stmt.declaresGlobal) sc'
  routines : ∀ n ps r b, Stmt.routine n ps r b ∈ ss → RoutineChecks loops sc' ps r b
  main : ∀ s ∈ ss, Check.isDeclaration s = false → StmtChecks loops none sc' s sc'

/-! ## Validity in a larger environment -/

theorem lookup_append_of_some {β : Type} {l₁ l₂ : List (String × β)} {a : String} {b : β}
    (h : l₁.lookup a = some b) : (l₁ ++ l₂).lookup a = some b := by
  induction l₁ with
  | nil => cases h
  | cons e l ih =>
    obtain ⟨k, v⟩ := e
    rw [lookup_cons_ite] at h
    rw [List.cons_append, lookup_cons_ite]
    split
    · rwa [if_pos ‹_›] at h
    · rw [if_neg ‹_›] at h
      exact ih h

theorem lookup_append_cases {β : Type} {l₁ l₂ : List (String × β)} {a : String} {b : β}
    (h : (l₁ ++ l₂).lookup a = some b) : l₁.lookup a = some b ∨ l₂.lookup a = some b := by
  induction l₁ with
  | nil => exact .inr h
  | cons e l ih =>
    obtain ⟨k, v⟩ := e
    rw [List.cons_append, lookup_cons_ite] at h
    rw [lookup_cons_ite]
    split
    · rw [if_pos ‹_›] at h
      exact .inl h
    · rw [if_neg ‹_›] at h
      exact ih h

namespace Ty

mutual

/-- Declaring more types keeps a type valid. -/
theorem isValid_append {env : TypeEnv} (more : TypeEnv) :
    ∀ (t : Ty), t.isValid env = true → t.isValid (env ++ more) = true
  | .prim _, _ => rfl
  | .array e n, h => by
    simp only [isValid, Bool.and_eq_true] at h ⊢
    exact ⟨h.1, isValid_append more e h.2⟩
  | .record _ fs, h => by
    simp only [isValid] at h ⊢
    exact fieldsValid_append more fs h
  | .named name, h => by
    simp only [isValid, Bool.or_eq_true, Option.isSome_iff_exists, TypeEnv.find?] at h ⊢
    rcases h with h | ⟨b, hb⟩
    · exact .inl h
    · exact .inr ⟨b, lookup_append_of_some hb⟩

theorem fieldsValid_append {env : TypeEnv} (more : TypeEnv) :
    ∀ (fs : List (String × Ty)), isValid.fieldsValid env fs = true →
      isValid.fieldsValid (env ++ more) fs = true
  | [], _ => rfl
  | (_, t) :: rest, h => by
    simp only [isValid.fieldsValid, Bool.and_eq_true] at h ⊢
    exact ⟨isValid_append more t h.1, fieldsValid_append more rest h.2⟩

end

end Ty

/-- A statement that declares nothing leaves the scopes as they were. -/
theorem StmtChecks.scopes_eq {loops : Bool} {ret : Option Ty} {sc sc' : Scopes} {s : Stmt}
    (h : StmtChecks loops ret sc s sc') (hs : Check.isDeclaration s = false) : sc' = sc := by
  cases h with
  | declare | array => cases hs
  | _ => rfl

/-- A routine's declared return type is valid once it resolves. -/
theorem ReturnResolves.valid {env : TypeEnv} {r : Option Ty} {R : Ty}
    (h : ReturnResolves env r R) : (returnTypeOrVoid r).isValid env = true := by
  cases r with
  | none => rfl
  | some t => exact h.1

/-! ## What the passes keep -/

namespace Stmt

/-! A statement's kind as the passes see it is read off its heading. -/

theorem declaresGlobal_eq_heading (s : Stmt) :
    s.declaresGlobal = (s.heading.map declaresGlobal).getD false := by
  cases s <;> rfl

theorem isRoutine_eq_heading (s : Stmt) : s.isRoutine = (s.heading.map isRoutine).getD false := by
  cases s <;> rfl

theorem isDeclaration_eq_heading (s : Stmt) : Check.isDeclaration s = s.heading.isSome := by
  cases s <;> rfl

variable {k : Stmt → Bool} {s s' : Stmt}

theorem Keeps.declaresGlobal (h : s.Keeps k s') : s'.declaresGlobal = s.declaresGlobal := by
  rw [declaresGlobal_eq_heading, h.heading, ← declaresGlobal_eq_heading]

theorem Keeps.isRoutine (h : s.Keeps k s') : s'.isRoutine = s.isRoutine := by
  rw [isRoutine_eq_heading, h.heading, ← isRoutine_eq_heading]

theorem Keeps.isDeclaration (h : s.Keeps k s') : Check.isDeclaration s' = Check.isDeclaration s := by
  rw [isDeclaration_eq_heading, h.heading, ← isDeclaration_eq_heading]

end Stmt

section Lists

variable {k : Stmt → Bool} {ss ss' : List Stmt}

theorem Stmt.Keeps.map_heading (h : List.Forall₂ (Stmt.Keeps k) ss ss') :
    ss'.map Stmt.heading = ss.map Stmt.heading := by
  induction h with
  | nil => rfl
  | cons head _ ih => rw [List.map_cons, List.map_cons, head.heading, ih]

/-- A pass that leaves the globals alone keeps the list of globals. -/
theorem Stmt.Keeps.filter_declaresGlobal (h : List.Forall₂ (Stmt.Keeps k) ss ss')
    (hk : ∀ s, s.declaresGlobal = true → k s = false) :
    ss'.filter Stmt.declaresGlobal = ss.filter Stmt.declaresGlobal := by
  induction h with
  | nil => rfl
  | @cons s s' _ _ head _ ih =>
    by_cases hg : s.declaresGlobal = true
    · obtain rfl := head.other (hk s hg)
      rw [List.filter_cons_of_pos hg, List.filter_cons_of_pos hg, ih]
    · have hg' : ¬ s'.declaresGlobal = true := by rwa [head.declaresGlobal]
      rw [List.filter_cons_of_neg hg, List.filter_cons_of_neg hg', ih]

/-- A statement that a pass does not rewrite is still there after it. -/
theorem Stmt.Keeps.mem (h : List.Forall₂ (Stmt.Keeps k) ss ss') {x : Stmt}
    (hx : x ∈ ss) (hk : k x = false) : x ∈ ss' := by
  induction h with
  | nil => cases hx
  | @cons s s' _ _ head _ ih =>
    rcases List.mem_cons.mp hx with rfl | hx
    · rw [head.other hk]; exact List.mem_cons_self
    · exact List.mem_cons_of_mem _ (ih hx)

/-- A statement after a pass that is of a kind the pass does not rewrite was there before. -/
theorem Stmt.Keeps.mem_of_mem (h : List.Forall₂ (Stmt.Keeps k) ss ss') {x : Stmt}
    (hx : x ∈ ss') (hk : ∀ s, s.heading = x.heading → k s = false) : x ∈ ss := by
  induction h with
  | nil => cases hx
  | @cons s s' _ _ head _ ih =>
    rcases List.mem_cons.mp hx with rfl | hx
    · rw [← head.other (hk s head.heading.symm)]; exact List.mem_cons_self
    · exact List.mem_cons_of_mem _ (ih hx)

end Lists

namespace Check

/-! ## The five passes -/

/-- Pass 1: the routine signatures. -/
def declareSignatures (ss : List Stmt) : CheckM Unit := do
  for s in ss do
    match s with
    | .routine n ps r _ => declareRoutine n ps r
    | _ => pure ()

/-- Pass 2: the record and type declarations. -/
def declareTypes (ss : List Stmt) : CheckM Unit := do
  for s in ss do
    match s with
    | .recordType n fs => declareRecord n fs
    | .typeAlias n t => declareAlias n t
    | _ => pure ()

/-- The first two passes. -/
def declarations (ss : List Stmt) : CheckM Unit := do
  declareSignatures ss
  note .debug .checker "pass 1 (routine signatures) done"
  declareTypes ss
  note .debug .checker "pass 2 (type declarations) done"

/-- Pass 3, one statement: a global declaration is checked. -/
def checkGlobal (s : Stmt) : CheckM Stmt :=
  match s with
  | .varDecl .. | .arrayDecl .. => checkStmt s
  | _ => pure s

/-- Pass 4, one statement: a routine's body is checked. -/
def checkRoutine (s : Stmt) : CheckM Stmt :=
  match s with
  | .routine n ps r b => do return .routine n ps r (← checkRoutineBody n ps r b)
  | _ => pure s

/-- Pass 5, one statement: a statement that declares nothing is checked. -/
def checkMain (s : Stmt) : CheckM Stmt := if isDeclaration s then pure s else checkStmt s

/-- The walk is its five passes, in order. -/
theorem walk_eq (p : Program) : walk p = (do
    declarations p.statements
    let ss ← p.statements.mapM checkGlobal
    note .debug .checker "pass 3 (globals) done"
    let ss ← ss.mapM checkRoutine
    note .debug .checker "pass 4 (routine bodies) done"
    let ss ← ss.mapM checkMain
    note .debug .checker ("pass 5 (top-level statements) done, " ++
      toString (← get).diagnostics.length ++ " diagnostic(s)")
    return ⟨ss⟩) := rfl

/-! ## Passes 1 and 2: declarations -/

section Declarations

variable {st : Checker}

theorem csat_declareSignatures_cons (s : Stmt) (ss : List Stmt) {Q : Unit → Checker → Prop} :
    CSat (declareSignatures (s :: ss)) st Q ↔ CSat (match s with
      | .routine n ps r _ => declareRoutine n ps r
      | _ => pure ()) st (fun _ st' => CSat (declareSignatures ss) st' Q) := by
  simp only [declareSignatures, List.forIn_cons, csat_bind]
  cases s <;> rfl

theorem csat_declareTypes_cons (s : Stmt) (ss : List Stmt) {Q : Unit → Checker → Prop} :
    CSat (declareTypes (s :: ss)) st Q ↔ CSat (match s with
      | .recordType n fs => declareRecord n fs
      | .typeAlias n t => declareAlias n t
      | _ => pure ()) st (fun _ st' => CSat (declareTypes ss) st' Q) := by
  simp only [declareTypes, List.forIn_cons, csat_bind]
  cases s <;> rfl

/-- A step of the first two passes: it keeps the variables and the return types of the
routines being walked, and only adds diagnostics. -/
structure Declares (st st' : Checker) : Prop where
  returnTypes : st'.returnTypes = st.returnTypes
  globals : st'.scopes.globals = st.scopes.globals
  locals : st'.scopes.locals = st.scopes.locals
  grows : ∃ l, st'.diagnostics = st.diagnostics ++ l

theorem Declares.refl (st : Checker) : Declares st st := ⟨rfl, rfl, rfl, [], by simp⟩

theorem Declares.trans {st₁ st₂ st₃ : Checker} (h₁ : Declares st₁ st₂) (h₂ : Declares st₂ st₃) :
    Declares st₁ st₃ := by
  obtain ⟨l₁, hl₁⟩ := h₁.grows
  obtain ⟨l₂, hl₂⟩ := h₂.grows
  exact ⟨h₂.returnTypes.trans h₁.returnTypes, h₂.globals.trans h₁.globals,
    h₂.locals.trans h₁.locals, l₁ ++ l₂, by rw [hl₂, hl₁, List.append_assoc]⟩

theorem Declares.split {st₁ st₂ st₃ : Checker} (h₁ : Declares st₁ st₂) (h₂ : Declares st₂ st₃)
    (hq : Quiet st₁ st₃) : Quiet st₁ st₂ ∧ Quiet st₂ st₃ :=
  Quiet.of_grows h₁.grows h₂.grows hq

theorem Reads.declares {st st' : Checker} (h : Reads st st') : Declares st st' :=
  ⟨h.returnTypes, by rw [h.scopes], by rw [h.scopes], h.grows⟩

/-- A step that only changes the declared types or the routines. -/
theorem Declares.of_quiet {st st' : Checker} (hr : st'.returnTypes = st.returnTypes)
    (hg : st'.scopes.globals = st.scopes.globals) (hl : st'.scopes.locals = st.scopes.locals)
    (hd : Quiet st st') : Declares st st' :=
  ⟨hr, hg, hl, [], by rw [hd, List.append_nil]⟩

/-- Every routine the scopes know was declared by one of `all`, with its signature. -/
def RoutinesFrom (all : List Stmt) (sc : Scopes) : Prop :=
  ∀ n sig, (n, sig) ∈ sc.routines → ∃ ps r b, Stmt.routine n ps r b ∈ all ∧
    sig = ⟨n, ps.map (·.ty), returnTypeOrVoid r⟩

theorem declareRoutine_sat (n : String) (ps : List Param) (r : Option Ty) :
    CSat (declareRoutine n ps r) st (fun _ st' => Declares st st' ∧
      st'.scopes.types = st.scopes.types ∧ ∀ e ∈ st'.scopes.routines,
        e ∈ st.scopes.routines ∨ e = (n, ⟨n, ps.map (·.ty), returnTypeOrVoid r⟩)) := by
  simp only [declareRoutine, csat_bind, csat_scopes]
  cases h : st.scopes.declareRoutine n ⟨n, ps.map (·.ty), returnTypeOrVoid r⟩ with
  | none =>
    exact report_sat _ fun st' r' _ => ⟨r'.declares, by rw [r'.scopes], fun e he => .inl
      (by rwa [r'.scopes] at he)⟩
  | some sc =>
    simp only [csat_modify]
    unfold Scopes.declareRoutine at h
    split at h
    · cases h
    · cases h
      refine ⟨Declares.of_quiet rfl rfl rfl rfl, rfl, fun e he => ?_⟩
      simpa using he

theorem declareSignatures_sat (all : List Stmt) : ∀ (ss : List Stmt) (st : Checker),
    (∀ s ∈ ss, s ∈ all) → RoutinesFrom all st.scopes →
    CSat (declareSignatures ss) st (fun _ st' => Declares st st' ∧
      st'.scopes.types = st.scopes.types ∧ RoutinesFrom all st'.scopes) := by
  intro ss
  induction ss with
  | nil => exact fun st _ h => ⟨Declares.refl st, rfl, h⟩
  | cons s ss ih =>
    intro st hs h
    rw [csat_declareSignatures_cons]
    have tail : ∀ s ∈ ss, s ∈ all := fun s' h' => hs s' (List.mem_cons_of_mem _ h')
    cases s with
    | routine n ps r b =>
      refine (declareRoutine_sat n ps r).mono₃ fun _ st₁ d₁ ht₁ hr₁ => ?_
      -- the new routine comes from the declaration at hand
      have from₁ : RoutinesFrom all st₁.scopes := by
        intro m sig hm
        rcases hr₁ _ hm with hm | hm
        · exact h m sig hm
        · simp only [Prod.mk.injEq] at hm
          obtain ⟨rfl, rfl⟩ := hm
          exact ⟨ps, r, b, hs _ List.mem_cons_self, rfl⟩
      exact (ih st₁ tail from₁).mono₃ fun _ st₂ d₂ ht₂ hr₂ =>
        ⟨d₁.trans d₂, ht₂.trans ht₁, hr₂⟩
    | _ =>
      simp only [csat_pure]
      exact ih st tail h

/-- Every declared type is valid once the declaring run was quiet. -/
theorem defineType_sat (n : String) (ty : Ty) :
    CSat (defineType n ty) st (fun _ st' => Declares st st' ∧
      st'.scopes.routines = st.scopes.routines ∧ (Quiet st st' → ty.isValid st.scopes.env = true →
        Ty.EnvValid st.scopes.env → Ty.EnvValid st'.scopes.env)) := by
  simp only [defineType, csat_bind, csat_scopes]
  cases h : st.scopes.defineType n ty with
  | none =>
    exact report_sat _ fun st' r' nq => ⟨r'.declares, by rw [r'.scopes], fun hq => absurd hq nq⟩
  | some sc =>
    simp only [csat_modify]
    unfold Scopes.defineType at h
    split at h
    · cases h
    · cases h
      refine ⟨Declares.of_quiet rfl rfl rfl rfl, rfl, fun _ hv henv m t hm => ?_⟩
      simp only [Scopes.env] at hm henv hv ⊢
      rcases lookup_append_cases hm with hm | hm
      · exact Ty.isValid_append _ t (henv m t hm)
      · rw [lookup_cons_ite] at hm
        split at hm
        · cases hm; exact Ty.isValid_append _ _ hv
        · cases hm

/-- A loop whose every step reads and reports exactly when `bad` holds of its element is
quiet only when no element is bad. -/
theorem forIn_report_sat {α : Type} (bad : Scopes → α → Bool) (err : α → Error) :
    ∀ (xs : List α) (st : Checker), CSat (forIn xs PUnit.unit fun x _ => do
      let sc ← scopes
      if bad sc x = true then do report (err x); pure (ForInStep.yield PUnit.unit)
      else pure (ForInStep.yield PUnit.unit)) st (fun _ st' => Reads st st' ∧
        (Quiet st st' → ∀ x ∈ xs, bad st.scopes x = false)) := by
  intro xs
  induction xs with
  | nil => exact fun st => ⟨Reads.refl st, fun _ _ h => by cases h⟩
  | cons x xs ih =>
    intro st
    simp only [List.forIn_cons, csat_bind, csat_scopes]
    split
    · simp only [csat_bind]
      refine report_sat _ fun st₁ r₁ nq₁ => ?_
      simp only [csat_pure]
      exact (ih st₁).mono₂ fun _ st₂ r₂ _ => loud_first r₁ nq₁ r₂
    · rename_i hx
      simp only [csat_pure]
      refine (ih st).mono₂ fun _ st₂ r₂ h₂ => ⟨r₂, fun hq y hy => ?_⟩
      rcases List.mem_cons.mp hy with rfl | hy
      · simpa using hx
      · exact h₂ hq y hy

theorem fieldsValid_of_forall {env : TypeEnv} :
    ∀ {fs : List (String × Ty)}, (∀ x ∈ fs, (!x.2.isValid env) = false) →
      Ty.isValid.fieldsValid env fs = true := by
  intro fs
  induction fs with
  | nil => exact fun _ => rfl
  | cons field rest ih =>
    intro h
    obtain ⟨f, t⟩ := field
    simp only [Ty.isValid.fieldsValid, Bool.and_eq_true]
    exact ⟨by simpa using h (f, t) List.mem_cons_self,
      ih fun x hx => h x (List.mem_cons_of_mem _ hx)⟩

theorem declareRecord_sat (n : String) (fs : List (String × Ty)) :
    CSat (declareRecord n fs) st (fun _ st' => Declares st st' ∧
      st'.scopes.routines = st.scopes.routines ∧
        (Quiet st st' → Ty.EnvValid st.scopes.env → Ty.EnvValid st'.scopes.env)) := by
  simp only [declareRecord, csat_bind]
  refine (forIn_report_sat (fun sc x => !x.2.isValid sc.env) (fun x => .invalidFieldType n x.2)
    fs st).mono₂ fun _ st₁ r₁ h₁ => ?_
  refine (defineType_sat n _).mono₃ fun _ st₂ d₂ hr₂ h₂ =>
    ⟨r₁.declares.trans d₂, by rw [hr₂, r₁.scopes], fun hq henv => ?_⟩
  obtain ⟨q₁, q₂⟩ := Declares.split r₁.declares d₂ hq
  rw [r₁.scopes] at h₂
  exact h₂ q₂ (by simpa [Ty.isValid] using fieldsValid_of_forall (h₁ q₁)) henv

theorem declareAlias_sat (n : String) (t : Ty) :
    CSat (declareAlias n t) st (fun _ st' => Declares st st' ∧
      st'.scopes.routines = st.scopes.routines ∧
        (Quiet st st' → Ty.EnvValid st.scopes.env → Ty.EnvValid st'.scopes.env)) := by
  simp only [declareAlias, csat_bind, csat_scopes]
  split
  · refine report_bind_sat _ _ fun st' r' nq => ?_
    simp only [csat_pure]
    exact ⟨r'.declares, by rw [r'.scopes], fun hq => absurd hq nq⟩
  · rename_i hv
    exact (defineType_sat n t).mono₃ fun _ st' d hr h =>
      ⟨d, hr, fun hq henv => h hq (by simpa using hv) henv⟩

theorem declareTypes_sat : ∀ (ss : List Stmt) (st : Checker),
    CSat (declareTypes ss) st (fun _ st' => Declares st st' ∧
      st'.scopes.routines = st.scopes.routines ∧
        (Quiet st st' → Ty.EnvValid st.scopes.env → Ty.EnvValid st'.scopes.env)) := by
  intro ss
  induction ss with
  | nil => exact fun st => ⟨Declares.refl st, rfl, fun _ h => h⟩
  | cons s ss ih =>
    intro st
    rw [csat_declareTypes_cons]
    -- one declaration, then the rest; a quiet run is quiet in both
    have step : ∀ st₁, Declares st st₁ → st₁.scopes.routines = st.scopes.routines →
        (Quiet st st₁ → Ty.EnvValid st.scopes.env → Ty.EnvValid st₁.scopes.env) →
        CSat (declareTypes ss) st₁ (fun _ st' => Declares st st' ∧
          st'.scopes.routines = st.scopes.routines ∧
          (Quiet st st' → Ty.EnvValid st.scopes.env → Ty.EnvValid st'.scopes.env)) :=
      fun st₁ d₁ hr₁ h₁ => (ih st₁).mono₃ fun _ st₂ d₂ hr₂ h₂ =>
        ⟨d₁.trans d₂, hr₂.trans hr₁, fun hq henv => by
          obtain ⟨q₁, q₂⟩ := Declares.split d₁ d₂ hq
          exact h₂ q₂ (h₁ q₁ henv)⟩
    cases s with
    | recordType n fs => exact (declareRecord_sat n fs).mono₃ fun _ st₁ d hr h => step st₁ d hr h
    | typeAlias n t => exact (declareAlias_sat n t).mono₃ fun _ st₁ d hr h => step st₁ d hr h
    | _ =>
      simp only [csat_pure]
      exact step st (Declares.refl st) rfl fun _ h => h

theorem note_sat (level : Level) (source : Source) (message : String)
    {Q : Unit → Checker → Prop}
    (hQ : ∀ st', st'.scopes = st.scopes → Steps st st' → Quiet st st' → Q () st') :
    CSat (note level source message) st Q :=
  hQ _ rfl (Steps.of_quiet rfl rfl rfl rfl) rfl

/-- The first two passes keep the variables, declare only routines of the program, and when
quiet leave only valid declared types. -/
theorem declarations_sat (ss : List Stmt) (st : Checker) (hr : RoutinesFrom ss st.scopes) :
    CSat (declarations ss) st (fun _ st' => Declares st st' ∧ RoutinesFrom ss st'.scopes ∧
      (Quiet st st' → Ty.EnvValid st.scopes.env → Ty.EnvValid st'.scopes.env)) := by
  simp only [declarations, csat_bind]
  refine (declareSignatures_sat ss ss st (fun _ h => h) hr).mono₃ fun _ st₁ d₁ ht₁ hr₁ => ?_
  refine note_sat _ _ _ fun st₂ hs₂ r₂ q₂ => ?_
  refine (declareTypes_sat ss st₂).mono₃ fun _ st₃ d₃ hr₃ h₃ => ?_
  refine note_sat _ _ _ fun st₄ hs₄ r₄ q₄ => ?_
  have d₂ : Declares st₁ st₂ := Declares.of_quiet r₂.returnTypes (by rw [hs₂]) (by rw [hs₂]) q₂
  have d₄ : Declares st₃ st₄ := Declares.of_quiet r₄.returnTypes (by rw [hs₄]) (by rw [hs₄]) q₄
  refine ⟨d₁.trans (d₂.trans (d₃.trans d₄)), fun n sig hm => hr₁ n sig ?_, fun hq henv => ?_⟩
  · rwa [hs₄, hr₃, hs₂] at hm
  · obtain ⟨q₁₂, q₃⟩ := Declares.split (d₁.trans d₂) d₃ (Eq.trans q₄.symm hq)
    have env₂ : st₂.scopes.env = st.scopes.env := by
      rw [hs₂]; exact ht₁
    rw [hs₄]
    exact h₃ q₃ (env₂ ▸ henv)

end Declarations


/-! ## Routine bodies -/

section Routines

variable {st : Checker}

theorem declareParams_quiet (name : String) : ∀ (ps : List Param) (st : Checker),
    CSat (declareParams name ps) st (fun _ st' => Steps st st' ∧
      (Quiet st st' → st.scopes.WellFormed →
        ParamsDeclare st.scopes ps st'.scopes ∧ st'.scopes.WellFormed)) := by
  intro ps
  induction ps with
  | nil => exact fun st => ⟨Steps.refl st, fun _ hwf => ⟨.nil, hwf⟩⟩
  | cons p rest ih =>
    intro st
    simp only [declareParams, csat_bind, csat_scopes]
    split
    · -- a parameter named twice is reported
      refine report_bind_sat _ _ fun st₁ r₁ nq₁ => ?_
      exact (ih st₁).mono₂ fun _ st₂ r₂ _ =>
        Steps.loud r₁.steps r₂ (.inl nq₁)
    · rename_i hfresh
      rw [csat_bind]
      refine (resolveReported_sat p.ty).mono₂ fun o st₁ r₁ h₁ => ?_
      cases o with
      | none =>
        refine (ih st₁).mono₂ fun _ st₂ r₂ _ =>
          ⟨r₁.steps.trans r₂, fun hq => ?_⟩
        obtain ⟨_, _, _, h⟩ := h₁ (Steps.split r₁.steps r₂ hq).1
        cases h
      | some T =>
        rw [csat_bind]
        refine declareVar_sat p.name T fun st₂ hs₂ r₂ q₂ => ?_
        refine (ih st₂).mono₂ fun _ st₃ r₃ h₃ =>
          ⟨r₁.steps.trans (r₂.trans r₃), fun hq hwf => ?_⟩
        obtain ⟨q₁₂, q₃⟩ := Steps.split (r₁.steps.trans r₂) r₃ hq
        obtain ⟨hv, T', hT', h⟩ := h₁ (Eq.trans q₂.symm q₁₂)
        cases h
        rw [r₁.scopes] at hs₂
        have wf₂ : st₂.scopes.WellFormed := by
          rw [hs₂]
          exact hwf.declare (Ty.resolveDeep_resolved hT') (Ty.isValid_resolveDeep hwf.types hv hT')
            p.name
        obtain ⟨hp, w₃⟩ := h₃ q₃ wf₂
        rw [hs₂] at hp
        exact ⟨.cons (Bool.eq_false_iff.mpr hfresh) hv hT' hp, w₃⟩

/-- Pushing a return type for a body and popping it afterwards is a step. -/
theorem Steps.pop {st₂ : Checker} {R : Ty} (h : Steps { st with returnTypes := R :: st.returnTypes } st₂) :
    Steps st { st₂ with returnTypes := st₂.returnTypes.drop 1 } :=
  ⟨by simp [h.returnTypes], h.types, h.routines, h.grows⟩

/-- The rest of a routine's check once its return type `R` is known: the body is checked
with `R` pushed, a body of a routine returning something that does not end in a return is
reported, `R` is popped again and the routine's scope is left. -/
theorem routineTail_sat (name : String) (R : Ty) (b : List Stmt) (st : Checker) : CSat (do
      modify fun st => { st with returnTypes := R :: st.returnTypes }
      let body' ← checkStmts b
      if (!R.isVoid && !endsWithReturn body') = true then report (.missingReturn name)
      modify fun st => { st with returnTypes := st.returnTypes.drop 1 }
      exitScope
      pure body') st (fun b' st' => Steps st st' ∧ (Quiet st st' → st.scopes.WellFormed →
        st.scopes.locals ≠ [] → ∃ sc', BlockChecks true (some R) st.scopes b' sc' ∧
          (R.isVoid = false → endsWithReturn b' = true) ∧ st'.scopes = st.scopes.exit)) := by
  simp only [csat_bind, csat_modify]
  refine (checkStmts_quiet b _).mono₂ fun b' st₁ r₁ h₁ => ?_
  split
  · -- a body that may fall off its end is reported
    refine report_bind_sat _ _ fun st₂ r₂ nq₂ => ?_
    simp only [csat_bind, csat_modify, csat_pure]
    refine exitScope_sat fun st₃ _ r₃ _ => ?_
    exact Steps.loud (r₁.trans r₂.steps).pop r₃
      (.inl fun hq => nq₂ (Steps.split r₁ r₂.steps hq).2)
  · rename_i hends
    simp only [csat_bind, csat_modify, csat_pure]
    refine exitScope_sat fun st₃ hs₃ r₃ _ => ?_
    refine ⟨r₁.pop.trans r₃, fun hq hwf hl => ?_⟩
    have q₁ := (Quiet.of_grows r₁.grows r₃.grows hq).1
    have blocks : BlockChecks true (some R) st.scopes b' st₁.scopes := (h₁ q₁ hwf).1
    have hexit := blocks.exit_eq hl
    refine ⟨st₁.scopes, blocks, fun hv => by simpa [hv] using hends, ?_⟩
    rw [hs₃ hexit.2, ← hexit.1]

/-- Checking a routine's body is a step. When it is quiet the routine's return type resolves,
and in well formed scopes the routine checks and its scope is left again. -/
theorem checkRoutineBody_quiet (name : String) (ps : List Param) (r : Option Ty) (b : List Stmt)
    (st : Checker) :
    CSat (checkRoutineBody name ps r b) st (fun b' st' => Steps st st' ∧ (Quiet st st' →
      (∃ R, ReturnResolves st.scopes.env r R) ∧
      (st.scopes.WellFormed → RoutineChecks true st.scopes ps r b' ∧ st'.scopes = st.scopes))) := by
  unfold checkRoutineBody
  simp only [csat_bind]
  refine enterScope_sat fun st₁ hs₁ r₁ _ => ?_
  refine (declareParams_quiet name ps st₁).mono₂ fun _ st₂ r₂ h₂ => ?_
  have henv : st₂.scopes.env = st.scopes.env := (r₁.trans r₂).types
  -- both ways to the return type `R` end in the same tail
  have finish : ∀ R st₃ b' st₄, Steps st₂ st₃ →
      (Quiet st₂ st₃ → ReturnResolves st.scopes.env r R ∧ st₃.scopes = st₂.scopes) →
      Steps st₃ st₄ ∧ (Quiet st₃ st₄ → st₃.scopes.WellFormed → st₃.scopes.locals ≠ [] →
        ∃ sc', BlockChecks true (some R) st₃.scopes b' sc' ∧
          (R.isVoid = false → endsWithReturn b' = true) ∧ st₄.scopes = st₃.scopes.exit) →
      Steps st st₄ ∧ (Quiet st st₄ → (∃ R, ReturnResolves st.scopes.env r R) ∧
        (st.scopes.WellFormed → RoutineChecks true st.scopes ps r b' ∧ st₄.scopes = st.scopes)) := by
    rintro R st₃ b' st₄ r₃ h₃ ⟨r₄, h₄⟩
    refine ⟨r₁.trans (r₂.trans (r₃.trans r₄)), fun hq => ?_⟩
    obtain ⟨-, q₂₄⟩ := Steps.split r₁ (r₂.trans (r₃.trans r₄)) hq
    obtain ⟨q₂, q₃₄⟩ := Steps.split r₂ (r₃.trans r₄) q₂₄
    obtain ⟨q₃, q₄⟩ := Steps.split r₃ r₄ q₃₄
    obtain ⟨hR, hs₃⟩ := h₃ q₃
    refine ⟨⟨R, hR⟩, fun hwf => ?_⟩
    obtain ⟨params, wf₂⟩ := h₂ q₂ (hs₁ ▸ hwf.enter)
    have hexit := params.exit_eq (by rw [hs₁]; simp [Scopes.enter])
    rw [← hs₃] at wf₂ hexit
    obtain ⟨sc', blocks, ends, hs₄⟩ := h₄ q₄ wf₂ hexit.2
    rw [hs₁] at params hexit
    rw [hs₃] at blocks
    exact ⟨.intro params hR blocks ends, by rw [hs₄ , hexit.1, Scopes.exit_enter]⟩
  cases r with
  | none =>
    simp only [pure_bind]
    exact (routineTail_sat name .void b st₂).mono fun b' st₄ h₄ =>
      finish .void st₂ b' st₄ (Steps.refl st₂) (fun _ => ⟨rfl, rfl⟩) h₄
  | some t =>
    simp only [pure_bind]
    rw [csat_bind]
    refine (resolveReported_sat t).mono₂ fun o st₃ r₃ h₃ => ?_
    refine (routineTail_sat name (o.getD t) b st₃).mono fun b' st₄ h₄ =>
      finish (o.getD t) st₃ b' st₄ r₃.steps (fun q₃ => ⟨?_, r₃.scopes⟩) h₄
    obtain ⟨hv, T, hT, rfl⟩ := h₃ q₃
    rw [henv] at hv hT
    exact ⟨hv, hT⟩

end Routines

/-! ## Passes 3 to 5 -/

section Passes

theorem checkGlobal_eq (s : Stmt) :
    checkGlobal s = if s.declaresGlobal then checkStmt s else pure s := by
  cases s <;> rfl

theorem csat_mapM_cons {α β : Type} (f : α → CheckM β) (a : α) (as : List α) {st : Checker}
    {Q : List β → Checker → Prop} :
    CSat ((a :: as).mapM f) st Q ↔
      CSat (f a) st (fun b st' => CSat (as.mapM f) st' (fun bs st'' => Q (b :: bs) st'')) := by
  simp only [List.mapM_cons, csat_bind, csat_pure]

/-- Pass 3: the globals are checked in order. When quiet in well formed scopes, the globals it
returns check one after another, and the scopes they leave are well formed. -/
theorem globals_quiet : ∀ (ss : List Stmt) (st : Checker),
    CSat (ss.mapM checkGlobal) st (fun ss' st' => Steps st st' ∧
      List.Forall₂ (Stmt.Keeps Stmt.declaresGlobal) ss ss' ∧
      (Quiet st st' → st.scopes.WellFormed →
        BlockChecks true st.returnTypes.head? st.scopes (ss'.filter Stmt.declaresGlobal)
          st'.scopes ∧ st'.scopes.WellFormed)) := by
  intro ss
  induction ss with
  | nil => exact fun st => ⟨Steps.refl st, .nil, fun _ hwf => ⟨.nil, hwf⟩⟩
  | cons s ss ih =>
    intro st
    rw [csat_mapM_cons, checkGlobal_eq]
    split
    · rename_i hg
      refine (checkStmt_quiet s st).mono₃ fun s' st₁ r₁ hh h₁ => ?_
      refine (ih st₁).mono₃ fun ss' st₂ r₂ hk h₂ => ?_
      refine ⟨r₁.trans r₂, .cons ⟨hh, fun h => absurd hg (by simp [h])⟩ hk, fun hq hwf => ?_⟩
      obtain ⟨q₁, q₂⟩ := Steps.split r₁ r₂ hq
      obtain ⟨hs, wf₁⟩ := h₁ q₁ hwf
      obtain ⟨hb, wf₂⟩ := h₂ q₂ wf₁
      rw [r₁.returnTypes] at hb
      have hg' : s'.declaresGlobal = true := by
        rw [Stmt.declaresGlobal_eq_heading, hh, ← Stmt.declaresGlobal_eq_heading, hg]
      rw [List.filter_cons_of_pos hg']
      exact ⟨.cons hs hb, wf₂⟩
    · rename_i hg
      rw [csat_pure]
      refine (ih st).mono₃ fun ss' st₂ r₂ hk h₂ => ?_
      refine ⟨r₂, .cons ⟨rfl, fun _ => rfl⟩ hk, fun hq hwf => ?_⟩
      rw [List.filter_cons_of_neg hg]
      exact h₂ hq hwf

/-- A pass each step of which keeps the scopes when quiet in well formed scopes: a quiet run
establishes `P` of every statement it was given and `J` of every statement it returns. -/
theorem mapM_keeps_sat (f : Stmt → CheckM Stmt) (P : TypeEnv → Stmt → Prop)
    (J : Option Ty → Scopes → Stmt → Prop)
    (hf : ∀ s st, CSat (f s) st (fun s' st' => Steps st st' ∧ s.Keeps k s' ∧
      (Quiet st st' → P st.scopes.env s ∧ (st.scopes.WellFormed →
        J st.returnTypes.head? st.scopes s' ∧ st'.scopes = st.scopes)))) :
    ∀ (ss : List Stmt) (st : Checker), CSat (ss.mapM f) st (fun ss' st' => Steps st st' ∧
      List.Forall₂ (Stmt.Keeps k) ss ss' ∧ (Quiet st st' → (∀ s ∈ ss, P st.scopes.env s) ∧
        (st.scopes.WellFormed →
          (∀ s ∈ ss', J st.returnTypes.head? st.scopes s) ∧ st'.scopes = st.scopes))) := by
  intro ss
  induction ss with
  | nil =>
    intro st
    simp only [List.mapM_nil, csat_pure]
    exact ⟨Steps.refl st, .nil, fun _ => ⟨by simp, fun _ => ⟨by simp, trivial⟩⟩⟩
  | cons s ss ih =>
    intro st
    rw [csat_mapM_cons]
    refine (hf s st).mono₃ fun s' st₁ r₁ hk₁ h₁ => ?_
    refine (ih st₁).mono₃ fun ss' st₂ r₂ hk₂ h₂ => ?_
    refine ⟨r₁.trans r₂, .cons hk₁ hk₂, fun hq => ?_⟩
    obtain ⟨q₁, q₂⟩ := Steps.split r₁ r₂ hq
    obtain ⟨hP₁, hJ₁⟩ := h₁ q₁
    obtain ⟨hP₂, hJ₂⟩ := h₂ q₂
    have henv : st₁.scopes.env = st.scopes.env := r₁.types
    rw [henv] at hP₂
    refine ⟨List.forall_mem_cons.mpr ⟨hP₁, hP₂⟩, fun hwf => ?_⟩
    obtain ⟨hs, hsc₁⟩ := hJ₁ hwf
    rw [hsc₁, r₁.returnTypes] at hJ₂
    obtain ⟨hss, hsc₂⟩ := hJ₂ hwf
    exact ⟨List.forall_mem_cons.mpr ⟨hs, hss⟩, hsc₂⟩

theorem checkRoutine_quiet (s : Stmt) (st : Checker) :
    CSat (checkRoutine s) st (fun s' st' => Steps st st' ∧ s.Keeps Stmt.isRoutine s' ∧
      (Quiet st st' → (∀ n ps r b, s = .routine n ps r b → ∃ R, ReturnResolves st.scopes.env r R) ∧
        (st.scopes.WellFormed → (∀ n ps r b, s' = .routine n ps r b →
          RoutineChecks true st.scopes ps r b) ∧ st'.scopes = st.scopes))) := by
  cases s with
  | routine n ps r b =>
    simp only [checkRoutine, csat_bind, csat_pure]
    refine (checkRoutineBody_quiet n ps r b st).mono₂ fun b' st' r₁ h₁ =>
      ⟨r₁, ⟨rfl, fun h => by cases h⟩, fun hq => ?_⟩
    obtain ⟨hR, hJ⟩ := h₁ hq
    refine ⟨fun n' ps' r' b'' h => ?_, fun hwf => ?_⟩
    · cases h
      exact hR
    · obtain ⟨hc, hsc⟩ := hJ hwf
      exact ⟨fun n' ps' r' b'' h => by cases h; exact hc, hsc⟩
  | _ =>
    show CSat (pure _) st _
    rw [csat_pure]
    exact ⟨Steps.refl st, ⟨rfl, fun _ => rfl⟩, fun _ =>
      ⟨(fun _ _ _ _ h => by cases h), fun _ => ⟨(fun _ _ _ _ h => by cases h), rfl⟩⟩⟩

theorem checkMain_quiet (s : Stmt) (st : Checker) :
    CSat (checkMain s) st (fun s' st' => Steps st st' ∧ s.Keeps (fun s => !isDeclaration s) s' ∧
      (Quiet st st' → True ∧ (st.scopes.WellFormed → (isDeclaration s' = false →
        StmtChecks true st.returnTypes.head? st.scopes s' st.scopes) ∧ st'.scopes = st.scopes))) := by
  unfold checkMain
  split
  · rename_i hd
    rw [csat_pure]
    exact ⟨Steps.refl st, ⟨rfl, fun _ => rfl⟩, fun _ =>
      ⟨trivial, fun _ => ⟨fun h => absurd hd (by simp [h]), rfl⟩⟩⟩
  · rename_i hd
    refine (checkStmt_quiet s st).mono₃ fun s' st' r₁ hh h₁ =>
      ⟨r₁, ⟨hh, fun h => absurd hd (by simpa using h)⟩, fun hq => ⟨trivial, fun hwf => ?_⟩⟩
    have hd' : isDeclaration s' = false := by
      rw [Stmt.isDeclaration_eq_heading, hh, ← Stmt.isDeclaration_eq_heading]
      simpa using hd
    obtain ⟨hc, -⟩ := h₁ hq hwf
    have hsc := hc.scopes_eq hd'
    rw [hsc] at hc
    exact ⟨fun _ => hc, hsc⟩

/-- Pass 4: when quiet, every routine's return type resolves, and in well formed scopes every
routine it returns checks in them. -/
theorem routines_quiet (ss : List Stmt) (st : Checker) :
    CSat (ss.mapM checkRoutine) st (fun ss' st' => Steps st st' ∧
      List.Forall₂ (Stmt.Keeps Stmt.isRoutine) ss ss' ∧ (Quiet st st' →
        (∀ s ∈ ss, ∀ n ps r b, s = .routine n ps r b → ∃ R, ReturnResolves st.scopes.env r R) ∧
        (st.scopes.WellFormed → (∀ s ∈ ss', ∀ n ps r b, s = .routine n ps r b →
          RoutineChecks true st.scopes ps r b) ∧ st'.scopes = st.scopes))) :=
  mapM_keeps_sat checkRoutine
    (fun env s => ∀ n ps r b, s = .routine n ps r b → ∃ R, ReturnResolves env r R)
    (fun _ sc s => ∀ n ps r b, s = .routine n ps r b → RoutineChecks true sc ps r b)
    checkRoutine_quiet ss st

/-- Pass 5: when quiet in well formed scopes, every statement it returns that declares nothing
checks in them. -/
theorem main_quiet (ss : List Stmt) (st : Checker) :
    CSat (ss.mapM checkMain) st (fun ss' st' => Steps st st' ∧
      List.Forall₂ (Stmt.Keeps fun s => !isDeclaration s) ss ss' ∧ (Quiet st st' →
        (∀ s ∈ ss, True) ∧ (st.scopes.WellFormed → (∀ s ∈ ss', isDeclaration s = false →
          StmtChecks true st.returnTypes.head? st.scopes s st.scopes) ∧ st'.scopes = st.scopes))) :=
  mapM_keeps_sat checkMain (fun _ _ => True)
    (fun ret sc s => isDeclaration s = false → StmtChecks true ret sc s sc) checkMain_quiet ss st

/-- Passes 4 and 5 leave alone the globals that pass 3 returns. -/
theorem last_passes_keep_globals {ss₃ ss₄ ss₅ : List Stmt}
    (k₄ : List.Forall₂ (Stmt.Keeps Stmt.isRoutine) ss₃ ss₄)
    (k₅ : List.Forall₂ (Stmt.Keeps fun s => !isDeclaration s) ss₄ ss₅) :
    ss₅.filter Stmt.declaresGlobal = ss₃.filter Stmt.declaresGlobal := by
  rw [Stmt.Keeps.filter_declaresGlobal k₅ fun s h => by cases s <;> cases h <;> rfl,
    Stmt.Keeps.filter_declaresGlobal k₄ fun s h => by cases s <;> cases h <;> rfl]

/-- Pass 5 leaves alone the routines that pass 4 returns. -/
theorem main_keeps_routine {ss₄ ss₅ : List Stmt}
    (k₅ : List.Forall₂ (Stmt.Keeps fun s => !isDeclaration s) ss₄ ss₅) {n : String}
    {ps : List Param} {r : Option Ty} {b : List Stmt} (hmem : Stmt.routine n ps r b ∈ ss₅) :
    Stmt.routine n ps r b ∈ ss₄ :=
  Stmt.Keeps.mem_of_mem k₅ hmem fun s h => by
    rw [Bool.not_eq_false', Stmt.isDeclaration_eq_heading, h]; rfl

end Passes

/-! ## The walk -/

section Walk

variable {β : Type} {st : Checker} {Q : β → Checker → Prop}

theorem CSat.with_state {m : CheckM β} (h : CSat m st Q) :
    CSat m st (fun b st' => Q b st' ∧ st' = (m.run st).2) := ⟨h, rfl⟩

/-- Along steps, no diagnostic at the end means none before. -/
theorem Steps.nil_left {st' : Checker} (h : Steps st st') (h' : st'.diagnostics = []) :
    st.diagnostics = [] := by
  obtain ⟨l, hl⟩ := h.grows
  rw [h'] at hl
  exact (List.append_eq_nil_iff.mp hl.symm).1

end Walk

/-- The state the first two passes leave, from the state a walk starts in. -/
def declared (ss : List Stmt) : Checker :=
  ((declarations ss).run ⟨Scopes.empty, [], [], [], []⟩).2

/-- Scopes with no variable and only valid types and return types are well formed. -/
theorem wellFormed_of_no_variables {sc : Scopes} (hg : sc.globals = []) (hl : sc.locals = [])
    (htypes : Ty.EnvValid sc.env)
    (hret : ∀ n sig, sc.routine? n = some sig → sig.returnType.isValid sc.env = true) :
    sc.WellFormed := by
  have none : ∀ n, sc.typeOf? n = none := by
    intro n
    simp [Scopes.typeOf?, Scopes.frames, hg, hl]
  exact ⟨fun n T h => by simp [none] at h, fun n T h => by simp [none] at h, htypes, hret⟩

/-- When the walk reports nothing, the scopes its first two passes leave are well formed: their
types are valid, and so is every routine's return type, which pass 4 resolves. -/
theorem walk_declared_wellFormed (p : Program) :
    CSat (walk p) ⟨Scopes.empty, [], [], [], []⟩ (fun _ st' => st'.diagnostics = [] →
      (declared p.statements).scopes.WellFormed) := by
  rw [walk_eq]
  simp only [csat_bind, csat_note, csat_get, csat_pure]
  refine (declarations_sat p.statements _ fun _ _ h => absurd h List.not_mem_nil).with_state.mono
    fun _ st₁ h₁ => ?_
  obtain ⟨⟨d₁, hrf, henv⟩, hst₁⟩ := h₁
  refine (globals_quiet p.statements st₁).mono₃ fun ss₃ st₂ r₂ k₃ _ => ?_
  refine (routines_quiet ss₃ _).mono₃ fun ss₄ st₃ r₃ _ h₄ => ?_
  refine (main_quiet ss₄ _).mono₃ fun _ st₄ r₄ _ _ hq => ?_
  have e₃ : st₃.diagnostics = [] := r₄.nil_left hq
  have e₂ : st₂.diagnostics = [] := r₃.nil_left e₃
  have e₁ : st₁.diagnostics = [] := r₂.nil_left e₂
  obtain ⟨hret, -⟩ := h₄ (e₃.trans e₂.symm)
  have env₂ : st₂.scopes.env = st₁.scopes.env := r₂.types
  have hdecl : declared p.statements = st₁ := hst₁.symm
  rw [hdecl]
  refine wellFormed_of_no_variables (by rw [d₁.globals]; rfl) (by rw [d₁.locals]; rfl)
    (henv e₁ fun _ _ h => absurd h (by simp [Scopes.env, Scopes.empty])) fun n sig h => ?_
  obtain ⟨l₁, l₂, hl, -⟩ := List.lookup_eq_some_iff.mp h
  obtain ⟨ps, r, b, hmem, rfl⟩ := hrf n sig (by rw [hl]; simp)
  obtain ⟨R, hR⟩ := hret _ (Stmt.Keeps.mem k₃ hmem rfl) n ps r b rfl
  rw [← env₂]
  exact hR.valid

/-- A walk keeps the heading of every top-level statement; when it reports nothing, the
program it returns is accepted from the scopes its first two passes leave to the scopes it ends
in. -/
theorem walk_accepts (p : Program) :
    CSat (walk p) ⟨Scopes.empty, [], [], [], []⟩ (fun p' st' =>
      p'.statements.map Stmt.heading = p.statements.map Stmt.heading ∧
      (st'.diagnostics = [] → (declared p.statements).diagnostics = [] ∧
        Accepts true (declared p.statements).scopes st'.scopes p'.statements)) := by
  refine CSat.imp ?_ (walk_declared_wellFormed p)
  rw [walk_eq]
  simp only [csat_bind, csat_note, csat_get, csat_pure]
  refine (declarations_sat p.statements _ fun _ _ h => absurd h List.not_mem_nil).with_state.mono
    fun _ st₁ h₁ => ?_
  obtain ⟨⟨d₁, -, -⟩, hst₁⟩ := h₁
  refine (globals_quiet p.statements st₁).mono₃ fun ss₃ st₂ r₂ k₃ h₃ => ?_
  refine (routines_quiet ss₃ _).mono₃ fun ss₄ st₃ r₃ k₄ h₄ => ?_
  refine (main_quiet ss₄ _).mono₃ fun ss₅ st₄ r₄ k₅ h₅ wf => ?_
  refine ⟨by rw [Stmt.Keeps.map_heading k₅, Stmt.Keeps.map_heading k₄, Stmt.Keeps.map_heading k₃],
    fun hq => ?_⟩
  -- no pass reported anything
  have e₃ : st₃.diagnostics = [] := r₄.nil_left hq
  have e₂ : st₂.diagnostics = [] := r₃.nil_left e₃
  have e₁ : st₁.diagnostics = [] := r₂.nil_left e₂
  have q₂ : Quiet st₁ st₂ := e₂.trans e₁.symm
  obtain ⟨-, hJ₄⟩ := h₄ (e₃.trans e₂.symm)
  have hdecl : declared p.statements = st₁ := hst₁.symm
  have wf₁ : st₁.scopes.WellFormed := hdecl ▸ wf hq
  have hnil : st₁.returnTypes.head? = none := by rw [d₁.returnTypes]; rfl
  obtain ⟨globals, wf₂⟩ := h₃ q₂ wf₁
  obtain ⟨routines, hsc₃⟩ := hJ₄ wf₂
  obtain ⟨-, hJ₅⟩ := h₅ (hq.trans e₃.symm)
  obtain ⟨main, hsc₄⟩ := hJ₅ (by show st₃.scopes.WellFormed; rw [hsc₃]; exact wf₂)
  have hnil₃ : st₃.returnTypes.head? = none := by rw [r₃.returnTypes, r₂.returnTypes, hnil]
  rw [hnil] at globals
  rw [hsc₄, hsc₃]
  refine ⟨by rw [hdecl]; exact e₁, ⟨?_, fun n ps r b hmem => ?_, fun s hs hd => ?_⟩⟩
  · rw [hdecl, last_passes_keep_globals k₄ k₅]
    exact globals
  · exact routines _ (main_keeps_routine k₅ hmem) n ps r b rfl
  · have hc := main s hs hd
    rw [hnil₃, hsc₃] at hc
    exact hc

/-- A walk keeps the heading of every top-level statement; when it reports nothing, the
program it returns is accepted from the scopes its first two passes leave. -/
theorem walk_quiet (p : Program) :
    CSat (walk p) ⟨Scopes.empty, [], [], [], []⟩ (fun p' st' =>
      p'.statements.map Stmt.heading = p.statements.map Stmt.heading ∧
      (st'.diagnostics = [] → (declared p.statements).diagnostics = [] ∧
        ∃ sc', Accepts true (declared p.statements).scopes sc' p'.statements)) :=
  (walk_accepts p).mono fun _ _ h => ⟨h.1, fun hq => ⟨(h.2 hq).1, _, (h.2 hq).2⟩⟩

end Check

end ImpStack
