import ImpStack.Proofs.ScopeDependence
import ImpStack.Proofs.Reanalysis

/-! # The types checking fills in

  Checking returns the program it checked, with one change: a variable declared without a type
  gets its initializer's. Which declarations get one depends on where the walk reaches them,
  through the scopes it has built by then. `declaredType` says what a declaration carries once
  checked in given scopes; `StmtFills` and `BlockFills` say what checking a statement or a block
  returns from given scopes, following the walk into branches and loop bodies; `PassFills` and
  `RoutinesFill` do the same for the passes over the top-level statements.

  Each relation is read off the checker by following its steps (`checkStmt_fills`), with two
  facts about the state: what a check returns depends on the scopes alone
  (`Check.ScopeDetermined`), and a block only declares in the scope it enters
  (`Check.OnlyDeclares`), so leaving it restores the scopes it was entered from.
-/

namespace ImpStack

/-- A checker's state holding the given scopes and nothing else. -/
def Checker.ofScopes (sc : Scopes) : Checker := ⟨sc, [], [], [], []⟩

namespace Check

/-- The type the checker gives an expression in the given scopes. -/
def typeIn (sc : Scopes) (e : Expr) : Option Ty := ((typeOf e).run (Checker.ofScopes sc)).1

/-- The scopes checking a statement leaves, from the given ones. -/
def scopesAfter (sc : Scopes) (s : Stmt) : Scopes :=
  ((checkStmt s).run (Checker.ofScopes sc)).2.scopes

/-- The scopes a routine's body is checked in, from the given ones: a scope of its own
holding the parameters. -/
def bodyScopes (sc : Scopes) (routine : String) (ps : List Param) : Scopes :=
  ((declareParams routine ps).run (Checker.ofScopes sc.enter)).2.scopes

/-- The type a declaration carries once checked in the given scopes. One written without a
type, whose name the innermost scope does not declare yet, takes the type the checker gives its
initializer, if there is one and it has a type; every other declaration keeps what is written. -/
def declaredType (sc : Scopes) (n : String) (t : Option Ty) (i : Option Expr) : Option Ty :=
  if t.isNone && !sc.isDefinedHere n then i.bind (typeIn sc) else t

theorem typeOf_run (e : Expr) (st : Checker) : ((typeOf e).run st).1 = typeIn st.scopes e :=
  (ScopeDetermined.typeOf e st (Checker.ofScopes st.scopes) rfl).1

theorem checkStmt_run_scopes (s : Stmt) (st : Checker) :
    ((checkStmt s).run st).2.scopes = scopesAfter st.scopes s :=
  (ScopeDetermined.checkStmt s st (Checker.ofScopes st.scopes) rfl).2

theorem csat_typeOf (e : Expr) {st : Checker} {Q : Option Ty → Checker → Prop} :
    CSat (typeOf e) st Q ↔ Q (typeIn st.scopes e) ((typeOf e).run st).2 := by
  rw [CSat, typeOf_run]

/-- A step whose every outcome satisfies `Q`. -/
theorem CSat.of_forall {α : Type} {m : CheckM α} {st : Checker} {Q : α → Checker → Prop}
    (h : ∀ a st', Q a st') : CSat m st Q :=
  h _ _

/-- A step followed by a continuation that satisfies `Q` whatever the step does. -/
theorem CSat.bind_of_forall {α β : Type} {m : CheckM α} {f : α → CheckM β} {st : Checker}
    {Q : β → Checker → Prop} (h : ∀ a st', CSat (f a) st' Q) : CSat (m >>= f) st Q :=
  h _ _

/-- Checking a declaration returns it with the type `declaredType` gives it in the scopes the
check starts in. -/
theorem checkVarDecl_returns (n : String) (t : Option Ty) (i : Option Expr) (st : Checker) :
    ((checkVarDecl n t i).run st).1 = .varDecl n (declaredType st.scopes n t i) i := by
  show CSat (checkVarDecl n t i) st (fun s' _ => s' = _)
  cases here : st.scopes.isDefinedHere n
  · cases t with
    | some T =>
      -- a written type is kept, whether it resolves or not
      have kept : declaredType st.scopes n (some T) i = some T := by simp [declaredType]
      simp only [checkVarDecl, csat_bind, csat_scopes, here, kept, Bool.false_eq_true, if_false]
      refine CSat.of_forall fun o st₁ => ?_
      cases o with
      | none => rfl
      | some declared =>
        cases i with
        | none => exact CSat.bind_of_forall fun _ _ => rfl
        | some e =>
          refine CSat.bind_of_forall fun o st₂ => ?_
          cases o with
          | none => exact CSat.bind_of_forall fun _ _ => rfl
          | some actual =>
            dsimp only
            split
            · exact CSat.bind_of_forall fun _ _ => CSat.bind_of_forall fun _ _ => rfl
            · exact CSat.bind_of_forall fun _ _ => rfl
    | none =>
      cases i with
      | none =>
        simp only [checkVarDecl, csat_bind, csat_scopes, here, Bool.false_eq_true, if_false]
        exact CSat.of_forall fun _ _ => by simp [declaredType, csat_pure]
      | some e =>
        -- the initializer's type, when it has one, is written in
        have written : declaredType st.scopes n none (some e) = typeIn st.scopes e := by
          simp [declaredType, here]
        simp only [checkVarDecl, csat_bind, csat_scopes, here, written, Bool.false_eq_true,
          if_false, csat_typeOf]
        cases typeIn st.scopes e with
        | none => rfl
        | some A => exact CSat.bind_of_forall fun _ _ => rfl
  · -- a redeclaration keeps what is written
    have kept : declaredType st.scopes n t i = t := by simp [declaredType, here]
    simp only [checkVarDecl, csat_bind, csat_scopes, here, kept, if_true, csat_report]
    cases i with
    | none => rfl
    | some e => exact CSat.bind_of_forall fun _ _ => rfl

/-- An integer initializer gives a new name its type; a name already declared in the innermost
scope keeps none. -/
example : declaredType Scopes.empty "x" none (some (.int 1)) = some .integer := rfl

example : declaredType (Scopes.empty.enter.declare "x" .real) "x" none (some (.int 1)) = none :=
  rfl

end Check

/-- Whether checking may return a statement changed: a declaration, or a branch or a loop, whose
blocks it walks. A routine declared inside a block is reported, its body not walked. -/
def Stmt.walkedInto : Stmt → Bool
  | .varDecl .. | .ifThen .. | .whileDo .. | .forRange .. => true
  | _ => false

mutual

/-- `StmtFills sc s s'`: checking `s` in the scopes `sc` returns `s'`. A declaration gets the
type `declaredType` gives it there; the arms of a branch and the body of a loop are blocks
checked in a scope entered from `sc`, with a counting loop's counter declared in it; every other
statement comes back as it is. -/
inductive StmtFills : Scopes → Stmt → Stmt → Prop
  | varDecl (sc : Scopes) (n : String) (t : Option Ty) (i : Option Expr) :
      StmtFills sc (.varDecl n t i) (.varDecl n (Check.declaredType sc n t i) i)
  | ifThen {sc : Scopes} (c : Expr) {t t' e e' : List Stmt} :
      BlockFills sc.enter t t' → BlockFills sc.enter e e' →
      StmtFills sc (.ifThen c t e) (.ifThen c t' e')
  | whileDo {sc : Scopes} (c : Expr) {b b' : List Stmt} :
      BlockFills sc.enter b b' → StmtFills sc (.whileDo c b) (.whileDo c b')
  | forRange {sc : Scopes} (v : String) (lo hi : Expr) (r : Bool) {b b' : List Stmt} :
      BlockFills (sc.enter.declare v .integer) b b' →
      StmtFills sc (.forRange v lo hi r b) (.forRange v lo hi r b')
  | unchanged (sc : Scopes) {s : Stmt} : s.walkedInto = false → StmtFills sc s s

/-- `BlockFills sc ss ss'`: checking the statements `ss` one after another from the scopes `sc`
returns `ss'`, each statement checked in the scopes the ones before it leave. -/
inductive BlockFills : Scopes → List Stmt → List Stmt → Prop
  | nil (sc : Scopes) : BlockFills sc [] []
  | cons {sc : Scopes} {s s' : Stmt} {ss ss' : List Stmt} :
      StmtFills sc s s' → BlockFills (Check.scopesAfter sc s) ss ss' →
      BlockFills sc (s :: ss) (s' :: ss')

end

namespace Check

open Scopes

/-- A block checked in a scope of its own, filled as its check fills it from the scope
entered: leaving that scope restores the scopes it was entered from. -/
theorem scoped_fills {β : Type} {b : List Stmt} (f : List Stmt → CheckM β) {st : Checker}
    {Q : β → Checker → Prop}
    (hb : ∀ st', CSat (checkStmts b) st'
      (fun b' st'' => BlockFills st'.scopes b b' ∧ st'.scopes.Grows st''.scopes))
    (hQ : ∀ b' st', BlockFills st.scopes.enter b b' → st'.scopes = st.scopes → CSat (f b') st' Q) :
    CSat (enterScope >>= fun _ => checkStmts b >>= fun b' => exitScope >>= fun _ => f b') st Q := by
  simp only [csat_bind]
  refine enterScope_sat fun st₁ hs₁ _ _ => ?_
  refine (hb st₁).mono₂ fun b' st₂ hb' g₂ => ?_
  refine exitScope_sat fun st₃ hs₃ _ _ => ?_
  rw [hs₁] at hb' g₂
  obtain ⟨exit₂, ne₂⟩ := g₂.exit_enter
  exact hQ b' st₃ hb' (by rw [hs₃ ne₂, exit₂])

/-- A statement checked by a step that only declares, and returned as it is. -/
theorem returns_unchanged {m : CheckM Unit} (hm : OnlyDeclares m) {s : Stmt} (st : Checker)
    (hs : s.walkedInto = false) :
    CSat (m >>= fun _ => pure s) st (fun s' st' => StmtFills st.scopes s s' ∧ st.scopes.Grows st'.scopes) :=
  (csat_bind _ _).2 ((hm st).mono fun _ _ g => ⟨.unchanged _ hs, g⟩)

mutual

/-- Checking a statement returns it as `StmtFills` says, and only declares in the innermost
scope. -/
theorem checkStmt_fills : ∀ (s : Stmt) (st : Checker),
    CSat (checkStmt s) st (fun s' st' => StmtFills st.scopes s s' ∧ st.scopes.Grows st'.scopes) := by
  intro s st
  cases s with
  | varDecl n t i =>
    show StmtFills st.scopes _ ((checkVarDecl n t i).run st).1 ∧ _
    rw [checkVarDecl_returns]
    exact ⟨.varDecl _ n t i, OnlyDeclares.checkVarDecl n t i st⟩
  | arrayDecl n el size => exact returns_unchanged (OnlyDeclares.checkArrayDecl n el size) st rfl
  | assign t v =>
    exact returns_unchanged (OnlyDeclares.of_keeps fun st =>
      (checkAssignment_sat true none t v : CSat _ st _).1.scopes) st rfl
  | ifThen c t e =>
    rw [checkStmt, csat_bind]
    refine (typeOf_quiet c st).mono₂ fun oc st₁ r₁ _ => ?_
    rw [csat_bind]
    refine (checkCondition_sat "If" oc).mono₂ fun _ st₂ r₂ _ => ?_
    -- both arms are checked in a scope entered from `st`'s, the else arm once the then arm's
    -- scope is left
    have sc₂ : st₂.scopes = st.scopes := by rw [r₂.scopes, r₁.scopes]
    refine scoped_fills _ (checkStmts_fills t) fun t' st₃ ht sc₃ => ?_
    refine scoped_fills _ (checkStmts_fills e) fun e' st₄ he sc₄ => ?_
    rw [sc₃, sc₂] at he
    rw [sc₂] at ht
    rw [csat_pure]
    refine ⟨.ifThen c ht he, ?_⟩
    rw [sc₄, sc₃, sc₂]
    exact .refl _
  | whileDo c b =>
    rw [checkStmt, csat_bind]
    refine (typeOf_quiet c st).mono₂ fun oc st₁ r₁ _ => ?_
    rw [csat_bind]
    refine (checkCondition_sat "While" oc).mono₂ fun _ st₂ r₂ _ => ?_
    have sc₂ : st₂.scopes = st.scopes := by rw [r₂.scopes, r₁.scopes]
    refine scoped_fills _ (checkStmts_fills b) fun b' st₃ hb sc₃ => ?_
    rw [sc₂] at hb
    rw [csat_pure]
    refine ⟨.whileDo c hb, ?_⟩
    rw [sc₃, sc₂]
    exact .refl _
  | forRange v lo hi r b =>
    simp only [checkStmt, csat_bind, csat_pure]
    refine (typeOf_quiet lo st).mono₂ fun _ st₁ r₁ _ => ?_
    refine (checkBound_sat _).mono₂ fun _ st₂ r₂ _ => ?_
    refine (typeOf_quiet hi st₂).mono₂ fun _ st₃ r₃ _ => ?_
    refine (checkBound_sat _).mono₂ fun _ st₄ r₄ _ => ?_
    refine (checkLoopVariable_sat v).mono₂ fun _ st₅ r₅ _ => ?_
    refine enterScope_sat fun st₆ hs₆ _ _ => ?_
    refine declareVar_sat v .integer fun st₇ hs₇ _ _ => ?_
    refine (checkStmts_fills b st₇).mono₂ fun b' st₈ hb g₈ => ?_
    refine exitScope_sat fun st₉ hs₉ _ _ => ?_
    have sc₇ : st₇.scopes = st.scopes.enter.declare v .integer := by
      rw [hs₇, hs₆, r₅.scopes, r₄.scopes, r₃.scopes, r₂.scopes, r₁.scopes]
    rw [sc₇] at hb g₈
    -- the counter is declared in the entered scope, so leaving it restores `st`'s scopes
    obtain ⟨exit₈, ne₈⟩ := ((Grows.declare v .integer (.refl _)).trans g₈).exit_enter
    refine ⟨.forRange v lo hi r hb, ?_⟩
    rw [hs₉ ne₈, exit₈]
    exact .refl _
  | routine n ps rt b => exact returns_unchanged (OnlyDeclares.report _) st rfl
  | recordType n fs => exact returns_unchanged (OnlyDeclares.report _) st rfl
  | typeAlias n t => exact returns_unchanged (OnlyDeclares.report _) st rfl
  | call n args =>
    simp only [checkStmt, csat_bind]
    refine (callee_sat n args).mono fun o st₁ h₁ => ?_
    -- whichever signature the callee has, the arguments are only read
    have keeps : ∀ ps, CSat (checkArguments n ps 0 args) st₁
        (fun _ st₂ => st.scopes.Grows st₂.scopes) := fun ps =>
      (checkArguments_quiet n ps 0 args st₁).mono fun _ st₂ h₂ => by
        rw [h₂.1.scopes, h₁.1.scopes]
        exact .refl _
    cases o with
    | none => exact (csat_bind _ _).2 ((keeps []).mono fun _ _ g => ⟨.unchanged _ rfl, g⟩)
    | some sig =>
      exact (csat_bind _ _).2 ((keeps sig.params).mono fun _ _ g => ⟨.unchanged _ rfl, g⟩)
  | ret v =>
    exact returns_unchanged (OnlyDeclares.of_keeps fun st =>
      (checkReturn_sat true v : CSat _ st _).1.scopes) st rfl
  | print e =>
    exact returns_unchanged (OnlyDeclares.of_keeps fun st =>
      (checkPrint_sat true none e : CSat _ st _).1.scopes) st rfl

/-- Checking a block returns it as `BlockFills` says, and only declares in the innermost scope. -/
theorem checkStmts_fills : ∀ (ss : List Stmt) (st : Checker),
    CSat (checkStmts ss) st (fun ss' st' => BlockFills st.scopes ss ss' ∧ st.scopes.Grows st'.scopes) := by
  intro ss st
  cases ss with
  | nil => exact ⟨.nil _, .refl _⟩
  | cons s rest =>
    simp only [checkStmts, csat_bind, csat_pure]
    refine (checkStmt_fills s st).with_state.mono fun s' st₁ h => ?_
    obtain ⟨⟨h₁, g₁⟩, hst₁⟩ := h
    have after : st₁.scopes = scopesAfter st.scopes s := by
      rw [hst₁]
      exact checkStmt_run_scopes s st
    refine (checkStmts_fills rest st₁).mono₂ fun rest' st₂ h₂ g₂ => ⟨.cons h₁ ?_, g₁.trans g₂⟩
    rw [← after]
    exact h₂

end

/-- The rest of a routine's check, from scopes grown from the routine's own: the body is filled
in the scopes it starts in, and leaving the routine's scope restores the ones it was entered
from. -/
theorem routineTail_fills (name : String) (R : Ty) (b : List Stmt) {sc : Scopes} (st : Checker)
    (inner : Grows sc.enter st.scopes) : CSat (do
      modify fun st => { st with returnTypes := R :: st.returnTypes }
      let body' ← checkStmts b
      if (!R.isVoid && !endsWithReturn body') = true then report (.missingReturn name)
      modify fun st => { st with returnTypes := st.returnTypes.drop 1 }
      exitScope
      pure body') st (fun b' st' => BlockFills st.scopes b b' ∧ st'.scopes = sc) := by
  simp only [csat_bind, csat_modify]
  refine (checkStmts_fills b _).mono₂ fun b' st₁ hb g₁ => ?_
  obtain ⟨exit₁, ne₁⟩ := (inner.trans g₁).exit_enter
  split
  · simp only [csat_bind, csat_report, csat_modify, csat_pure]
    exact exitScope_sat fun st₂ hs₂ _ _ => ⟨hb, by rw [hs₂ ne₁, exit₁]⟩
  · simp only [csat_bind, csat_modify, csat_pure]
    exact exitScope_sat fun st₂ hs₂ _ _ => ⟨hb, by rw [hs₂ ne₁, exit₁]⟩

/-- A routine's body is filled in the scopes holding its parameters, and checking it restores
the scopes. -/
theorem checkRoutineBody_fills (n : String) (ps : List Param) (r : Option Ty) (b : List Stmt)
    (st : Checker) : CSat (checkRoutineBody n ps r b) st
      (fun b' st' => BlockFills (bodyScopes st.scopes n ps) b b' ∧ st'.scopes = st.scopes) := by
  unfold checkRoutineBody
  simp only [csat_bind]
  refine enterScope_sat fun st₁ hs₁ _ _ => ?_
  refine (OnlyDeclares.declareParams n ps st₁).with_state.mono fun _ st₂ h₂ => ?_
  obtain ⟨g₂, hst₂⟩ := h₂
  have body : st₂.scopes = bodyScopes st.scopes n ps := by
    rw [hst₂, bodyScopes, ← hs₁]
    exact (ScopeDetermined.declareParams n ps st₁ (Checker.ofScopes st₁.scopes) rfl).2
  rw [hs₁] at g₂
  cases r with
  | none =>
    simp only [pure_bind]
    refine (routineTail_fills n .void b st₂ g₂).mono fun b' st₄ h₄ => ⟨?_, h₄.2⟩
    rw [← body]
    exact h₄.1
  | some t =>
    simp only [pure_bind]
    rw [csat_bind]
    refine (resolveReported_sat t).mono₂ fun o st₃ r₃ _ => ?_
    rw [← r₃.scopes] at g₂ body
    refine (routineTail_fills n (o.getD t) b st₃ g₂).mono fun b' st₄ h₄ => ⟨?_, h₄.2⟩
    rw [← body]
    exact h₄.1

end Check

/-- `PassFills k sc ss ss' sc'`: a pass that checks the statements `k` selects, from the scopes
`sc`, returns `ss'` and leaves `sc'`. Each selected statement is checked in the scopes the ones
before it leave; the others come back as they are. -/
inductive PassFills (k : Stmt → Bool) : Scopes → List Stmt → List Stmt → Scopes → Prop
  | nil (sc : Scopes) : PassFills k sc [] [] sc
  | checked {sc sc' : Scopes} {s s' : Stmt} {ss ss' : List Stmt} : k s = true →
      StmtFills sc s s' → PassFills k (Check.scopesAfter sc s) ss ss' sc' →
      PassFills k sc (s :: ss) (s' :: ss') sc'
  | skipped {sc sc' : Scopes} {s : Stmt} {ss ss' : List Stmt} : k s = false →
      PassFills k sc ss ss' sc' → PassFills k sc (s :: ss) (s :: ss') sc'

/-- `RoutinesFill sc ss ss'`: the routine bodies of `ss`, each checked in the scopes `sc` with a
scope of its own for the parameters, are filled as `ss'` has them; the other statements come
back as they are. -/
inductive RoutinesFill (sc : Scopes) : List Stmt → List Stmt → Prop
  | nil : RoutinesFill sc [] []
  | routine {n : String} {ps : List Param} {r : Option Ty} {b b' : List Stmt} {ss ss' : List Stmt} :
      BlockFills (Check.bodyScopes sc n ps) b b' → RoutinesFill sc ss ss' →
      RoutinesFill sc (.routine n ps r b :: ss) (.routine n ps r b' :: ss')
  | other {s : Stmt} {ss ss' : List Stmt} : s.isRoutine = false → RoutinesFill sc ss ss' →
      RoutinesFill sc (s :: ss) (s :: ss')

namespace Check

/-- A pass that checks the statements `k` selects fills them as `PassFills` says. -/
theorem pass_fills (k : Stmt → Bool) (f : Stmt → CheckM Stmt)
    (hf : ∀ s, f s = if k s then checkStmt s else pure s) :
    ∀ (ss : List Stmt) (st : Checker),
      CSat (ss.mapM f) st (fun ss' st' => PassFills k st.scopes ss ss' st'.scopes) := by
  intro ss
  induction ss with
  | nil => exact fun st => .nil _
  | cons s ss ih =>
    intro st
    rw [csat_mapM_cons, hf]
    split
    · rename_i hk
      refine (checkStmt_fills s st).with_state.mono fun s' st₁ h => ?_
      obtain ⟨⟨h₁, -⟩, hst₁⟩ := h
      have after : st₁.scopes = scopesAfter st.scopes s := by
        rw [hst₁]
        exact checkStmt_run_scopes s st
      refine (ih st₁).mono fun ss' st₂ h₂ => .checked hk h₁ ?_
      rw [← after]
      exact h₂
    · rename_i hk
      rw [csat_pure]
      exact (ih st).mono fun ss' st₂ h₂ => .skipped (by simpa using hk) h₂

/-- Pass 4 fills every routine body in the scopes the globals leave, and restores them. -/
theorem routines_fill : ∀ (ss : List Stmt) (st : Checker),
    CSat (ss.mapM checkRoutine) st
      (fun ss' st' => RoutinesFill st.scopes ss ss' ∧ st'.scopes = st.scopes) := by
  intro ss
  induction ss with
  | nil => exact fun st => ⟨.nil, rfl⟩
  | cons s ss ih =>
    intro st
    rw [csat_mapM_cons]
    cases s with
    | routine n ps r b =>
      simp only [checkRoutine, csat_bind, csat_pure]
      refine (checkRoutineBody_fills n ps r b st).mono₂ fun b' st₁ hb hs₁ => ?_
      refine (ih st₁).mono₂ fun ss' st₂ h₂ hs₂ => ⟨.routine hb ?_, hs₂.trans hs₁⟩
      rw [← hs₁]
      exact h₂
    | _ =>
      simp only [checkRoutine, csat_pure]
      exact (ih st).mono₂ fun ss' st₂ h₂ hs₂ => ⟨.other rfl h₂, hs₂⟩

theorem checkMain_eq (s : Stmt) :
    checkMain s = if !isDeclaration s then checkStmt s else pure s := by
  unfold checkMain
  cases isDeclaration s <;> rfl

/-- The walk fills declarations pass by pass: the globals in the scopes the first two passes
leave, each routine body in the scopes the globals leave, then the other top-level
statements. -/
theorem walk_fills (p : Program) :
    CSat (walk p) ⟨Scopes.empty, [], [], [], []⟩ (fun q _ => ∃ globals routines sc sc',
      PassFills Stmt.declaresGlobal (declared p.statements).scopes p.statements globals sc ∧
      RoutinesFill sc globals routines ∧
      PassFills (fun s => !isDeclaration s) sc routines q.statements sc') := by
  rw [walk_eq]
  simp only [csat_bind, csat_note, csat_get, csat_pure]
  refine (CSat.of_forall (Q := fun _ _ => True) fun _ _ => trivial).with_state.mono
    fun _ st₁ h₁ => ?_
  -- the first two passes leave the declared scopes
  have hst₁ : st₁ = declared p.statements := h₁.2
  rw [← hst₁]
  refine (pass_fills _ checkGlobal checkGlobal_eq p.statements st₁).mono fun globals st₂ h₂ => ?_
  refine (routines_fill globals _).mono₂ fun routines st₃ h₃ hs₃ => ?_
  refine (pass_fills _ checkMain checkMain_eq routines _).mono fun q st₄ h₄ => ?_
  refine ⟨globals, routines, st₂.scopes, st₄.scopes, h₂, h₃, ?_⟩
  rw [← hs₃]
  exact h₄

end Check

/-- Checking a program with both rewrites off changes only declarations written without a
type. Each pass is a `PassFills` or a `RoutinesFill`, so every statement at every depth comes
back as it is, save that a declaration gets the type `declaredType` gives it in the scopes the
walk reaches it in: the type of its initializer where the declaration has no type, its name is
new to the innermost scope and the initializer has a type. Pass 3 fills the globals from the
scopes of the declared routines and types, pass 4 each routine body from the scopes the globals
leave, pass 5 the other statements from those same scopes. -/
theorem checking_fills_only_declaration_types (p : Program) :
    ∃ (globals routines : List Stmt) (sc sc' : Scopes),
      PassFills Stmt.declaresGlobal (Check.declared p.statements).scopes p.statements globals sc ∧
      RoutinesFill sc globals routines ∧
      PassFills (fun s => !Check.isDeclaration s) sc routines
        (analyze { foldConstants := false, removeUnused := false } p).program.statements sc' := by
  rw [analyze_program_unpruned rfl]
  exact Check.walk_fills p

end ImpStack
