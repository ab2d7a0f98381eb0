import ImpStack.Proofs.CheckWalk

/-! # What checking reads of its state

  The checker's state holds more than the scopes: the diagnostics, the names used, the log and
  the return types of the routines being walked. What a check returns, and the scopes it
  leaves, depend on the scopes alone (`ScopeDetermined`): the type of an expression
  (`ScopeDetermined.typeOf`), the statement a check returns (`ScopeDetermined.checkStmt`), the
  parameters a routine declares (`ScopeDetermined.declareParams`). The property goes through
  `bind`, so each check is shown by following its steps; a return, which reads the routines
  being walked, keeps the scopes whatever it reads.

  Inside a routine or a block, checking only declares variables in the innermost scope
  (`Scopes.Grows`), so leaving that scope restores the scopes it was entered from
  (`Scopes.Grows.exit_enter`).
-/

namespace ImpStack

namespace Check

/-- A checking step whose result, and the scopes it leaves, depend only on the scopes it starts
in: not on the diagnostics, the names used, the log or the routines being walked. -/
def ScopeDetermined {α : Type} (m : CheckM α) : Prop :=
  ∀ st st' : Checker, st.scopes = st'.scopes →
    (m.run st).1 = (m.run st').1 ∧ (m.run st).2.scopes = (m.run st').2.scopes

namespace ScopeDetermined

variable {α β : Type}

theorem pure (a : α) : ScopeDetermined (pure a : CheckM α) := fun _ _ h => ⟨rfl, h⟩

theorem bind {m : CheckM α} {f : α → CheckM β} (hm : ScopeDetermined m)
    (hf : ∀ a, ScopeDetermined (f a)) : ScopeDetermined (m >>= f) := by
  intro st st' h
  obtain ⟨result, scopes⟩ := hm st st' h
  show ((f (m.run st).1).run (m.run st).2).1 = ((f (m.run st').1).run (m.run st').2).1 ∧
    ((f (m.run st).1).run (m.run st).2).2.scopes = ((f (m.run st').1).run (m.run st').2).2.scopes
  rw [result]
  exact hf _ _ _ scopes

theorem ite {c : Prop} [Decidable c] {m m' : CheckM α} (hm : ScopeDetermined m)
    (hm' : ScopeDetermined m') : ScopeDetermined (if c then m else m') := by
  split
  · exact hm
  · exact hm'

/-- A step that returns nothing and keeps the scopes. -/
theorem of_keeps {m : CheckM Unit} (keeps : ∀ st, (m.run st).2.scopes = st.scopes) :
    ScopeDetermined m := fun st st' h => ⟨rfl, by rw [keeps, keeps, h]⟩

/-- A change of the state that reads and writes only the scopes. -/
theorem modify_scopes (f : Scopes → Scopes) :
    ScopeDetermined (modify fun st => { st with scopes := f st.scopes } : CheckM Unit) :=
  fun _ _ h => ⟨rfl, by show f _ = f _; rw [h]⟩

theorem scopes : ScopeDetermined Check.scopes := fun _ _ h => ⟨h, h⟩

theorem report (e : Error) : ScopeDetermined (Check.report e) := of_keeps fun _ => rfl

theorem use (n : String) : ScopeDetermined (Check.use n) := by
  refine of_keeps fun st => ?_
  show (if st.used.contains n then st else { st with used := st.used ++ [n] }).scopes = st.scopes
  split <;> rfl

theorem note (level : Level) (source : Source) (message : String) :
    ScopeDetermined (Check.note level source message) := of_keeps fun _ => rfl

theorem resolveQuiet (t : Ty) : ScopeDetermined (Check.resolveQuiet t) := by
  unfold Check.resolveQuiet
  refine scopes.bind fun sc => ?_
  split <;> exact pure _

theorem resolveReported (t : Ty) : ScopeDetermined (Check.resolveReported t) := by
  unfold Check.resolveReported
  refine scopes.bind fun sc => ite ((report _).bind fun _ => pure _) ?_
  split
  · exact pure _
  · exact (report _).bind fun _ => pure _

theorem arrayElement (a : String) : ScopeDetermined (Check.arrayElement a) := by
  unfold Check.arrayElement
  refine (use a).bind fun _ => scopes.bind fun sc => ?_
  split
  · exact pure _
  · exact (report _).bind fun _ => pure _
  · exact (report _).bind fun _ => pure _

theorem indexOk (o : Option Ty) : ScopeDetermined (Check.indexOk o) := by
  unfold Check.indexOk
  split
  · exact ite (pure _) ((report _).bind fun _ => pure _)
  · exact pure _

theorem recordField (r f : String) : ScopeDetermined (Check.recordField r f) := by
  unfold Check.recordField
  refine (use r).bind fun _ => scopes.bind fun sc => ?_
  split
  · exact (report _).bind fun _ => pure _
  · refine (resolveQuiet _).bind fun o => ?_
    split
    · split
      · exact resolveQuiet _
      · exact (report _).bind fun _ => pure _
    · exact (report _).bind fun _ => pure _

theorem binaryType (op : BinOp) (l r : Ty) : ScopeDetermined (Check.binaryType op l r) := by
  unfold Check.binaryType
  split
  · exact pure _
  · exact ite ((report _).bind fun _ => pure _) ((report _).bind fun _ => pure _)

theorem callee (n : String) (args : List Expr) : ScopeDetermined (Check.callee n args) := by
  unfold Check.callee
  refine scopes.bind fun sc => ?_
  split
  · exact (report _).bind fun _ => pure _
  · dsimp only
    split
    · exact (report _).bind fun _ => pure _
    · exact pure _

theorem checkArgument (name : String) (params : List Ty) (index : Nat) (actual : Option Ty) :
    ScopeDetermined (Check.checkArgument name params index actual) := by
  unfold Check.checkArgument
  dsimp only
  -- the expected type, found or not, is compared with the argument's in the same way
  split
  · refine (resolveQuiet _).bind fun expected => ?_
    split
    · split
      · exact report _
      · exact pure _
    · exact pure _
  · refine (pure _).bind fun expected => ?_
    split
    · split
      · exact report _
      · exact pure _
    · exact pure _

mutual

/-- The type the checker gives an expression depends only on the scopes, and typing keeps them. -/
theorem typeOf : ∀ e : Expr, ScopeDetermined (Check.typeOf e) := by
  intro e
  cases e with
  | int v => exact pure _
  | real x => exact pure _
  | bool b => exact pure _
  | str s => exact pure _
  | var n =>
    rw [Check.typeOf]
    refine (use n).bind fun _ => scopes.bind fun sc => ?_
    dsimp only
    split
    · exact (report _).bind fun _ => pure _
    · exact pure _
  | binary l op r =>
    rw [Check.typeOf]
    refine (typeOf l).bind fun lt => (typeOf r).bind fun rt => ?_
    split
    · exact binaryType _ _ _
    · exact pure _
  | unary op x =>
    rw [Check.typeOf]
    refine (typeOf x).bind fun o => ?_
    split
    · exact pure _
    · split
      · exact pure _
      · exact (report _).bind fun _ => pure _
  | index a i =>
    rw [Check.typeOf]
    refine (arrayElement a).bind fun el => (typeOf i).bind fun oi => (indexOk oi).bind fun ok => ?_
    split
    · split
      · exact resolveQuiet _
      · exact pure _
    · exact pure _
  | field r f =>
    rw [Check.typeOf]
    exact recordField r f
  | call n args =>
    rw [Check.typeOf]
    refine (callee n args).bind fun o => ?_
    split
    · exact (checkArguments n [] 0 args).bind fun _ => pure _
    · refine (checkArguments n _ 0 args).bind fun _ => (resolveQuiet _).bind fun o => ?_
      split
      · exact pure _
      · split
        · exact (report _).bind fun _ => pure _
        · exact pure _
  | cast x target =>
    rw [Check.typeOf]
    refine (typeOf x).bind fun source => (resolveReported target).bind fun o => ?_
    split
    · exact pure _
    · split
      · exact pure _
      · dsimp only
        split
        · exact (report _).bind fun _ => pure _
        · exact pure _

theorem checkArguments (name : String) (params : List Ty) :
    ∀ (index : Nat) (args : List Expr), ScopeDetermined (Check.checkArguments name params index args) := by
  intro index args
  cases args with
  | nil => exact pure _
  | cons a rest =>
    rw [Check.checkArguments]
    exact (typeOf a).bind fun o =>
      (checkArgument name params index o).bind fun _ => checkArguments name params (index + 1) rest

end

theorem enterScope : ScopeDetermined Check.enterScope := by
  unfold Check.enterScope
  exact (modify_scopes Scopes.enter).bind fun _ => scopes.bind fun _ => note _ _ _

theorem exitScope : ScopeDetermined Check.exitScope := by
  unfold Check.exitScope
  refine scopes.bind fun sc => ?_
  split
  · exact (modify_scopes Scopes.exit).bind fun _ => scopes.bind fun _ => note _ _ _
  · exact pure _

theorem declareVar (n : String) (T : Ty) : ScopeDetermined (Check.declareVar n T) :=
  modify_scopes fun sc => sc.declare n T

theorem checkVarDecl (n : String) (t : Option Ty) (i : Option Expr) :
    ScopeDetermined (Check.checkVarDecl n t i) := by
  unfold Check.checkVarDecl
  refine scopes.bind fun sc => ?_
  split
  · refine (report _).bind fun _ => ?_
    dsimp only
    split
    · exact (typeOf _).bind fun _ => pure _
    · exact pure _
  · split
    · refine (resolveReported _).bind fun o => ?_
      split
      · exact pure _
      · dsimp only
        split
        · refine (typeOf _).bind fun o => ?_
          split
          · split
            · exact (report _).bind fun _ => (declareVar _ _).bind fun _ => pure _
            · exact (declareVar _ _).bind fun _ => pure _
          · exact (declareVar _ _).bind fun _ => pure _
        · exact (declareVar _ _).bind fun _ => pure _
    · split
      · exact (report _).bind fun _ => pure _
      · refine (typeOf _).bind fun o => ?_
        split
        · exact (declareVar _ _).bind fun _ => pure _
        · exact pure _

theorem checkArrayDecl (n : String) (el : Ty) (size : Int) :
    ScopeDetermined (Check.checkArrayDecl n el size) := by
  unfold Check.checkArrayDecl
  refine scopes.bind fun sc => ?_
  split
  · exact (report _).bind fun _ => pure _
  · split
    · exact (report _).bind fun _ => pure _
    · refine (resolveReported _).bind fun o => ?_
      split
      · exact declareVar _ _
      · exact pure _

theorem checkCondition (construct : String) (o : Option Ty) :
    ScopeDetermined (Check.checkCondition construct o) := by
  unfold Check.checkCondition
  split
  · exact ite (report _) (pure _)
  · exact pure _

theorem checkBound (o : Option Ty) : ScopeDetermined (Check.checkBound o) := by
  unfold Check.checkBound
  split
  · exact ite (report _) (pure _)
  · exact pure _

theorem checkLoopVariable (v : String) : ScopeDetermined (Check.checkLoopVariable v) := by
  unfold Check.checkLoopVariable
  refine scopes.bind fun sc => ?_
  split
  · exact report _
  · exact ite (report _) (pure _)

theorem targetType (t : Target) : ScopeDetermined (Check.targetType t) := by
  cases t with
  | var n =>
    rw [Check.targetType]
    refine scopes.bind fun sc => ?_
    split
    · exact pure _
    · exact (report _).bind fun _ => pure _
  | element a i =>
    rw [Check.targetType]
    refine (arrayElement a).bind fun o => ?_
    split
    · exact pure _
    · exact (typeOf i).bind fun oi => (indexOk oi).bind fun ok => ite (pure _) (pure _)
  | field r f =>
    rw [Check.targetType]
    exact recordField r f

theorem checkAssignment (t : Target) (v : Expr) : ScopeDetermined (Check.checkAssignment t v) := by
  unfold Check.checkAssignment
  refine (targetType t).bind fun o => ?_
  split
  · exact pure _
  · refine (use _).bind fun _ => (typeOf v).bind fun o => ?_
    split
    · exact ite (report _) (pure _)
    · exact pure _

theorem checkReturn (v : Option Expr) : ScopeDetermined (Check.checkReturn v) :=
  of_keeps fun st => (checkReturn_sat true v : CSat _ st _).1.scopes

theorem checkPrint (e : Expr) : ScopeDetermined (Check.checkPrint e) := by
  unfold Check.checkPrint
  refine (typeOf e).bind fun o => ?_
  split
  · split
    · exact report _
    · exact report _
    · exact pure _
  · exact pure _

mutual

/-- The statement the checker returns, and the scopes it leaves, depend only on the scopes it
starts in. -/
theorem checkStmt : ∀ s : Stmt, ScopeDetermined (Check.checkStmt s) := by
  intro s
  cases s with
  | varDecl n t i => exact checkVarDecl n t i
  | arrayDecl n el size => exact (checkArrayDecl n el size).bind fun _ => pure _
  | assign t v => exact (checkAssignment t v).bind fun _ => pure _
  | ifThen c t e =>
    rw [Check.checkStmt]
    exact (typeOf c).bind fun _ => (checkCondition _ _).bind fun _ => enterScope.bind fun _ =>
      (checkStmts t).bind fun _ => exitScope.bind fun _ => enterScope.bind fun _ =>
        (checkStmts e).bind fun _ => exitScope.bind fun _ => pure _
  | whileDo c b =>
    rw [Check.checkStmt]
    exact (typeOf c).bind fun _ => (checkCondition _ _).bind fun _ => enterScope.bind fun _ =>
      (checkStmts b).bind fun _ => exitScope.bind fun _ => pure _
  | forRange v lo hi r b =>
    rw [Check.checkStmt]
    exact (typeOf lo).bind fun _ => (checkBound _).bind fun _ => (typeOf hi).bind fun _ =>
      (checkBound _).bind fun _ => (checkLoopVariable v).bind fun _ => enterScope.bind fun _ =>
        (declareVar v .integer).bind fun _ => (checkStmts b).bind fun _ =>
          exitScope.bind fun _ => pure _
  | routine n ps r b => exact (report _).bind fun _ => pure _
  | recordType n fs => exact (report _).bind fun _ => pure _
  | typeAlias n t => exact (report _).bind fun _ => pure _
  | call n args =>
    rw [Check.checkStmt]
    refine (callee n args).bind fun o => ?_
    dsimp only
    split
    · exact (checkArguments n [] 0 args).bind fun _ => pure _
    · exact (checkArguments n _ 0 args).bind fun _ => pure _
  | ret v => exact (checkReturn v).bind fun _ => pure _
  | print e => exact (checkPrint e).bind fun _ => pure _

theorem checkStmts : ∀ ss : List Stmt, ScopeDetermined (Check.checkStmts ss) := by
  intro ss
  cases ss with
  | nil => exact pure _
  | cons s rest =>
    rw [Check.checkStmts]
    exact (checkStmt s).bind fun _ => (checkStmts rest).bind fun _ => pure _

end

theorem declareParams (routine : String) :
    ∀ ps : List Param, ScopeDetermined (Check.declareParams routine ps) := by
  intro ps
  induction ps with
  | nil => exact pure _
  | cons p rest ih =>
    rw [Check.declareParams]
    refine scopes.bind fun sc => ?_
    dsimp only
    split
    · exact (report _).bind fun _ => ih
    · refine (resolveReported _).bind fun o => ?_
      split
      · exact (declareVar _ _).bind fun _ => ih
      · exact ih

end ScopeDetermined

end Check

/-! ## Declaring only in the innermost scope -/

/-- The scopes `sc'` are `sc` with variables declared in its innermost scope, one after another. -/
inductive Scopes.Grows : Scopes → Scopes → Prop
  | refl (sc : Scopes) : Scopes.Grows sc sc
  | declare {sc sc' : Scopes} (n : String) (T : Ty) :
      Scopes.Grows sc sc' → Scopes.Grows sc (sc'.declare n T)

namespace Scopes.Grows

theorem trans {sc₁ sc₂ sc₃ : Scopes} (h₁ : Grows sc₁ sc₂) (h₂ : Grows sc₂ sc₃) : Grows sc₁ sc₃ := by
  induction h₂ with
  | refl => exact h₁
  | declare n T _ ih => exact .declare n T ih

/-- Inside a routine or a block, declaring keeps the scopes around the innermost one. -/
theorem exit_eq {sc sc' : Scopes} (h : Grows sc sc') (inner : sc.locals ≠ []) :
    sc'.exit = sc.exit ∧ sc'.locals ≠ [] := by
  induction h with
  | refl => exact ⟨rfl, inner⟩
  | declare n T _ ih =>
    obtain ⟨hexit, hne⟩ := ih
    exact ⟨(Scopes.exit_declare _ n T hne).trans hexit, Scopes.declare_locals_ne_nil _ n T hne⟩

/-- Leaving a scope entered before declaring restores the scopes. -/
theorem exit_enter {sc sc' : Scopes} (h : Grows sc.enter sc') : sc'.exit = sc ∧ sc'.locals ≠ [] :=
  h.exit_eq (by simp)

end Scopes.Grows

namespace Check

/-- A checking step that at most declares variables in the innermost scope. -/
def OnlyDeclares {α : Type} (m : CheckM α) : Prop :=
  ∀ st, CSat m st (fun _ st' => st.scopes.Grows st'.scopes)

namespace OnlyDeclares

variable {α β : Type}

theorem bind {m : CheckM α} {f : α → CheckM β} (hm : OnlyDeclares m)
    (hf : ∀ a, OnlyDeclares (f a)) : OnlyDeclares (m >>= f) :=
  fun st => (hm st).mono fun a st₁ g => (hf a st₁).mono fun _ _ g' => g.trans g'

/-- A step that keeps the scopes. -/
theorem of_keeps {m : CheckM α} (keeps : ∀ st, (m.run st).2.scopes = st.scopes) :
    OnlyDeclares m := fun st => by
  show Scopes.Grows st.scopes (m.run st).2.scopes
  rw [keeps]
  exact .refl _

theorem pure (a : α) : OnlyDeclares (Pure.pure a : CheckM α) := of_keeps fun _ => rfl

theorem report (e : Error) : OnlyDeclares (Check.report e) := of_keeps fun _ => rfl

theorem scopes : OnlyDeclares Check.scopes := of_keeps fun _ => rfl

theorem typeOf (e : Expr) : OnlyDeclares (Check.typeOf e) :=
  of_keeps fun st => (typeOf_quiet e st).1.scopes

theorem resolveReported (t : Ty) : OnlyDeclares (Check.resolveReported t) :=
  of_keeps fun st => (resolveReported_sat t : CSat _ st _).1.scopes

theorem declareVar (n : String) (T : Ty) : OnlyDeclares (Check.declareVar n T) :=
  fun st => declareVar_sat n T fun st' hs _ _ => by rw [hs]; exact .declare n T (.refl _)

theorem checkVarDecl (n : String) (t : Option Ty) (i : Option Expr) :
    OnlyDeclares (Check.checkVarDecl n t i) := by
  unfold Check.checkVarDecl
  refine scopes.bind fun sc => ?_
  split
  · refine (report _).bind fun _ => ?_
    dsimp only
    split
    · exact (typeOf _).bind fun _ => pure _
    · exact pure _
  · split
    · refine (resolveReported _).bind fun o => ?_
      split
      · exact pure _
      · dsimp only
        split
        · refine (typeOf _).bind fun o => ?_
          split
          · split
            · exact (report _).bind fun _ => (declareVar _ _).bind fun _ => pure _
            · exact (declareVar _ _).bind fun _ => pure _
          · exact (declareVar _ _).bind fun _ => pure _
        · exact (declareVar _ _).bind fun _ => pure _
    · split
      · exact (report _).bind fun _ => pure _
      · refine (typeOf _).bind fun o => ?_
        split
        · exact (declareVar _ _).bind fun _ => pure _
        · exact pure _

theorem checkArrayDecl (n : String) (el : Ty) (size : Int) :
    OnlyDeclares (Check.checkArrayDecl n el size) := by
  unfold Check.checkArrayDecl
  refine scopes.bind fun sc => ?_
  split
  · exact (report _).bind fun _ => pure _
  · split
    · exact (report _).bind fun _ => pure _
    · refine (resolveReported _).bind fun o => ?_
      split
      · exact declareVar _ _
      · exact pure _

/-- Declaring the parameters of a routine only declares them. -/
theorem declareParams (routine : String) (ps : List Param) :
    OnlyDeclares (Check.declareParams routine ps) := by
  induction ps with
  | nil => exact pure _
  | cons p rest ih =>
    rw [Check.declareParams]
    refine scopes.bind fun sc => ?_
    dsimp only
    split
    · exact (report _).bind fun _ => ih
    · refine (resolveReported _).bind fun o => ?_
      split
      · exact (declareVar _ _).bind fun _ => ih
      · exact ih

end OnlyDeclares

end Check

end ImpStack
