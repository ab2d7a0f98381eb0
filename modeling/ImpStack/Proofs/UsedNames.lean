import ImpStack.Proofs.InferredTypes

/-! # The names the walk marks as used

  The checker records every variable name it reads (`Check.use`): a variable, an indexed
  array, a record whose field is read, and an assignment's target once the target has a type.
  Dead declarations are the declarations of names never recorded, so whether dropping them
  keeps a program accepted rests on one fact: every name the judgment types a statement by
  is recorded while the walk checks that statement.

  `Stmt.ReadsWithin used ret sc s` says that of a statement in the scopes `sc`: the names read
  by its conditions, bounds, initializer, printed, returned and passed values and by an
  assignment's target all lie in `used`, and so do those of an assigned value whose target has
  a type. A value stored through a target without one (an index or a field type the checker
  could not type) is never checked, and its names may go unrecorded. Loop variables are not
  read either: the judgment without `loops` does not ask for them.

  * `Check.UsedGrows`: no step of the checker forgets a recorded name;
  * `Check.typeOf_uses`: typing an expression records every name it reads;
  * `Check.checkStmt_reads`, `Check.walk_reads`: a quiet check of a statement, and a quiet
    walk of a whole program, record the names the statements they return read.
-/

namespace ImpStack

/-- The variables an assignment's target reads: the variable stored into, the array and the
variables of the index, or the record. -/
def Target.names : Target → List String
  | .var n => [n]
  | .element a i => a :: i.names
  | .field r _ => [r]

theorem Target.root_mem_names (t : Target) : t.root ∈ t.names := by
  cases t <;> simp [Target.root, Target.names]

/-! ## What the judgment reads -/

mutual

/-- The names a statement reads where the judgment types it all lie in `used`, the statement
taken in the scopes `sc`: those of its conditions, bounds, initializer, printed, returned and
passed values and of an assignment's target, and those of an assigned value when the target
has a type. The blocks of a branch or a loop are taken in the scopes the judgment enters. -/
def Stmt.ReadsWithin (used : List String) (ret : Option Ty) (sc : Scopes) : Stmt → Prop
  | .varDecl _ _ init => ∀ i, init = some i → i.names ⊆ used
  | .assign t v => t.names ⊆ used ∧ ∀ T, TargetInfers sc t (some T) → v.names ⊆ used
  | .ifThen c t e => c.names ⊆ used ∧ Stmt.BlockReadsWithin used ret sc.enter t ∧
      Stmt.BlockReadsWithin used ret sc.enter e
  | .whileDo c b => c.names ⊆ used ∧ Stmt.BlockReadsWithin used ret sc.enter b
  | .forRange v lo hi _ b => lo.names ⊆ used ∧ hi.names ⊆ used ∧
      Stmt.BlockReadsWithin used ret (sc.enter.declare v .integer) b
  | .call _ args => Expr.namesOf args ⊆ used
  | .ret v => ∀ e, v = some e → e.names ⊆ used
  | .print e => e.names ⊆ used
  | .arrayDecl .. | .routine .. | .recordType .. | .typeAlias .. => True

/-- The names the statements of a block read where the judgment types them all lie in `used`,
each statement taken in the scopes the judgment leaves after the ones before it. -/
def Stmt.BlockReadsWithin (used : List String) (ret : Option Ty) : Scopes → List Stmt → Prop
  | _, [] => True
  | sc, s :: rest => s.ReadsWithin used ret sc ∧
      ∀ sc₁, StmtChecks true ret sc s sc₁ → Stmt.BlockReadsWithin used ret sc₁ rest

end

mutual

theorem Stmt.ReadsWithin.mono {used used' : List String} (h : used ⊆ used') {ret : Option Ty}
    {sc : Scopes} : ∀ {s : Stmt}, s.ReadsWithin used ret sc → s.ReadsWithin used' ret sc
  | .varDecl _ _ _, hs => fun i hi => List.Subset.trans (hs i hi) h
  | .assign _ _, hs => ⟨List.Subset.trans hs.1 h, fun T hT => List.Subset.trans (hs.2 T hT) h⟩
  | .ifThen _ _ _, hs => ⟨List.Subset.trans hs.1 h, Stmt.BlockReadsWithin.mono h hs.2.1,
      Stmt.BlockReadsWithin.mono h hs.2.2⟩
  | .whileDo _ _, hs => ⟨List.Subset.trans hs.1 h, Stmt.BlockReadsWithin.mono h hs.2⟩
  | .forRange _ _ _ _ _, hs => ⟨List.Subset.trans hs.1 h, List.Subset.trans hs.2.1 h, Stmt.BlockReadsWithin.mono h hs.2.2⟩
  | .call _ _, hs => List.Subset.trans hs h
  | .ret _, hs => fun e he => List.Subset.trans (hs e he) h
  | .print _, hs => List.Subset.trans hs h
  | .arrayDecl .., _ | .routine .., _ | .recordType .., _ | .typeAlias .., _ => trivial

theorem Stmt.BlockReadsWithin.mono {used used' : List String} (h : used ⊆ used')
    {ret : Option Ty} : ∀ {sc : Scopes} {ss : List Stmt},
      Stmt.BlockReadsWithin used ret sc ss → Stmt.BlockReadsWithin used' ret sc ss
  | _, [], _ => trivial
  | _, _ :: _, hs => ⟨Stmt.ReadsWithin.mono h hs.1, fun sc₁ h₁ => Stmt.BlockReadsWithin.mono h (hs.2 sc₁ h₁)⟩

end

/-! ## Determinism of the judgment -/

/-- An expression has at most one type in given scopes. -/
theorem Infers.unique {sc : Scopes} : ∀ {e : Expr} {o₁ o₂ : Option Ty},
    Infers sc e o₁ → Infers sc e o₂ → o₁ = o₂
  | _, _, _, .int _, .int _ | _, _, _, .real _, .real _ | _, _, _, .bool _, .bool _
  | _, _, _, .str _, .str _ => rfl
  | _, _, _, .var f₁, .var f₂ => by rw [← f₁, ← f₂]
  | _, _, _, .binary l₁ r₁ _, .binary l₂ r₂ _ => by rw [l₁.unique l₂, r₁.unique r₂]
  | _, _, _, .unary o₁ _, .unary o₂ _ => by rw [o₁.unique o₂]
  | _, _, _, .index f₁ i₁ _, .index f₂ i₂ _ => by
    rw [f₁] at f₂
    cases f₂
    rw [i₁.unique i₂]
  | _, _, _, .field f₁ r₁ m₁, .field f₂ r₂ m₂ => by
    rw [f₁] at f₂
    cases f₂
    rw [r₁] at r₂
    cases r₂
    rw [m₁] at m₂
    cases m₂
    rfl
  | _, _, _, .call f₁ _ _ _, .call f₂ _ _ _ => by
    rw [f₁] at f₂
    cases f₂
    rfl
  | _, _, _, .cast o₁ _ t₁ _, .cast o₂ _ t₂ _ => by
    rw [t₁] at t₂
    cases t₂
    rw [o₁.unique o₂]

/-- A target stores at most one type in given scopes. -/
theorem TargetInfers.unique {sc : Scopes} {t : Target} {o₁ o₂ : Option Ty}
    (h₁ : TargetInfers sc t o₁) (h₂ : TargetInfers sc t o₂) : o₁ = o₂ := by
  cases h₁ with
  | var f₁ =>
    cases h₂ with
    | var f₂ => rw [← f₁, ← f₂]
  | element f₁ i₁ _ =>
    cases h₂ with
    | element f₂ i₂ _ =>
      rw [f₁] at f₂
      cases f₂
      rw [i₁.unique i₂]
  | field f₁ r₁ m₁ =>
    cases h₂ with
    | field f₂ r₂ m₂ =>
      rw [f₁] at f₂
      cases f₂
      rw [r₁] at r₂
      cases r₂
      rw [m₁] at m₂
      cases m₂
      rfl

/-- A statement leaves at most one scope. -/
theorem StmtChecks.scopes_unique {l₁ l₂ : Bool} {r₁ r₂ : Option Ty} {sc sc₁ sc₂ : Scopes}
    {s : Stmt} (h₁ : StmtChecks l₁ r₁ sc s sc₁) (h₂ : StmtChecks l₂ r₂ sc s sc₂) : sc₁ = sc₂ := by
  cases h₁ with
  | declare _ _ t₁ =>
    cases h₂ with
    | declare _ _ t₂ => rw [t₁] at t₂; cases t₂; rfl
  | array _ _ _ t₁ =>
    cases h₂ with
    | array _ _ _ t₂ => rw [t₁] at t₂; cases t₂; rfl
  | _ => cases h₂; rfl

/-- Declaring a routine's parameters leaves at most one scope. -/
theorem ParamsDeclare.unique : ∀ {sc sc₁ sc₂ : Scopes} {ps : List Param},
    ParamsDeclare sc ps sc₁ → ParamsDeclare sc ps sc₂ → sc₁ = sc₂
  | _, _, _, _, .nil, .nil => rfl
  | _, _, _, _, .cons _ _ t₁ h₁, .cons _ _ t₂ h₂ => by
    rw [t₁] at t₂
    cases t₂
    exact ParamsDeclare.unique h₁ h₂

/-- A routine declaration resolves to at most one return type. -/
theorem ReturnResolves.unique {env : TypeEnv} {r : Option Ty} {R₁ R₂ : Ty}
    (h₁ : ReturnResolves env r R₁) (h₂ : ReturnResolves env r R₂) : R₁ = R₂ := by
  cases r with
  | none => exact h₁.trans h₂.symm
  | some t =>
    obtain ⟨-, h₁⟩ := h₁
    obtain ⟨-, h₂⟩ := h₂
    rw [h₁] at h₂
    cases h₂
    rfl

/-- What a program reads where the judgment types it all lies in `used`, the program taken
from the scopes `sc` the declarations leave to the scopes `sc'` its globals leave: its globals
in order from `sc`, and in `sc'` the body of every routine, in the scopes its parameters
declare, and every other top-level statement. -/
structure ProgramReads (used : List String) (sc sc' : Scopes) (ss : List Stmt) : Prop where
  globals : Stmt.BlockReadsWithin used none sc (ss.filter Stmt.declaresGlobal)
  routines : ∀ n ps r b, Stmt.routine n ps r b ∈ ss → ∀ inner R,
    ParamsDeclare sc'.enter ps inner → ReturnResolves sc'.env r R →
      Stmt.BlockReadsWithin used (some R) inner b
  main : ∀ s ∈ ss, Check.isDeclaration s = false → s.ReadsWithin used none sc'

/-- A statement the judgment accepts, then a block, read within `used` when each does: the
scopes the statement leaves are the ones the block is read in. -/
theorem Stmt.BlockReadsWithin.cons {used₁ used : List String} {ret : Option Ty}
    {sc sc₁ : Scopes} {s : Stmt} {rest : List Stmt} (hs : s.ReadsWithin used₁ ret sc)
    (hu : used₁ ⊆ used) (hc : StmtChecks true ret sc s sc₁)
    (hrest : Stmt.BlockReadsWithin used ret sc₁ rest) :
    Stmt.BlockReadsWithin used ret sc (s :: rest) :=
  ⟨hs.mono hu, fun _ h => h.scopes_unique hc ▸ hrest⟩

namespace Check

/-! ## Recorded names are kept -/

/-- A checking step that forgets no recorded name. -/
def UsedGrows {α : Type} (m : CheckM α) : Prop := ∀ st : Checker, st.used ⊆ (m.run st).2.used

namespace UsedGrows

variable {α β : Type}

theorem pure (a : α) : UsedGrows (Pure.pure a : CheckM α) := fun _ => List.Subset.refl _

theorem bind {m : CheckM α} {f : α → CheckM β} (hm : UsedGrows m) (hf : ∀ a, UsedGrows (f a)) :
    UsedGrows (m >>= f) := fun st =>
  List.Subset.trans (hm st) (hf (m.run st).1 (m.run st).2)

theorem ite {c : Prop} [Decidable c] {m m' : CheckM α} (hm : UsedGrows m) (hm' : UsedGrows m') :
    UsedGrows (if c then m else m') := by
  split
  · exact hm
  · exact hm'

/-- A step that leaves the recorded names as they are. -/
theorem of_keeps {m : CheckM α} (keeps : ∀ st, (m.run st).2.used = st.used) : UsedGrows m :=
  fun st => by
    rw [keeps st]
    exact List.Subset.refl _

/-- A step that forgets no name, as a fact about one run. -/
theorem csat {m : CheckM α} (hm : UsedGrows m) (st : Checker) :
    CSat m st (fun _ st' => st.used ⊆ st'.used) :=
  hm st

/-- Once recorded, names stay recorded through a step that forgets none. -/
theorem keeps {m : CheckM α} (hm : UsedGrows m) {st : Checker} {N : List String}
    (h : N ⊆ st.used) : CSat m st (fun _ st' => N ⊆ st'.used) :=
  List.Subset.trans h (hm st)

theorem scopes : UsedGrows Check.scopes := of_keeps fun _ => rfl

theorem get : UsedGrows (MonadState.get : CheckM Checker) := of_keeps fun _ => rfl

theorem report (e : Error) : UsedGrows (Check.report e) := of_keeps fun _ => rfl

theorem note (level : Level) (source : Source) (message : String) :
    UsedGrows (Check.note level source message) := of_keeps fun _ => rfl

theorem use (n : String) : UsedGrows (Check.use n) := fun st => by
  show st.used ⊆ (if st.used.contains n then st else { st with used := st.used ++ [n] }).used
  split
  · exact List.Subset.refl _
  · exact List.subset_append_left _ _

/-- A change of the state that touches neither the recorded names nor anything they depend
on. -/
theorem modify_of_used {f : Checker → Checker} (h : ∀ st, (f st).used = st.used) :
    UsedGrows (modify f : CheckM Unit) := of_keeps h

theorem resolveQuiet (t : Ty) : UsedGrows (Check.resolveQuiet t) := by
  unfold Check.resolveQuiet
  refine scopes.bind fun sc => ?_
  split <;> exact pure _

theorem resolveReported (t : Ty) : UsedGrows (Check.resolveReported t) := by
  unfold Check.resolveReported
  refine scopes.bind fun sc => ite ((report _).bind fun _ => pure _) ?_
  split
  · exact pure _
  · exact (report _).bind fun _ => pure _

theorem arrayElement (a : String) : UsedGrows (Check.arrayElement a) := by
  unfold Check.arrayElement
  refine (use a).bind fun _ => scopes.bind fun sc => ?_
  split
  · exact pure _
  · exact (report _).bind fun _ => pure _
  · exact (report _).bind fun _ => pure _

theorem indexOk (o : Option Ty) : UsedGrows (Check.indexOk o) := by
  unfold Check.indexOk
  split
  · exact ite (pure _) ((report _).bind fun _ => pure _)
  · exact pure _

theorem recordField (r f : String) : UsedGrows (Check.recordField r f) := by
  unfold Check.recordField
  refine (use r).bind fun _ => scopes.bind fun sc => ?_
  split
  · exact (report _).bind fun _ => pure _
  · refine (resolveQuiet _).bind fun o => ?_
    split
    · split
      · exact resolveQuiet _
      · exact (report _).bind fun _ => pure _
    · exact (report _).bind fun _ => pure _

theorem binaryType (op : BinOp) (l r : Ty) : UsedGrows (Check.binaryType op l r) := by
  unfold Check.binaryType
  split
  · exact pure _
  · exact ite ((report _).bind fun _ => pure _) ((report _).bind fun _ => pure _)

theorem callee (n : String) (args : List Expr) : UsedGrows (Check.callee n args) := by
  unfold Check.callee
  refine scopes.bind fun sc => ?_
  split
  · exact (report _).bind fun _ => pure _
  · dsimp only
    split
    · exact (report _).bind fun _ => pure _
    · exact pure _

theorem checkArgument (name : String) (params : List Ty) (index : Nat) (actual : Option Ty) :
    UsedGrows (Check.checkArgument name params index actual) := by
  unfold Check.checkArgument
  dsimp only
  split
  · refine (resolveQuiet _).bind fun expected => ?_
    split
    · split
      · exact report _
      · exact pure _
    · exact pure _
  · refine (pure _).bind fun expected => ?_
    split
    · split
      · exact report _
      · exact pure _
    · exact pure _

mutual

theorem typeOf : ∀ e : Expr, UsedGrows (Check.typeOf e) := by
  intro e
  cases e with
  | int v => exact pure _
  | real x => exact pure _
  | bool b => exact pure _
  | str s => exact pure _
  | var n =>
    rw [Check.typeOf]
    refine (use n).bind fun _ => scopes.bind fun sc => ?_
    dsimp only
    split
    · exact (report _).bind fun _ => pure _
    · exact pure _
  | binary l op r =>
    rw [Check.typeOf]
    refine (typeOf l).bind fun lt => (typeOf r).bind fun rt => ?_
    split
    · exact binaryType _ _ _
    · exact pure _
  | unary op x =>
    rw [Check.typeOf]
    refine (typeOf x).bind fun o => ?_
    split
    · exact pure _
    · split
      · exact pure _
      · exact (report _).bind fun _ => pure _
  | index a i =>
    rw [Check.typeOf]
    refine (arrayElement a).bind fun el => (typeOf i).bind fun oi => (indexOk oi).bind fun ok => ?_
    split
    · split
      · exact resolveQuiet _
      · exact pure _
    · exact pure _
  | field r f =>
    rw [Check.typeOf]
    exact recordField r f
  | call n args =>
    rw [Check.typeOf]
    refine (callee n args).bind fun o => ?_
    split
    · exact (checkArguments n [] 0 args).bind fun _ => pure _
    · refine (checkArguments n _ 0 args).bind fun _ => (resolveQuiet _).bind fun o => ?_
      split
      · exact pure _
      · split
        · exact (report _).bind fun _ => pure _
        · exact pure _
  | cast x target =>
    rw [Check.typeOf]
    refine (typeOf x).bind fun source => (resolveReported target).bind fun o => ?_
    split
    · exact pure _
    · split
      · exact pure _
      · dsimp only
        split
        · exact (report _).bind fun _ => pure _
        · exact pure _

theorem checkArguments (name : String) (params : List Ty) :
    ∀ (index : Nat) (args : List Expr), UsedGrows (Check.checkArguments name params index args) := by
  intro index args
  cases args with
  | nil => exact pure _
  | cons a rest =>
    rw [Check.checkArguments]
    exact (typeOf a).bind fun o =>
      (checkArgument name params index o).bind fun _ => checkArguments name params (index + 1) rest

end

theorem enterScope : UsedGrows Check.enterScope := by
  unfold Check.enterScope
  exact bind (modify_of_used fun _ => rfl) fun _ => scopes.bind fun _ => note _ _ _

theorem exitScope : UsedGrows Check.exitScope := by
  unfold Check.exitScope
  refine scopes.bind fun sc => ?_
  split
  · exact bind (modify_of_used fun _ => rfl) fun _ => scopes.bind fun _ => note _ _ _
  · exact pure _

theorem declareVar (n : String) (T : Ty) : UsedGrows (Check.declareVar n T) :=
  modify_of_used fun _ => rfl

theorem checkVarDecl (n : String) (t : Option Ty) (i : Option Expr) :
    UsedGrows (Check.checkVarDecl n t i) := by
  unfold Check.checkVarDecl
  refine scopes.bind fun sc => ?_
  split
  · refine (report _).bind fun _ => ?_
    dsimp only
    split
    · exact (typeOf _).bind fun _ => pure _
    · exact pure _
  · split
    · refine (resolveReported _).bind fun o => ?_
      split
      · exact pure _
      · dsimp only
        split
        · refine (typeOf _).bind fun o => ?_
          split
          · split
            · exact (report _).bind fun _ => (declareVar _ _).bind fun _ => pure _
            · exact (declareVar _ _).bind fun _ => pure _
          · exact (declareVar _ _).bind fun _ => pure _
        · exact (declareVar _ _).bind fun _ => pure _
    · split
      · exact (report _).bind fun _ => pure _
      · refine (typeOf _).bind fun o => ?_
        split
        · exact (declareVar _ _).bind fun _ => pure _
        · exact pure _

theorem checkArrayDecl (n : String) (el : Ty) (size : Int) :
    UsedGrows (Check.checkArrayDecl n el size) := by
  unfold Check.checkArrayDecl
  refine scopes.bind fun sc => ?_
  split
  · exact (report _).bind fun _ => pure _
  · split
    · exact (report _).bind fun _ => pure _
    · refine (resolveReported _).bind fun o => ?_
      split
      · exact declareVar _ _
      · exact pure _

theorem checkCondition (construct : String) (o : Option Ty) :
    UsedGrows (Check.checkCondition construct o) := by
  unfold Check.checkCondition
  split
  · exact ite (report _) (pure _)
  · exact pure _

theorem checkBound (o : Option Ty) : UsedGrows (Check.checkBound o) := by
  unfold Check.checkBound
  split
  · exact ite (report _) (pure _)
  · exact pure _

theorem checkLoopVariable (v : String) : UsedGrows (Check.checkLoopVariable v) := by
  unfold Check.checkLoopVariable
  refine scopes.bind fun sc => ?_
  split
  · exact report _
  · exact ite (report _) (pure _)

theorem targetType (t : Target) : UsedGrows (Check.targetType t) := by
  cases t with
  | var n =>
    rw [Check.targetType]
    refine scopes.bind fun sc => ?_
    split
    · exact pure _
    · exact (report _).bind fun _ => pure _
  | element a i =>
    rw [Check.targetType]
    refine (arrayElement a).bind fun o => ?_
    split
    · exact pure _
    · exact (typeOf i).bind fun oi => (indexOk oi).bind fun ok => ite (pure _) (pure _)
  | field r f =>
    rw [Check.targetType]
    exact recordField r f

theorem checkAssignment (t : Target) (v : Expr) : UsedGrows (Check.checkAssignment t v) := by
  unfold Check.checkAssignment
  refine (targetType t).bind fun o => ?_
  split
  · exact pure _
  · refine (use _).bind fun _ => (typeOf v).bind fun o => ?_
    split
    · exact ite (report _) (pure _)
    · exact pure _

theorem checkReturn (v : Option Expr) : UsedGrows (Check.checkReturn v) := by
  unfold Check.checkReturn
  refine get.bind fun st => ?_
  split
  · exact report _
  · split
    · refine ite (report _) ((typeOf _).bind fun o => ?_)
      split
      · exact ite (report _) (pure _)
      · exact pure _
    · exact ite (report _) (pure _)

/-- Comparing a value's type with the type it is stored as. -/
theorem compatible (T : Ty) (o : Option Ty) (err : Ty → Error) :
    UsedGrows (match o with
      | some actual => if !Ty.compatible T actual then Check.report (err actual) else Pure.pure ()
      | none => Pure.pure ()) := by
  split
  · exact ite (report _) (pure _)
  · exact pure _

theorem checkPrint (e : Expr) : UsedGrows (Check.checkPrint e) := by
  unfold Check.checkPrint
  refine (typeOf e).bind fun o => ?_
  split
  · split
    · exact report _
    · exact report _
    · exact pure _
  · exact pure _

mutual

theorem checkStmt : ∀ s : Stmt, UsedGrows (Check.checkStmt s) := by
  intro s
  cases s with
  | varDecl n t i => exact checkVarDecl n t i
  | arrayDecl n el size => exact (checkArrayDecl n el size).bind fun _ => pure _
  | assign t v => exact (checkAssignment t v).bind fun _ => pure _
  | ifThen c t e =>
    rw [Check.checkStmt]
    exact (typeOf c).bind fun _ => (checkCondition _ _).bind fun _ => enterScope.bind fun _ =>
      (checkStmts t).bind fun _ => exitScope.bind fun _ => enterScope.bind fun _ =>
        (checkStmts e).bind fun _ => exitScope.bind fun _ => pure _
  | whileDo c b =>
    rw [Check.checkStmt]
    exact (typeOf c).bind fun _ => (checkCondition _ _).bind fun _ => enterScope.bind fun _ =>
      (checkStmts b).bind fun _ => exitScope.bind fun _ => pure _
  | forRange v lo hi r b =>
    rw [Check.checkStmt]
    exact (typeOf lo).bind fun _ => (checkBound _).bind fun _ => (typeOf hi).bind fun _ =>
      (checkBound _).bind fun _ => (checkLoopVariable v).bind fun _ => enterScope.bind fun _ =>
        (declareVar v .integer).bind fun _ => (checkStmts b).bind fun _ =>
          exitScope.bind fun _ => pure _
  | routine n ps r b => exact (report _).bind fun _ => pure _
  | recordType n fs => exact (report _).bind fun _ => pure _
  | typeAlias n t => exact (report _).bind fun _ => pure _
  | call n args =>
    rw [Check.checkStmt]
    refine (callee n args).bind fun o => ?_
    dsimp only
    split
    · exact (checkArguments n [] 0 args).bind fun _ => pure _
    · exact (checkArguments n _ 0 args).bind fun _ => pure _
  | ret v => exact (checkReturn v).bind fun _ => pure _
  | print e => exact (checkPrint e).bind fun _ => pure _

theorem checkStmts : ∀ ss : List Stmt, UsedGrows (Check.checkStmts ss) := by
  intro ss
  cases ss with
  | nil => exact pure _
  | cons s rest =>
    rw [Check.checkStmts]
    exact (checkStmt s).bind fun _ => (checkStmts rest).bind fun _ => pure _

end

theorem declareParams (routine : String) :
    ∀ ps : List Param, UsedGrows (Check.declareParams routine ps) := by
  intro ps
  induction ps with
  | nil => exact pure _
  | cons p rest ih =>
    rw [Check.declareParams]
    refine scopes.bind fun sc => ?_
    dsimp only
    split
    · exact (report _).bind fun _ => ih
    · refine (resolveReported _).bind fun o => ?_
      split
      · exact (declareVar _ _).bind fun _ => ih
      · exact ih

/-- The rest of a routine's check once its return type `R` is known. -/
theorem routineTail (name : String) (R : Ty) (b : List Stmt) : UsedGrows (do
      modify fun st => { st with returnTypes := R :: st.returnTypes }
      let body' ← Check.checkStmts b
      if (!R.isVoid && !endsWithReturn body') = true then Check.report (.missingReturn name)
      modify fun st => { st with returnTypes := st.returnTypes.drop 1 }
      Check.exitScope
      Pure.pure body') := by
  refine bind (modify_of_used fun _ => rfl) fun _ => (checkStmts b).bind fun b' => ?_
  have rest : UsedGrows (do
      modify fun st => { st with returnTypes := st.returnTypes.drop 1 }
      Check.exitScope
      Pure.pure b') :=
    bind (modify_of_used fun _ => rfl) fun _ => exitScope.bind fun _ => pure b'
  dsimp only
  split
  · exact (report _).bind fun _ => rest
  · exact rest

theorem checkRoutineBody (name : String) (ps : List Param) (r : Option Ty) (b : List Stmt) :
    UsedGrows (Check.checkRoutineBody name ps r b) := by
  unfold Check.checkRoutineBody
  refine enterScope.bind fun _ => (declareParams name ps).bind fun _ => ?_
  cases r with
  | none =>
    simp only [pure_bind]
    exact routineTail name .void b
  | some t =>
    simp only [pure_bind]
    exact (resolveReported t).bind fun o => routineTail name (o.getD t) b

theorem mapM {f : α → CheckM β} (hf : ∀ a, UsedGrows (f a)) : ∀ l : List α, UsedGrows (l.mapM f)
  | [] => pure _
  | a :: l => by
    rw [List.mapM_cons]
    exact (hf a).bind fun _ => (mapM hf l).bind fun _ => pure _

theorem checkGlobal (s : Stmt) : UsedGrows (Check.checkGlobal s) := by
  rw [checkGlobal_eq]
  exact ite (checkStmt s) (pure s)

theorem checkRoutine (s : Stmt) : UsedGrows (Check.checkRoutine s) := by
  cases s with
  | routine n ps r b => exact (checkRoutineBody n ps r b).bind fun _ => pure _
  | _ => exact pure _

theorem checkMain (s : Stmt) : UsedGrows (Check.checkMain s) := by
  unfold Check.checkMain
  exact ite (pure s) (checkStmt s)

end UsedGrows

/-! ## Typing records every name read -/

section Records

variable {α : Type} {st : Checker}

theorem use_records (n : String) (st : Checker) : CSat (use n) st (fun _ st' => n ∈ st'.used) := by
  show n ∈ (if st.used.contains n then st else { st with used := st.used ++ [n] }).used
  split
  · rename_i h
    simpa using h
  · simp

theorem arrayElement_records (a : String) (st : Checker) :
    CSat (arrayElement a) st (fun _ st' => a ∈ st'.used) := by
  unfold arrayElement
  rw [csat_bind]
  refine (use_records a st).mono fun _ st₁ h₁ => ?_
  refine UsedGrows.keeps (N := [a]) ?_ (by simpa using h₁) |>.mono fun _ _ h => by simpa using h
  refine UsedGrows.scopes.bind fun sc => ?_
  split
  · exact UsedGrows.pure _
  · exact (UsedGrows.report _).bind fun _ => UsedGrows.pure _
  · exact (UsedGrows.report _).bind fun _ => UsedGrows.pure _

theorem recordField_records (r f : String) (st : Checker) :
    CSat (recordField r f) st (fun _ st' => r ∈ st'.used) := by
  unfold recordField
  rw [csat_bind]
  refine (use_records r st).mono fun _ st₁ h₁ => ?_
  refine UsedGrows.keeps (N := [r]) ?_ (by simpa using h₁) |>.mono fun _ _ h => by simpa using h
  refine UsedGrows.scopes.bind fun sc => ?_
  split
  · exact (UsedGrows.report _).bind fun _ => UsedGrows.pure _
  · refine (UsedGrows.resolveQuiet _).bind fun o => ?_
    split
    · split
      · exact UsedGrows.resolveQuiet _
      · exact (UsedGrows.report _).bind fun _ => UsedGrows.pure _
    · exact (UsedGrows.report _).bind fun _ => UsedGrows.pure _

end Records

mutual

/-- Typing an expression records every name it reads, whatever it reports. -/
theorem typeOf_uses : ∀ (e : Expr) (st : Checker),
    CSat (typeOf e) st (fun _ st' => e.names ⊆ st'.used)
  | .int _, _ | .real _, _ | .bool _, _ | .str _, _ => List.nil_subset _
  | .var n, st => by
    rw [typeOf, csat_bind]
    refine (use_records n st).mono fun _ st₁ h₁ => UsedGrows.keeps ?_ (by simpa [Expr.names] using h₁)
    refine UsedGrows.scopes.bind fun sc => ?_
    dsimp only
    split
    · exact (UsedGrows.report _).bind fun _ => UsedGrows.pure _
    · exact UsedGrows.pure _
  | .binary l op r, st => by
    rw [typeOf, csat_bind]
    refine (typeOf_uses l st).mono fun lt st₁ h₁ => ?_
    rw [csat_bind]
    refine ((typeOf_uses r st₁).and ((UsedGrows.typeOf r).keeps h₁)).mono fun rt st₂ h₂ => ?_
    refine UsedGrows.keeps ?_ (List.append_subset.mpr ⟨h₂.2, h₂.1⟩)
    split
    · exact UsedGrows.binaryType _ _ _
    · exact UsedGrows.pure _
  | .unary op x, st => by
    rw [typeOf, csat_bind]
    refine (typeOf_uses x st).mono fun o st₁ h₁ => UsedGrows.keeps ?_ h₁
    split
    · exact UsedGrows.pure _
    · split
      · exact UsedGrows.pure _
      · exact (UsedGrows.report _).bind fun _ => UsedGrows.pure _
  | .index a i, st => by
    rw [typeOf, csat_bind]
    refine (arrayElement_records a st).mono fun el st₁ h₁ => ?_
    rw [csat_bind]
    refine ((typeOf_uses i st₁).and
      ((UsedGrows.typeOf i).keeps (N := [a]) (by simpa using h₁))).mono fun oi st₂ h₂ => ?_
    refine UsedGrows.keeps (N := a :: i.names) ?_ (List.cons_subset.mpr ⟨by simpa using h₂.2, h₂.1⟩)
    refine (UsedGrows.indexOk oi).bind fun ok => ?_
    split
    · split
      · exact UsedGrows.resolveQuiet _
      · exact UsedGrows.pure _
    · exact UsedGrows.pure _
  | .field r f, st => by
    rw [typeOf]
    exact (recordField_records r f st).mono fun _ _ h => by simpa [Expr.names] using h
  | .call n args, st => by
    rw [typeOf]
    refine CSat.bind_of_forall fun o st₁ => ?_
    split
    · rw [csat_bind]
      exact (checkArguments_uses n [] 0 args st₁).mono fun _ _ h => UsedGrows.keeps (UsedGrows.pure _) h
    · rw [csat_bind]
      refine (checkArguments_uses n _ 0 args st₁).mono fun _ _ h => UsedGrows.keeps ?_ h
      refine (UsedGrows.resolveQuiet _).bind fun o => ?_
      split
      · exact UsedGrows.pure _
      · split
        · exact (UsedGrows.report _).bind fun _ => UsedGrows.pure _
        · exact UsedGrows.pure _
  | .cast x target, st => by
    rw [typeOf, csat_bind]
    refine (typeOf_uses x st).mono fun source st₁ h₁ => UsedGrows.keeps ?_ h₁
    refine (UsedGrows.resolveReported target).bind fun o => ?_
    split
    · exact UsedGrows.pure _
    · split
      · exact UsedGrows.pure _
      · dsimp only
        split
        · exact (UsedGrows.report _).bind fun _ => UsedGrows.pure _
        · exact UsedGrows.pure _

/-- Checking call arguments records every name they read. -/
theorem checkArguments_uses (name : String) (params : List Ty) : ∀ (index : Nat) (args : List Expr)
    (st : Checker), CSat (checkArguments name params index args) st
      (fun _ st' => Expr.namesOf args ⊆ st'.used)
  | _, [], _ => List.nil_subset _
  | index, a :: rest, st => by
    rw [checkArguments, csat_bind]
    refine (typeOf_uses a st).mono fun o st₁ h₁ => ?_
    rw [csat_bind]
    refine ((UsedGrows.checkArgument name params index o).keeps h₁).mono fun _ st₂ h₂ => ?_
    exact ((checkArguments_uses name params (index + 1) rest st₂).and
      ((UsedGrows.checkArguments name params (index + 1) rest).keeps h₂)).mono fun _ _ h =>
        List.append_subset.mpr ⟨h.2, h.1⟩

end

/-! ## Statements record what the judgment reads -/

section Statements

variable {α : Type} {st : Checker}

/-- Checking a target records the names it reads; only a variable stored into waits to be
recorded until the target has a type. -/
theorem targetType_reads (t : Target) (st : Checker) :
    CSat (targetType t) st (fun o st' => Quiet st st' →
      ∀ n ∈ t.names, n ∈ st'.used ∨ (n = t.root ∧ o.isSome)) := by
  cases t with
  | var n =>
    simp only [targetType, csat_bind, csat_scopes]
    cases h : st.scopes.typeOf? n with
    | none => exact report_bind_sat _ _ fun _ _ nq hq => absurd hq nq
    | some T => exact fun _ m hm => .inr ⟨by simpa [Target.names, Target.root] using hm, rfl⟩
  | element a i =>
    rw [targetType, csat_bind]
    refine ((arrayElement_sat a).and (arrayElement_records a st)).mono fun oel st₁ h₁ => ?_
    obtain ⟨⟨r₁, h₁⟩, u₁⟩ := h₁
    cases oel with
    | none =>
      refine fun hq => ?_
      obtain ⟨_, _, _, h⟩ := h₁ hq
      cases h
    | some el =>
      rw [csat_bind]
      refine ((typeOf_uses i st₁).and ((UsedGrows.typeOf i).keeps (N := [a])
        (by simpa using u₁))).mono fun oi st₂ h₂ => ?_
      refine CSat.mono (UsedGrows.keeps (N := a :: i.names) ?_
        (List.cons_subset.mpr ⟨by simpa using h₂.2, h₂.1⟩)) fun _ _ h _ m hm => .inl (h hm)
      exact (UsedGrows.indexOk oi).bind fun ok => UsedGrows.ite (UsedGrows.pure _) (UsedGrows.pure _)
  | field r f =>
    rw [targetType]
    exact (recordField_records r f st).mono fun _ _ h _ m hm => .inl (by
      simp only [Target.names, List.mem_singleton] at hm
      exact hm ▸ h)

/-- A quiet check of an assignment records the names of its target, and those of its value
when the target has a type. -/
theorem checkAssignment_reads (t : Target) (v : Expr) (st : Checker) :
    CSat (checkAssignment t v) st (fun _ st' => Quiet st st' →
      t.names ⊆ st'.used ∧ ∀ T, TargetInfers st.scopes t (some T) → v.names ⊆ st'.used) := by
  unfold checkAssignment
  rw [csat_bind]
  refine ((targetType_sat t).and (targetType_reads t st)).mono fun o st₁ h₁ => ?_
  obtain ⟨⟨r₁, j₁⟩, n₁⟩ := h₁
  cases o with
  | none =>
    -- a target without a type: its names were all recorded, and no type is stored
    refine fun hq => ⟨fun n hn => ?_, fun T hT => absurd ((j₁ hq).unique hT) (by simp)⟩
    rcases n₁ hq n hn with h | ⟨-, h⟩
    · exact h
    · cases h
  | some T =>
    simp only [csat_bind]
    refine CSat.imp (use_sat _ fun st₂ r₂ _ h₂ => ?_)
      ((use_records t.root st₁).and ((UsedGrows.use t.root).csat st₁))
    obtain ⟨u₂, g₂⟩ := h₂
    refine ((typeOf_quiet v st₂).and ((typeOf_uses v st₂).and
      ((UsedGrows.typeOf v).csat st₂))).mono fun o st₃ h₃ => ?_
    obtain ⟨⟨r₃, -⟩, v₃, g₃⟩ := h₃
    refine ((compatible_sat T o _).and ((UsedGrows.compatible T o _).csat st₃)).mono
      fun _ st₄ h₄ hq => ?_
    obtain ⟨⟨r₄, -⟩, g₄⟩ := h₄
    have q₁ : Quiet st st₁ := (Quiet.split r₁ (r₂.trans (r₃.trans r₄)) hq).1
    refine ⟨fun n hn => ?_, fun _ _ => List.Subset.trans v₃ g₄⟩
    rcases n₁ q₁ n hn with h | ⟨rfl, -⟩
    · exact g₄ (g₃ (g₂ h))
    · exact g₄ (g₃ u₂)

/-- A quiet check of a declaration records the names of its initializer: every quiet way
through it types the initializer. -/
theorem checkVarDecl_reads (n : String) (t : Option Ty) (init : Option Expr) (st : Checker) :
    CSat (checkVarDecl n t init) st (fun _ st' => Quiet st st' →
      ∀ i, init = some i → i.names ⊆ st'.used) := by
  cases init with
  | none => exact CSat.of_forall fun _ _ _ i h => by cases h
  | some i =>
    unfold checkVarDecl
    by_cases hdef : st.scopes.isDefinedHere n = true
    · -- a name declared here already is reported, and its initializer typed all the same
      simp only [csat_bind, csat_scopes, hdef, ↓reduceIte]
      exact report_sat _ fun st₁ _ _ =>
        (typeOf_uses i st₁).mono fun _ _ h _ j hj => Option.some.inj hj ▸ h
    have fresh : st.scopes.isDefinedHere n = false := Bool.eq_false_iff.mpr hdef
    cases t with
    | some t =>
      simp only [csat_bind, csat_scopes, fresh, Bool.false_eq_true, ↓reduceIte]
      refine (resolveReported_sat t).mono fun o st₁ h₁ => ?_
      cases o with
      | none =>
        refine fun hq => ?_
        obtain ⟨_, _, _, h⟩ := h₁.2 hq
        cases h
      | some T =>
        simp only [csat_bind]
        refine (typeOf_uses i st₁).mono fun o st₂ h₂ => ?_
        refine CSat.mono (UsedGrows.keeps ?_ h₂) fun _ _ h _ j hj => Option.some.inj hj ▸ h
        have declared := (UsedGrows.declareVar n T).bind fun _ => UsedGrows.pure (Stmt.varDecl n (some t) (some i))
        split
        · split
          · exact (UsedGrows.report _).bind fun _ => declared
          · exact declared
        · exact declared
    | none =>
      simp only [csat_bind, csat_scopes, fresh, Bool.false_eq_true, ↓reduceIte]
      refine (typeOf_uses i st).mono fun o st₁ h₁ => ?_
      cases o with
      | none => exact fun _ j hj => Option.some.inj hj ▸ h₁
      | some A =>
        simp only [csat_bind]
        refine ((UsedGrows.declareVar n A).keeps h₁).mono fun _ _ h => ?_
        exact fun _ j hj => Option.some.inj hj ▸ h

/-- A quiet check of a return records the names of its value. -/
theorem checkReturn_reads (v : Option Expr) (st : Checker) :
    CSat (checkReturn v) st (fun _ st' => Quiet st st' → ∀ e, v = some e → e.names ⊆ st'.used) := by
  cases v with
  | none => exact CSat.of_forall fun _ _ _ e h => by cases h
  | some e =>
    simp only [checkReturn, csat_bind, csat_get]
    cases st.returnTypes with
    | nil => exact report_sat _ fun _ _ nq hq => absurd hq nq
    | cons R _ =>
      simp only
      split
      · exact report_sat _ fun _ _ nq hq => absurd hq nq
      · simp only [csat_bind]
        refine (typeOf_uses e st).mono fun o st₁ h₁ => ?_
        refine ((UsedGrows.compatible R o _).keeps h₁).mono fun _ _ h => ?_
        exact fun _ j hj => Option.some.inj hj ▸ h

/-- Checking a print records the names of its value. -/
theorem checkPrint_uses (e : Expr) (st : Checker) :
    CSat (checkPrint e) st (fun _ st' => e.names ⊆ st'.used) := by
  rw [checkPrint, csat_bind]
  refine (typeOf_uses e st).mono fun o st₁ h₁ => UsedGrows.keeps ?_ h₁
  split
  · split
    · exact UsedGrows.report _
    · exact UsedGrows.report _
    · exact UsedGrows.pure _
  · exact UsedGrows.pure _

/-- Checking a block in a scope of its own: what the block records of the names it reads is
kept when the scope is left. What follows is `K`. -/
theorem scoped_reads {K : List Stmt → Checker → Prop} (ss : List Stmt)
    (block : ∀ st, CSat (checkStmts ss) st (fun ss' st' => Quiet st st' →
      st.scopes.WellFormed → Stmt.BlockReadsWithin st'.used st.returnTypes.head? st.scopes ss'))
    (hK : ∀ ss' st', Steps st st' → st.used ⊆ st'.used → (Quiet st st' → st.scopes.WellFormed →
      Stmt.BlockReadsWithin st'.used st.returnTypes.head? st.scopes.enter ss' ∧
        st'.scopes = st.scopes) → K ss' st') :
    CSat enterScope st (fun _ st₁ => CSat (checkStmts ss) st₁ (fun ss' st₂ =>
      CSat exitScope st₂ (fun _ st₃ => K ss' st₃))) := by
  refine CSat.imp (enterScope_sat fun st₁ hs₁ r₁ q₁ g₁ => ?_) (UsedGrows.enterScope.csat st)
  refine ((checkStmts_quiet ss st₁).and ((block st₁).and
    ((UsedGrows.checkStmts ss).csat st₁))).mono fun ss' st₂ h₂ => ?_
  obtain ⟨⟨r₂, j₂⟩, b₂, g₂⟩ := h₂
  refine CSat.imp (exitScope_sat fun st₃ hs₃ r₃ q₃ g₃ =>
    hK ss' st₃ (r₁.trans (r₂.trans r₃)) (List.Subset.trans g₁ (List.Subset.trans g₂ g₃)) fun hq hwf => ?_)
    (UsedGrows.exitScope.csat st₂)
  have q₂ : Quiet st₁ st₂ := Eq.trans q₃.symm (Eq.trans hq q₁.symm)
  rw [hs₁, r₁.returnTypes] at j₂ b₂
  obtain ⟨hb, -⟩ := j₂ q₂ hwf.enter
  obtain ⟨hexit, hne⟩ := hb.exit_eq (by simp)
  exact ⟨(b₂ q₂ hwf.enter).mono g₃, by rw [hs₃ hne, hexit, Scopes.exit_enter]⟩

mutual

/-- A quiet check of a statement, in well-formed scopes, records every name the statement it
returns reads where the judgment types it. -/
theorem checkStmt_reads : ∀ (s : Stmt) (st : Checker),
    CSat (checkStmt s) st (fun s' st' => Quiet st st' → st.scopes.WellFormed →
      s'.ReadsWithin st'.used st.returnTypes.head? st.scopes)
  | .varDecl n t i, st => by
    rw [checkStmt]
    refine ((checkVarDecl_quiet true st.returnTypes.head? n t i).and
      (checkVarDecl_reads n t i st)).mono fun s' _ h => ?_
    obtain ⟨⟨-, ⟨t', rfl⟩, -⟩, h⟩ := h
    exact fun hq _ => h hq
  | .arrayDecl n el size, st => by
    simp only [checkStmt, csat_bind, csat_pure]
    exact CSat.of_forall fun _ _ _ _ => trivial
  | .assign t v, st => by
    simp only [checkStmt, csat_bind, csat_pure]
    exact (checkAssignment_reads t v st).mono fun _ _ h hq _ => h hq
  | .ifThen c t e, st => by
    simp only [checkStmt, csat_bind, csat_pure]
    refine ((typeOf_quiet c st).and (typeOf_uses c st)).mono fun oc st₁ h₁ => ?_
    obtain ⟨⟨r₁, -⟩, u₁⟩ := h₁
    refine ((checkCondition_sat "If" oc).and
      ((UsedGrows.checkCondition _ _).keeps u₁)).mono fun _ st₂ h₂ => ?_
    obtain ⟨⟨r₂, -⟩, u₂⟩ := h₂
    refine scoped_reads t (checkStmts_reads t) fun t' st₃ r₃ g₃ h₃ => ?_
    refine scoped_reads e (checkStmts_reads e) fun e' st₄ r₄ g₄ h₄ hq hwf => ?_
    have r₁₂ := r₁.trans r₂
    obtain ⟨q₁₃, q₄⟩ := Steps.split (r₁₂.steps.trans r₃) r₄ hq
    obtain ⟨-, q₃⟩ := Steps.split r₁₂.steps r₃ q₁₃
    rw [r₁₂.scopes, r₁₂.returnTypes] at h₃
    obtain ⟨hb₁, hs₃⟩ := h₃ q₃ hwf
    rw [hs₃, r₃.returnTypes, r₁₂.returnTypes] at h₄
    exact ⟨List.Subset.trans u₂ (List.Subset.trans g₃ g₄), hb₁.mono g₄, (h₄ q₄ hwf).1⟩
  | .whileDo c b, st => by
    simp only [checkStmt, csat_bind, csat_pure]
    refine ((typeOf_quiet c st).and (typeOf_uses c st)).mono fun oc st₁ h₁ => ?_
    obtain ⟨⟨r₁, -⟩, u₁⟩ := h₁
    refine ((checkCondition_sat "While" oc).and
      ((UsedGrows.checkCondition _ _).keeps u₁)).mono fun _ st₂ h₂ => ?_
    obtain ⟨⟨r₂, -⟩, u₂⟩ := h₂
    refine scoped_reads b (checkStmts_reads b) fun b' st₃ r₃ g₃ h₃ hq hwf => ?_
    have r₁₂ := r₁.trans r₂
    obtain ⟨-, q₃⟩ := Steps.split r₁₂.steps r₃ hq
    rw [r₁₂.scopes, r₁₂.returnTypes] at h₃
    exact ⟨List.Subset.trans u₂ g₃, (h₃ q₃ hwf).1⟩
  | .forRange v s e r b, st => by
    simp only [checkStmt, csat_bind, csat_pure]
    refine ((typeOf_quiet s st).and (typeOf_uses s st)).mono fun os st₁ h₁ => ?_
    obtain ⟨⟨r₁, -⟩, u₁⟩ := h₁
    refine ((checkBound_sat os).and ((UsedGrows.checkBound os).csat st₁)).mono fun _ st₂ h₂ => ?_
    obtain ⟨⟨r₂, -⟩, g₂⟩ := h₂
    refine ((typeOf_quiet e st₂).and ((typeOf_uses e st₂).and
      ((UsedGrows.typeOf e).csat st₂))).mono fun oe st₃ h₃ => ?_
    obtain ⟨⟨r₃, -⟩, u₃, g₃⟩ := h₃
    refine ((checkBound_sat oe).and ((UsedGrows.checkBound oe).csat st₃)).mono fun _ st₄ h₄ => ?_
    obtain ⟨⟨r₄, -⟩, g₄⟩ := h₄
    refine ((checkLoopVariable_sat v).and
      ((UsedGrows.checkLoopVariable v).csat st₄)).mono fun _ st₅ h₅ => ?_
    obtain ⟨⟨r₅, -⟩, g₅⟩ := h₅
    refine CSat.imp (enterScope_sat fun st₆ hs₆ r₆ q₆ g₆ => ?_) (UsedGrows.enterScope.csat st₅)
    refine CSat.imp (declareVar_sat v .integer fun st₇ hs₇ r₇ q₇ g₇ => ?_)
      ((UsedGrows.declareVar v .integer).csat st₆)
    refine ((checkStmts_quiet b st₇).and ((checkStmts_reads b st₇).and
      ((UsedGrows.checkStmts b).csat st₇))).mono fun b' st₈ h₈ => ?_
    obtain ⟨⟨r₈, j₈⟩, b₈, g₈⟩ := h₈
    refine CSat.imp (exitScope_sat fun st₉ hs₉ r₉ q₉ g₉ hq hwf => ?_) (UsedGrows.exitScope.csat st₈)
    -- the bounds only read; the body runs in the loop's own scope, with the counter declared
    have r₁₅ := r₁.trans (r₂.trans (r₃.trans (r₄.trans r₅)))
    have r₆₇ := r₆.trans r₇
    obtain ⟨-, q₈⟩ := Steps.split (r₁₅.steps.trans r₆₇) r₈ (Eq.trans q₉.symm hq)
    have inner : st₇.scopes = st.scopes.enter.declare v .integer := by
      rw [hs₇, hs₆, r₁₅.scopes]
    have wf₇ : st₇.scopes.WellFormed := by
      rw [inner]; exact hwf.enter.declare (Ty.resolved_prim .integer) rfl v
    rw [r₆₇.returnTypes, r₁₅.returnTypes, inner] at b₈
    have g₅₉ : st₅.used ⊆ st₉.used :=
      List.Subset.trans g₆ (List.Subset.trans g₇ (List.Subset.trans g₈ g₉))
    have g₃₉ : st₃.used ⊆ st₉.used := List.Subset.trans g₄ (List.Subset.trans g₅ g₅₉)
    exact ⟨List.Subset.trans u₁ (List.Subset.trans g₂ (List.Subset.trans g₃ g₃₉)),
      List.Subset.trans u₃ g₃₉, (b₈ q₈ (inner ▸ wf₇)).mono g₉⟩
  | .routine n ps rt b, st => by
    simp only [checkStmt, csat_bind, csat_pure]
    exact CSat.of_forall fun _ _ _ _ => trivial
  | .recordType n fs, st => by
    simp only [checkStmt, csat_bind, csat_pure]
    exact CSat.of_forall fun _ _ _ _ => trivial
  | .typeAlias n t, st => by
    simp only [checkStmt, csat_bind, csat_pure]
    exact CSat.of_forall fun _ _ _ _ => trivial
  | .call n args, st => by
    simp only [checkStmt, csat_bind]
    -- the arguments are typed whatever the callee's signature
    refine CSat.of_forall fun osig st₁ => ?_
    cases osig with
    | none =>
      simp only [csat_bind, csat_pure]
      exact (checkArguments_uses n [] 0 args st₁).mono fun _ _ h _ _ => h
    | some sig =>
      simp only [csat_bind, csat_pure]
      exact (checkArguments_uses n sig.params 0 args st₁).mono fun _ _ h _ _ => h
  | .ret v, st => by
    simp only [checkStmt, csat_bind, csat_pure]
    exact (checkReturn_reads v st).mono fun _ _ h hq _ => h hq
  | .print e, st => by
    simp only [checkStmt, csat_bind, csat_pure]
    exact (checkPrint_uses e st).mono fun _ _ h _ _ => h

/-- A quiet check of a block, in well-formed scopes, records every name the statements it
returns read where the judgment types them. -/
theorem checkStmts_reads : ∀ (ss : List Stmt) (st : Checker),
    CSat (checkStmts ss) st (fun ss' st' => Quiet st st' → st.scopes.WellFormed →
      Stmt.BlockReadsWithin st'.used st.returnTypes.head? st.scopes ss')
  | [], _ => fun _ _ => trivial
  | s :: rest, st => by
    simp only [checkStmts, csat_bind, csat_pure]
    refine ((checkStmt_quiet s st).and (checkStmt_reads s st)).mono fun s' st₁ h₁ => ?_
    obtain ⟨⟨r₁, -, j₁⟩, b₁⟩ := h₁
    refine ((checkStmts_quiet rest st₁).and ((checkStmts_reads rest st₁).and
      ((UsedGrows.checkStmts rest).csat st₁))).mono fun rest' st₂ h₂ hq hwf => ?_
    obtain ⟨⟨r₂, -⟩, b₂, g₂⟩ := h₂
    obtain ⟨q₁, q₂⟩ := r₁.split r₂ hq
    obtain ⟨c₁, w₁⟩ := j₁ q₁ hwf
    rw [r₁.returnTypes] at b₂
    exact Stmt.BlockReadsWithin.cons (b₁ q₁ hwf) g₂ c₁ (b₂ q₂ w₁)

end

end Statements

/-! ## A quiet walk records what the program reads -/

section Walk

/-- The rest of a routine's check once its return type `R` is known: a quiet run records what
the body it returns reads, in a routine returning `R`. -/
theorem routineTail_reads (name : String) (R : Ty) (b : List Stmt) (st : Checker) : CSat (do
      modify fun st => { st with returnTypes := R :: st.returnTypes }
      let body' ← checkStmts b
      if (!R.isVoid && !endsWithReturn body') = true then report (.missingReturn name)
      modify fun st => { st with returnTypes := st.returnTypes.drop 1 }
      exitScope
      pure body') st (fun b' st' => Quiet st st' → st.scopes.WellFormed →
        Stmt.BlockReadsWithin st'.used (some R) st.scopes b') := by
  simp only [csat_bind, csat_modify]
  refine ((checkStmts_quiet b _).and (checkStmts_reads b _)).mono fun b' st₁ h₁ => ?_
  obtain ⟨⟨r₁, -⟩, b₁⟩ := h₁
  split
  · -- a body that may fall off its end is reported
    refine report_bind_sat _ _ fun st₂ r₂ nq₂ => ?_
    simp only [csat_bind, csat_modify, csat_pure]
    refine exitScope_sat fun st₃ _ r₃ _ => ?_
    exact (Steps.loud (r₁.trans r₂.steps).pop r₃
      (.inl fun hq => nq₂ (Steps.split r₁ r₂.steps hq).2)).2
  · simp only [csat_bind, csat_modify, csat_pure]
    refine CSat.imp (exitScope_sat fun st₃ _ r₃ _ g₃ hq hwf => ?_) (UsedGrows.exitScope.csat _)
    exact (b₁ (Quiet.of_grows r₁.grows r₃.grows hq).1 hwf).mono g₃

/-- A quiet check of a routine's body records what the body it returns reads, in the scopes
its parameters declare and in a routine returning its return type. -/
theorem checkRoutineBody_reads (name : String) (ps : List Param) (r : Option Ty) (b : List Stmt)
    (st : Checker) :
    CSat (checkRoutineBody name ps r b) st (fun b' st' => Quiet st st' → st.scopes.WellFormed →
      ∀ inner R, ParamsDeclare st.scopes.enter ps inner → ReturnResolves st.scopes.env r R →
        Stmt.BlockReadsWithin st'.used (some R) inner b') := by
  unfold checkRoutineBody
  simp only [csat_bind]
  refine enterScope_sat fun st₁ hs₁ r₁ _ => ?_
  refine (declareParams_quiet name ps st₁).mono₂ fun _ st₂ r₂ h₂ => ?_
  have henv : st₂.scopes.env = st.scopes.env := (r₁.trans r₂).types
  -- both ways to the return type end in the same tail; the parameters' scopes and the return
  -- type are the only ones the judgment allows
  have finish : ∀ R st₃ b' st₄, Steps st₂ st₃ →
      (Quiet st₂ st₃ → ReturnResolves st.scopes.env r R ∧ st₃.scopes = st₂.scopes) →
      Steps st₃ st₄ → (Quiet st₃ st₄ → st₃.scopes.WellFormed →
        Stmt.BlockReadsWithin st₄.used (some R) st₃.scopes b') →
      Quiet st st₄ → st.scopes.WellFormed → ∀ inner R', ParamsDeclare st.scopes.enter ps inner →
        ReturnResolves st.scopes.env r R' → Stmt.BlockReadsWithin st₄.used (some R') inner b' := by
    intro R st₃ b' st₄ r₃ h₃ r₄ h₄ hq hwf inner R' params' returns'
    obtain ⟨-, q₂₄⟩ := Steps.split r₁ (r₂.trans (r₃.trans r₄)) hq
    obtain ⟨q₂, q₃₄⟩ := Steps.split r₂ (r₃.trans r₄) q₂₄
    obtain ⟨q₃, q₄⟩ := Steps.split r₃ r₄ q₃₄
    obtain ⟨hR, hs₃⟩ := h₃ q₃
    obtain ⟨params, wf₂⟩ := h₂ q₂ (hs₁ ▸ hwf.enter)
    rw [hs₁] at params
    rw [← hR.unique returns', ← params.unique params', ← hs₃]
    exact h₄ q₄ (by rw [hs₃]; exact wf₂)
  cases r with
  | none =>
    simp only [pure_bind]
    exact ((routineTail_sat name .void b st₂).and (routineTail_reads name .void b st₂)).mono
      fun b' st₄ h₄ => finish .void st₂ b' st₄ (Steps.refl st₂) (fun _ => ⟨rfl, rfl⟩) h₄.1.1 h₄.2
  | some t =>
    simp only [pure_bind]
    rw [csat_bind]
    refine (resolveReported_sat t).mono₂ fun o st₃ r₃ h₃ => ?_
    refine ((routineTail_sat name (o.getD t) b st₃).and
      (routineTail_reads name (o.getD t) b st₃)).mono fun b' st₄ h₄ =>
        finish (o.getD t) st₃ b' st₄ r₃.steps (fun q₃ => ⟨?_, r₃.scopes⟩) h₄.1.1 h₄.2
    obtain ⟨hv, T, hT, rfl⟩ := h₃ q₃
    rw [henv] at hv hT
    exact ⟨hv, hT⟩

/-- A pass each step of which keeps the scopes when quiet in well formed scopes and records
what `J` asks of the statement it returns: a quiet run records it of every statement. -/
theorem mapM_reads (f : Stmt → CheckM Stmt) (hg : ∀ s, UsedGrows (f s))
    (J : List String → Option Ty → Scopes → Stmt → Prop)
    (mono : ∀ {u u' ret sc s}, u ⊆ u' → J u ret sc s → J u' ret sc s)
    (hf : ∀ s st, CSat (f s) st (fun s' st' => Steps st st' ∧ (Quiet st st' →
      st.scopes.WellFormed → J st'.used st.returnTypes.head? st.scopes s' ∧
        st'.scopes = st.scopes))) :
    ∀ (ss : List Stmt) (st : Checker), CSat (ss.mapM f) st (fun ss' st' => Steps st st' ∧
      (Quiet st st' → st.scopes.WellFormed →
        (∀ s ∈ ss', J st'.used st.returnTypes.head? st.scopes s) ∧ st'.scopes = st.scopes))
  | [], st => by
    simp only [List.mapM_nil, csat_pure]
    exact ⟨Steps.refl st, fun _ _ => ⟨by simp, trivial⟩⟩
  | s :: ss, st => by
    rw [csat_mapM_cons]
    refine (hf s st).mono₂ fun s' st₁ r₁ h₁ => ?_
    refine ((mapM_reads f hg J mono hf ss st₁).and
      ((UsedGrows.mapM hg ss).csat st₁)).mono fun ss' st₂ h₂ => ?_
    obtain ⟨⟨r₂, h₂⟩, g₂⟩ := h₂
    refine ⟨r₁.trans r₂, fun hq hwf => ?_⟩
    obtain ⟨q₁, q₂⟩ := Steps.split r₁ r₂ hq
    obtain ⟨hs, hsc₁⟩ := h₁ q₁ hwf
    rw [hsc₁, r₁.returnTypes] at h₂
    obtain ⟨hss, hsc₂⟩ := h₂ q₂ hwf
    exact ⟨List.forall_mem_cons.mpr ⟨mono g₂ hs, hss⟩, hsc₂⟩

/-- Pass 3 records what the globals it returns read, in order. -/
theorem globals_reads : ∀ (ss : List Stmt) (st : Checker),
    CSat (ss.mapM checkGlobal) st (fun ss' st' => Quiet st st' → st.scopes.WellFormed →
      Stmt.BlockReadsWithin st'.used st.returnTypes.head? st.scopes
        (ss'.filter Stmt.declaresGlobal))
  | [], _ => fun _ _ => trivial
  | s :: ss, st => by
    rw [csat_mapM_cons, checkGlobal_eq]
    split
    · rename_i hg
      refine ((checkStmt_quiet s st).and (checkStmt_reads s st)).mono fun s' st₁ h₁ => ?_
      obtain ⟨⟨r₁, hh, j₁⟩, b₁⟩ := h₁
      refine ((globals_quiet ss st₁).and ((globals_reads ss st₁).and
        ((UsedGrows.mapM UsedGrows.checkGlobal ss).csat st₁))).mono fun ss' st₂ h₂ hq hwf => ?_
      obtain ⟨⟨r₂, -⟩, b₂, g₂⟩ := h₂
      obtain ⟨q₁, q₂⟩ := Steps.split r₁ r₂ hq
      obtain ⟨c₁, w₁⟩ := j₁ q₁ hwf
      have hg' : s'.declaresGlobal = true := by
        rw [Stmt.declaresGlobal_eq_heading, hh, ← Stmt.declaresGlobal_eq_heading, hg]
      rw [List.filter_cons_of_pos hg']
      rw [r₁.returnTypes] at b₂
      exact Stmt.BlockReadsWithin.cons (b₁ q₁ hwf) g₂ c₁ (b₂ q₂ w₁)
    · rename_i hg
      rw [csat_pure]
      refine (globals_reads ss st).mono fun ss' _ h hq hwf => ?_
      rw [List.filter_cons_of_neg hg]
      exact h hq hwf

theorem checkRoutine_reads (s : Stmt) (st : Checker) :
    CSat (checkRoutine s) st (fun s' st' => Quiet st st' → st.scopes.WellFormed →
      ∀ n ps r b, s' = .routine n ps r b → ∀ inner R, ParamsDeclare st.scopes.enter ps inner →
        ReturnResolves st.scopes.env r R → Stmt.BlockReadsWithin st'.used (some R) inner b) := by
  cases s with
  | routine n ps r b =>
    simp only [checkRoutine, csat_bind, csat_pure]
    refine (checkRoutineBody_reads n ps r b st).mono fun b' _ h hq hwf _ _ _ _ hs => ?_
    cases hs
    exact h hq hwf
  | _ => exact fun _ _ _ _ _ _ h => by cases h

/-- Pass 4 records what the routine bodies it returns read. -/
theorem routines_reads (ss : List Stmt) (st : Checker) :
    CSat (ss.mapM checkRoutine) st (fun ss' st' => Steps st st' ∧ (Quiet st st' →
      st.scopes.WellFormed → (∀ s ∈ ss', ∀ n ps r b, s = .routine n ps r b → ∀ inner R,
        ParamsDeclare st.scopes.enter ps inner → ReturnResolves st.scopes.env r R →
          Stmt.BlockReadsWithin st'.used (some R) inner b) ∧ st'.scopes = st.scopes)) :=
  mapM_reads checkRoutine UsedGrows.checkRoutine
    (fun u _ sc s => ∀ n ps r b, s = .routine n ps r b → ∀ inner R,
      ParamsDeclare sc.enter ps inner → ReturnResolves sc.env r R →
        Stmt.BlockReadsWithin u (some R) inner b)
    (fun hu h n ps r b hs inner R hp hR => (h n ps r b hs inner R hp hR).mono hu)
    (fun s st => ((checkRoutine_quiet s st).and (checkRoutine_reads s st)).mono fun _ _ h =>
      ⟨h.1.1, fun hq hwf => ⟨h.2 hq hwf, ((h.1.2.2 hq).2 hwf).2⟩⟩) ss st

theorem checkMain_reads (s : Stmt) (st : Checker) :
    CSat (checkMain s) st (fun s' st' => Quiet st st' → st.scopes.WellFormed →
      isDeclaration s' = false → s'.ReadsWithin st'.used st.returnTypes.head? st.scopes) := by
  unfold checkMain
  split
  · rename_i hd
    exact fun _ _ (h : isDeclaration s = false) => absurd h (by simp [hd])
  · exact (checkStmt_reads s st).mono fun _ _ h hq hwf _ => h hq hwf

/-- Pass 5 records what the statements it returns that declare nothing read. -/
theorem main_reads (ss : List Stmt) (st : Checker) :
    CSat (ss.mapM checkMain) st (fun ss' st' => Steps st st' ∧ (Quiet st st' →
      st.scopes.WellFormed → (∀ s ∈ ss', isDeclaration s = false →
        s.ReadsWithin st'.used st.returnTypes.head? st.scopes) ∧ st'.scopes = st.scopes)) :=
  mapM_reads checkMain UsedGrows.checkMain
    (fun u ret sc s => isDeclaration s = false → s.ReadsWithin u ret sc)
    (fun hu h hd => (h hd).mono hu)
    (fun s st => ((checkMain_quiet s st).and (checkMain_reads s st)).mono fun _ _ h =>
      ⟨h.1.1, fun hq hwf => ⟨h.2 hq hwf, ((h.1.2.2 hq).2 hwf).2⟩⟩) ss st

/-- A walk that reports nothing records what the program it returns reads where the judgment
types it, from the scopes its first two passes leave to the scopes it ends in. -/
theorem walk_reads (p : Program) :
    CSat (walk p) ⟨Scopes.empty, [], [], [], []⟩ (fun p' st' => st'.diagnostics = [] →
      ProgramReads st'.used (declared p.statements).scopes st'.scopes p'.statements) := by
  refine CSat.imp ?_ (walk_declared_wellFormed p)
  rw [walk_eq]
  simp only [csat_bind, csat_note, csat_get, csat_pure]
  refine (declarations_sat p.statements _ fun _ _ h => absurd h List.not_mem_nil).with_state.mono
    fun _ st₁ h₁ => ?_
  obtain ⟨⟨d₁, -, -⟩, hst₁⟩ := h₁
  have hdecl : declared p.statements = st₁ := hst₁.symm
  rw [hdecl]
  refine ((globals_quiet p.statements st₁).and ((globals_reads p.statements st₁).and
    ((UsedGrows.mapM UsedGrows.checkGlobal _).csat st₁))).mono fun ss₃ st₂ h₂ => ?_
  obtain ⟨⟨r₂, k₃, j₃⟩, b₃, -⟩ := h₂
  refine ((routines_quiet ss₃ _).and ((routines_reads ss₃ _).and
    ((UsedGrows.mapM UsedGrows.checkRoutine _).csat _))).mono fun ss₄ st₃ h₃ => ?_
  obtain ⟨⟨r₃, k₄, -⟩, ⟨-, b₄⟩, g₄⟩ := h₃
  refine ((main_quiet ss₄ _).and ((main_reads ss₄ _).and
    ((UsedGrows.mapM UsedGrows.checkMain _).csat _))).mono fun ss₅ st₄ h₄ wf hq => ?_
  obtain ⟨⟨r₄, k₅, -⟩, ⟨-, b₅⟩, g₅⟩ := h₄
  have wf₁ : st₁.scopes.WellFormed := wf hq
  -- no pass reported anything
  have e₃ : st₃.diagnostics = [] := r₄.nil_left hq
  have e₂ : st₂.diagnostics = [] := r₃.nil_left e₃
  have e₁ : st₁.diagnostics = [] := r₂.nil_left e₂
  have hnil : st₁.returnTypes.head? = none := by rw [d₁.returnTypes]; rfl
  have hnil₂ : st₂.returnTypes.head? = none := by rw [r₂.returnTypes, hnil]
  have hnil₃ : st₃.returnTypes.head? = none := by rw [r₃.returnTypes, hnil₂]
  obtain ⟨-, wf₂⟩ := j₃ (e₂.trans e₁.symm) wf₁
  obtain ⟨routines, hsc₃⟩ := b₄ (e₃.trans e₂.symm) wf₂
  obtain ⟨main, hsc₄⟩ := b₅ (hq.trans e₃.symm) (by rw [hsc₃]; exact wf₂)
  rw [hsc₄, hsc₃]
  refine ⟨?_, fun n ps r b hmem => ?_, fun s hs hd => ?_⟩
  · rw [last_passes_keep_globals k₄ k₅, ← hnil]
    exact (b₃ (e₂.trans e₁.symm) wf₁).mono (List.Subset.trans g₄ g₅)
  · exact fun inner R hp hR =>
      (routines _ (main_keeps_routine k₅ hmem) n ps r b rfl inner R hp hR).mono g₅
  · have hm := main s hs hd
    rw [hnil₃, hsc₃] at hm
    exact hm

end Walk

end Check

end ImpStack
