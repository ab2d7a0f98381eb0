import ImpStack.Proofs.ExprStack
import ImpStack.Proofs.ModuleLowering

/-! # Statements leave the operand stack as they find it

  Every statement is lowered between two empty operand stacks: its expressions push their
  values and the instruction that consumes them takes them off again. Lowered from a state
  aligned with the checker's scopes, the code a checked statement appends is a fragment from
  no slots to none (`StmtStacks`), whose labels sit at the depth control arrives with: the
  head and the exit of a loop at zero, the else branch and the end of an `if` at zero too.
  A block is the fragments of its statements one after the other (`BlockStacks`); a statement
  after a return is never reached by falling through, which the fragments allow.

  The widths come from the checker: the value a statement stores, returns or passes is
  converted between compatible types, which keeps or widens it as the store expects, and the
  conditions and bounds it tests are booleans and integers, one slot each. The alignment the
  nested blocks start from comes from `StmtChecks.lowers`.

  A routine's code is its parameters' declarations, which emit nothing, its body, and a final
  return; the initializer's is the first values of the globals, the top-level statements and
  a return. Both are fragments from no slots, so every path through them keeps the operand
  stack within the bound their linear scan computes (`Lower.module_stacks`).
-/

namespace ImpStack

open Lower

/-- Lowering `s` from a state aligned with the checker's scopes appends a fragment that takes
the operand stack from no slots back to none. -/
def StmtStacks (cx : LowerCtx) (ret : Option Ty) (sc : Scopes) (s : Stmt) : Prop :=
  ∀ st, Aligned cx sc st.em → (∀ R, ret = some R → st.em.returnType = R) →
    Sat (stmt cx s) st (fun _ st' => DepthStep 0 0 st st') (fun _ => True)

/-- Lowering the statements of a block in order, as `StmtStacks` says of one. -/
def BlockStacks (cx : LowerCtx) (ret : Option Ty) (sc : Scopes) (ss : List Stmt) : Prop :=
  ∀ st, Aligned cx sc st.em → (∀ R, ret = some R → st.em.returnType = R) →
    Sat (stmts cx ss) st (fun _ st' => DepthStep 0 0 st st') (fun _ => True)

section Statements

variable {cx : LowerCtx} {ret : Option Ty} {sc : Scopes} {st : LowerState}

theorem StmtStacks.print {e : Expr} {o : Option Ty} (value : Infers sc e o)
    (printable : ∀ T, o = some T → ∃ p, T = .prim p ∧ p ≠ .void) :
    StmtStacks cx ret sc (.print e) := by
  intro st ha _
  simp only [stmt, sat_bind]
  refine value.pushes.run value.lowers ha 0 fun T st₁ hT _ d₁ => ?_
  obtain ⟨p, rfl, -⟩ := printable T hT
  obtain ⟨k, hk⟩ : ∃ k, ValueKind.of cx.env (.prim p) = .ok k :=
    ValueKind.of_resolved_ok (Ty.resolved_prim p)
  simp only [kind, sat_orFail_ok hk, sat_emit]
  exact d₁.trans ((DepthStep.plain (i := .print k) rfl rfl rfl 0 st₁).cast
    (by simp [Instr.stackEffect, ValueKind.width_of (Ty.resolved_prim p) hk]) rfl)

theorem StmtStacks.retNone : StmtStacks cx ret sc (.ret none) :=
  fun st _ _ => DepthStep.ret .void 0 st

/-- A return converts its value to the routine's return type and takes it off. -/
theorem StmtStacks.retValue {e : Expr} {R : Ty} (routine : ret = some R) (resolved : R.Resolved)
    (value : StoresInto sc R e) : StmtStacks cx ret sc (.ret (some e)) := by
  obtain ⟨o, he, compatible⟩ := value
  intro st ha hret
  simp only [stmt, sat_bind, sat_emitter, hret R routine]
  refine he.pushes.run he.lowers ha 0 fun A st₁ hA _ d₁ => ?_
  refine coerce_run R A resolved (he.resolved ha.resolved hA) (compatible A hA) 0
    fun st₂ _ d₂ => ?_
  obtain ⟨k, hk⟩ : ∃ k, ValueKind.of cx.env R = .ok k := ValueKind.of_resolved_ok resolved
  simp only [kind, sat_orFail_ok hk, sat_emit]
  exact d₁.trans (d₂.trans ((DepthStep.ret k 0 st₂).cast
    (by rw [ValueKind.width_of resolved hk]) rfl))

/-- A call statement drops the result of a routine that has one. -/
theorem StmtStacks.call {n : String} {args : List Expr} {sig : RoutineSig}
    (found : sc.routine? n = some sig) (count : sig.params.length = args.length)
    (arguments : ArgsInfer sc sig.params args) : StmtStacks cx ret sc (.call n args) := by
  intro st ha _
  obtain ⟨hps, R, hR⟩ := ha.signatures n sig found
  have hRr := Ty.resolveDeep_resolved hR
  obtain ⟨rk, hrk⟩ : ∃ k, ValueKind.of cx.env R = .ok k := ValueKind.of_resolved_ok hRr
  simp only [stmt, sat_bind]
  refine callee_sat (by rw [ha.routine?, found]) count ?_
  refine (arguments.pushes st ha hps 0).mono (fun ks st₁ d₁ => ?_) fun _ _ => trivial
  simp only [finishCall, resolve, sat_bind, sat_orFail_ok (resolveIn_ok (ha.env ▸ hR)), kind,
    sat_orFail_ok hrk, sat_emit, sat_pure]
  -- the call takes its arguments and leaves its result, which the statement drops
  have d₂ := d₁.trans (DepthStep.plain (i := .call n ks rk) rfl rfl rfl 0 st₁)
  cases hv : R.isVoid
  · simp only [Bool.not_false, ↓reduceIte, sat_bind, sat_orFail_ok hrk, sat_emit]
    exact d₂.trans (DepthStep.plain (i := .pop rk) rfl rfl rfl 0 _)
  · have hw : rk.width = 0 := by rw [ValueKind.width_of hRr hrk, (Ty.isVoid_iff R).mp hv]; rfl
    simp only [Bool.not_true, Bool.false_eq_true, ↓reduceIte, sat_pure]
    exact d₂.cast rfl (by simp [Instr.stackEffect, hw])

theorem StmtStacks.assignVar {n : String} {T : Ty} {v : Expr} (found : sc.typeOf? n = some T)
    (value : StoresInto sc T v) : StmtStacks cx ret sc (.assign (.var n) v) := by
  obtain ⟨o, hv, compatible⟩ := value
  intro st ha _
  obtain ⟨p, hp, hty, hk⟩ := ha.place found
  simp only [stmt, assignment, sat_bind, sat_emitter, sat_orFail_ok hp]
  refine hv.pushes.run hv.lowers ha 0 fun A st₁ hA _ d₁ => ?_
  rw [hty]
  refine coerce_run T A (ha.resolved n T found) (hv.resolved ha.resolved hA) (compatible A hA) 0
    fun st₂ _ d₂ => ?_
  refine (storePlace_stacks p 0 st₂).mono (fun _ st₃ d₃ => ?_) fun _ _ => trivial
  exact d₁.trans (d₂.trans (d₃.cast (by rw [Aligned.place_width ha found hk]) rfl))

/-- An element store: the array and the index go below the value, and the store takes all
three. -/
theorem StmtStacks.assignElement {a : String} {i v : Expr} {el : Ty} {size : Int}
    {oi : Option Ty} (found : sc.typeOf? a = some (.array el size)) (index : Infers sc i oi)
    (integer : ∀ T, oi = some T → T = .integer)
    (value : ∀ T, oi.map (fun _ => el) = some T → StoresInto sc T v) :
    StmtStacks cx ret sc (.assign (.element a i) v) := by
  intro st ha _
  obtain ⟨p, hp, hty, hk⟩ := ha.place found
  have hel := element_resolved ha.resolved found
  have he : elementType p = .ok el := by simp [elementType, hty]
  have wp : p.kind.width = 1 := Aligned.place_width ha found hk
  simp only [stmt, assignment, sat_bind, sat_emitter, sat_orFail_ok hp, sat_orFail_ok he]
  refine loadPlace_run p 0 fun st₁ k₁ d₁ => ?_
  refine index.pushes.run index.lowers (ha.keeps k₁) (0 + p.kind.width) fun I st₂ hI k₂ d₂ => ?_
  obtain ⟨o, hv, compatible⟩ := value el (by simp [hI])
  obtain rfl := integer I hI
  refine hv.pushes.run hv.lowers (ha.keeps (k₁.trans k₂)) 2 fun A st₃ hA _ d₃ => ?_
  refine coerce_run el A hel (hv.resolved ha.resolved hA) (compatible A hA) 2 fun st₄ _ d₄ => ?_
  obtain ⟨k, hek⟩ : ∃ k, ValueKind.of cx.env el = .ok k := ValueKind.of_resolved_ok hel
  simp only [kind, sat_orFail_ok hek, sat_emit]
  exact d₁.trans (d₂.trans ((d₃.trans (d₄.trans ((DepthStep.plain (i := .arrayStore k) rfl rfl
    rfl 0 st₄).cast (by simp [Instr.stackEffect, ValueKind.width_of hel hek]) rfl))).cast
    (by simp [wp]) rfl))

/-- A field store: the record goes below the value, and the store takes both. -/
theorem StmtStacks.assignField {r f : String} {R F : Ty} {name : String}
    {fields : List (String × Ty)} {v : Expr} (found : sc.typeOf? r = some R)
    (record : R.resolveDeep sc.env = .ok (.record name fields))
    (member : fields.lookup f = some F)
    (value : ∀ T, (F.resolveDeep sc.env).toOption = some T → StoresInto sc T v) :
    StmtStacks cx ret sc (.assign (.field r f) v) := by
  intro st ha _
  obtain ⟨p, hp, hty, hk⟩ := ha.place found
  have wp : p.kind.width = R.slots := Aligned.place_width ha found hk
  rw [record_of_resolveDeep ha.resolved found record] at hty wp
  simp only [stmt, assignment, sat_bind, sat_emitter, sat_orFail_ok hp]
  cases hF : F.resolveDeep sc.env with
  | error err =>
    have hft : fieldType cx p f = .error (err.orUnresolved F.display) := by
      simp [fieldType, hty, Ty.recordName?, Ty.field?, member, resolveIn, ha.env, hF, bind,
        Except.bind, pure, Except.pure]
    simp only [hft, sat_orFail]
  | ok FR =>
    have hft : fieldType cx p f = .ok (name, FR) := by
      simp [fieldType, hty, Ty.recordName?, Ty.field?, member, resolveIn, ha.env, hF, bind,
        Except.bind, pure, Except.pure]
    have hFR := Ty.resolveDeep_resolved hF
    obtain ⟨k, hfk⟩ : ∃ k, ValueKind.of cx.env FR = .ok k := ValueKind.of_resolved_ok hFR
    obtain ⟨o, hv, compatible⟩ := value FR (by simp [Except.toOption, hF])
    simp only [sat_orFail_ok hft]
    refine loadPlace_run p 0 fun st₁ k₁ d₁ => ?_
    refine hv.pushes.run hv.lowers (ha.keeps k₁) 1 fun A st₂ hA _ d₂ => ?_
    refine coerce_run FR A hFR (hv.resolved ha.resolved hA) (compatible A hA) 1
      fun st₃ _ d₃ => ?_
    simp only [kind, sat_orFail_ok hfk, sat_emit]
    exact (d₁.cast rfl (by simp [wp])).trans (d₂.trans (d₃.trans ((DepthStep.plain
      (i := .putField name f k) rfl rfl rfl 0 st₃).cast
      (by simp [Instr.stackEffect, ValueKind.width_of hFR hfk]) rfl)))

/-- The first value of a declared variable: its initializer converted to the declared type, or a
fresh value, one value of the type either way, with the frames kept. -/
theorem Lower.initialValue_stacks {T : Ty} {init : Option Expr} (hT : T.Resolved)
    (initial : ∀ i, init = some i → StoresInto sc T i) (ha : Aligned cx sc st.em) :
    Sat (initialValue cx T init) st
      (fun _ st' => ImpStack.Keeps st st' ∧ DepthStep 0 T.slots st st') (fun _ => True) := by
  cases init with
  | some e =>
    obtain ⟨o, he, compatible⟩ := initial e rfl
    simp only [initialValue, sat_bind]
    refine he.pushes.run he.lowers ha 0 fun A st₁ hA k₁ d₁ => ?_
    refine coerce_run T A hT (he.resolved ha.resolved hA) (compatible A hA) 0 fun st₂ k₂ d₂ => ?_
    exact ⟨k₁.trans k₂, d₁.trans (d₂.cast rfl (Nat.zero_add _))⟩
  | none =>
    exact ((((newValue_stacks cx hT 0).congr rfl (Nat.zero_add _)) st).and_lsat
      (freshValue_keeping cx _ T st)).mono (fun _ _ h => ⟨h.2, h.1⟩) fun _ h => h

/-- Declaring the local a declaration lowers to emits nothing; storing its first value takes the
value off. -/
theorem Lower.declareStore_stacks {n : String} {T : Ty} {k : ValueKind} (hT : T.Resolved)
    (hk : ValueKind.of cx.env T = .ok k) :
    Sat (declareLocal cx.alignWide n T k) st
      (fun slot st' => Sat (emit (.store slot k)) st' (fun _ st'' => DepthStep T.slots 0 st st'')
        (fun _ => True)) (fun _ => True) := by
  simp only [declareLocal, sat_bind, sat_allocate, sat_bindLocal, sat_pure, sat_emit]
  exact ((DepthStep.plain (i := .store _ k) rfl rfl rfl 0 st).cast
    (by simp [Instr.stackEffect, ValueKind.width_of hT hk]) rfl).congr_end rfl rfl

theorem StmtStacks.declare {n : String} {t T : Ty} {init : Option Expr}
    (resolved : t.resolveDeep sc.env = .ok T) (initial : ∀ i, init = some i → StoresInto sc T i) :
    StmtStacks cx ret sc (.varDecl n (some t) init) := by
  intro st ha _
  have hT := Ty.resolveDeep_resolved resolved
  obtain ⟨k, hk⟩ : ∃ k, ValueKind.of cx.env T = .ok k := ValueKind.of_resolved_ok hT
  have hty : declaredTypeIn cx.env n (some t) = .ok T := resolveIn_ok (ha.env ▸ resolved)
  simp only [stmt, sat_bind, sat_orFail_ok hty, kind, sat_orFail_ok hk]
  refine (initialValue_stacks hT initial ha).mono (fun _ st₁ h₁ => ?_) fun _ _ => trivial
  exact (declareStore_stacks hT hk).mono (fun _ _ h => h.mono (fun _ _ d₂ => h₁.2.trans d₂)
    fun _ _ => trivial) fun _ _ => trivial

/-- A declaration without a type is refused by lowering. -/
theorem StmtStacks.declareUntyped {n : String} {i : Expr} :
    StmtStacks cx ret sc (.varDecl n none (some i)) := by
  intro st _ _
  simp only [stmt, sat_bind, declaredTypeIn, sat_orFail]

theorem StmtStacks.array {n : String} {el E : Ty} {size : Int}
    (resolved : el.resolveDeep sc.env = .ok E) : StmtStacks cx ret sc (.arrayDecl n el size) := by
  intro st ha _
  have hA : (Ty.array E size).Resolved := Ty.resolveDeep_resolved (Ty.resolveDeep_array_ok resolved)
  obtain ⟨k, hk⟩ : ∃ k, ValueKind.of cx.env (.array E size) = .ok k := ValueKind.of_resolved_ok hA
  have hty : resolveIn cx.env (.array el size) = .ok (.array E size) :=
    resolveIn_ok (ha.env ▸ Ty.resolveDeep_array_ok resolved)
  simp only [stmt, sat_bind, resolve, sat_orFail_ok hty, kind, sat_orFail_ok hk]
  refine (newValue_stacks cx hA 0 st).mono (fun _ st₁ d₁ => ?_) fun _ _ => trivial
  exact (declareStore_stacks hA hk).mono (fun _ _ h => h.mono (fun _ _ d₂ => d₁.trans d₂)
    fun _ _ => trivial) fun _ _ => trivial

/-- A block lowered in a scope of its own, from a state aligned with the scopes around it: the
frames are back when the scope is left, and the block's fragment is the step. -/
theorem BlockStacks.scoped {ss : List Stmt} {sc₁ : Scopes} (lowers : BlockLowers cx ret sc.enter ss sc₁)
    (balanced : BlockStacks cx ret sc.enter ss) (ha : Aligned cx sc st.em)
    (hret : ∀ R, ret = some R → st.em.returnType = R) {Q : Unit → LowerState → Prop}
    (hQ : ∀ st', Keeps st st' → DepthStep 0 0 st st' → Q () st') :
    Sat enterScope st (fun _ st₁ => Sat (stmts cx ss) st₁
      (fun _ st₂ => Sat exitScope st₂ Q (fun _ => True)) (fun _ => True)) (fun _ => True) := by
  rw [sat_enterScope]
  let st₁ : LowerState := { st with em := { st.em with frames := [] :: st.em.frames } }
  refine ((lowers st₁ ha.enter hret).and (balanced st₁ ha.enter hret)).mono (fun _ st₂ h₂ => ?_)
    fun _ _ => trivial
  rw [sat_exitScope]
  obtain ⟨⟨ha₂, h₂⟩, d₂⟩ := h₂
  -- opening and closing the scope touch neither the labels nor the code
  have d₁ : DepthStep 0 0 st st₁ := .quiet 0 (Nat.le_refl _) rfl
  have d₃ : DepthStep 0 0 st₂ { st₂ with em := { st₂.em with
      frames := if st₂.em.frames.length > 1 then st₂.em.frames.drop 1 else st₂.em.frames } } :=
    .quiet 0 (Nat.le_refl _) rfl
  exact hQ _ ⟨exitScope_frames ha₂.nonempty h₂.outer ha.nonempty, h₂.returnType⟩
    (d₁.trans (d₂.trans d₃))

theorem StmtStacks.whileDo {c : Expr} {b : List Stmt} {oc : Option Ty} {sc₁ : Scopes}
    (cond : Infers sc c oc) (boolean : ∀ T, oc = some T → T = .boolean)
    (lowers : BlockLowers cx ret sc.enter b sc₁) (balanced : BlockStacks cx ret sc.enter b) :
    StmtStacks cx ret sc (.whileDo c b) := by
  intro st ha hret
  simp only [stmt, sat_bind, sat_newLabel, sat_emit]
  refine cond.pushes.run cond.lowers ?_ 0 fun C st₁ hC k₁ d₁ => ?_
  · exact ha.keeps ⟨rfl, rfl⟩
  obtain rfl := boolean C hC
  refine balanced.scoped lowers ?_ ?_ fun st₂ _ d₂ => ?_
  · exact ha.keeps k₁
  · exact fun R hR => k₁.2.trans (hret R hR)
  -- the head label and the exit both sit at depth zero
  exact DepthStep.whileLoop d₁ d₂ ⟨rfl, by simp⟩ ⟨rfl, by simp⟩ ⟨rfl, by simp⟩

/-- An instruction emitted only when `c` holds, before the rest `k` of a `do` block: the frames
stay, and the code gains the instruction or nothing. -/
theorem sat_emitWhen_keeps_bind {β : Type} {c : Bool} {i : Instr} {k : LowerM β}
    {Q : β → LowerState → Prop} {E : Error → Prop}
    (h : ∀ st', Keeps st st' → st'.labels = st.labels →
      st'.em.code.toList = st.em.code.toList ++ (if c then [i] else []) → Sat k st' Q E) :
    Sat (if c = true then emit i >>= fun _ => k else k) st Q E := by
  cases c
  · exact h st (Keeps.refl st) rfl (by simp)
  · exact h _ ⟨rfl, rfl⟩ rfl (by simp)

theorem StmtStacks.ifThen {c : Expr} {t e : List Stmt} {oc : Option Ty} {sc₁ sc₂ : Scopes}
    (cond : Infers sc c oc) (boolean : ∀ T, oc = some T → T = .boolean)
    (thenLowers : BlockLowers cx ret sc.enter t sc₁) (thenBalanced : BlockStacks cx ret sc.enter t)
    (elseLowers : BlockLowers cx ret sc.enter e sc₂) (elseBalanced : BlockStacks cx ret sc.enter e) :
    StmtStacks cx ret sc (.ifThen c t e) := by
  intro st ha hret
  simp only [stmt, sat_bind, sat_newLabel]
  refine cond.pushes.run cond.lowers ?_ 0 fun C st₁ hC k₁ d₁ => ?_
  · exact ha.keeps ⟨rfl, rfl⟩
  obtain rfl := boolean C hC
  simp only [sat_emit]
  refine thenBalanced.scoped thenLowers ?_ ?_ fun st₂ k₂ d₂ => ?_
  · exact ha.keeps k₁
  · exact fun R hR => k₁.2.trans (hret R hR)
  refine sat_emitWhen_keeps_bind fun st₃ k₃ l₃ c₃ => ?_
  simp only [sat_bind, sat_emit]
  have k : Keeps st st₃ := k₁.trans (k₂.trans k₃)
  refine elseBalanced.scoped elseLowers ?_ ?_ fun st₄ k₄ d₄ => ?_
  · exact ha.keeps k
  · exact fun R hR => k.2.trans (hret R hR)
  refine sat_emitWhen fun st₅ l₅ c₅ => ?_
  exact DepthStep.branchIf _ _ d₁ d₂ d₄ ⟨rfl, rfl⟩ ⟨rfl, by simp⟩ ⟨l₃, by simp [c₃]⟩ ⟨l₅, c₅⟩

/-- Opening a loop's scope and declaring its counter there touch neither the labels nor the
code: a step that keeps any depth. -/
theorem Lower.enterCounter_stacks (ha : Aligned cx sc st.em) (v : String) (p : Nat)
    {Q : Nat → LowerState → Prop} {E : Error → Prop}
    (hQ : ∀ slot st', Aligned cx (sc.enter.declare v .integer) st'.em →
      st'.em.returnType = st.em.returnType → DepthStep p p st st' → Q slot st') :
    Sat enterScope st (fun _ st₁ => Sat (declareLocal cx.alignWide v .integer .int) st₁ Q E) E := by
  simp only [sat_enterScope, declareLocal, sat_bind, sat_allocate, sat_bindLocal, sat_pure]
  exact hQ _ _ ((ha.enter.declare (l := ⟨_, .integer, .int⟩) (by simp) trivial (by simp)).of_frames
    rfl) rfl (.quiet p (Nat.le_refl _) rfl)

theorem StmtStacks.forRange {v : String} {s e : Expr} {r : Bool} {b : List Stmt}
    {os oe : Option Ty} {sc₁ : Scopes} (start : Infers sc s os)
    (startInteger : ∀ T, os = some T → T = .integer)
    (stop : Infers (sc.enter.declare v .integer) e oe)
    (stopInteger : ∀ T, oe = some T → T = .integer)
    (lowers : BlockLowers cx ret (sc.enter.declare v .integer) b sc₁)
    (balanced : BlockStacks cx ret (sc.enter.declare v .integer) b) :
    StmtStacks cx ret sc (.forRange v s e r b) := by
  intro st ha hret
  simp only [stmt, sat_bind]
  refine start.pushes.run start.lowers ha 0 fun S st₁ hS k₁ d₁ => ?_
  obtain rfl := startInteger S hS
  refine enterCounter_stacks (ha.keeps k₁) v 1 fun slot st₂ ha₂ r₂ d₂ => ?_
  simp only [sat_emit, sat_newLabel, sat_exitScope]
  -- the start value goes into the counter before the loop's head
  have d₃ : DepthStep 0 0 st
      { st₂ with em := { st₂.em with code := st₂.em.code.push (.store slot .int) } } :=
    d₁.trans (d₂.trans (DepthStep.plain (i := .store slot .int) rfl rfl rfl 0 st₂))
  refine stop.pushes.run stop.lowers ?_ 1 fun T st₄ hT k₄ d₄ => ?_
  · exact ha₂.keeps ⟨rfl, rfl⟩
  obtain rfl := stopInteger T hT
  refine ((lowers _ ?_ ?_).and (balanced _ ?_ ?_)).mono (fun _ st₅ h₅ => ?_) fun _ _ => trivial
  · exact ha₂.keeps k₄
  · exact fun R hR => k₄.2.trans (r₂.trans (k₁.2.trans (hret R hR)))
  · exact ha₂.keeps k₄
  · exact fun R hR => k₄.2.trans (r₂.trans (k₁.2.trans (hret R hR)))
  exact d₃.trans (DepthStep.countingLoop d₄ h₅.2 ⟨rfl, by simp⟩ ⟨rfl, rfl⟩ ⟨rfl, rfl⟩)

theorem StmtStacks.assign {t : Target} {v : Expr} {ot : Option Ty}
    (target : TargetInfers sc t ot) (value : ∀ T, ot = some T → StoresInto sc T v) :
    StmtStacks cx ret sc (.assign t v) := by
  cases target with
  | var found => exact .assignVar found (value _ rfl)
  | element found index integer => exact .assignElement found index integer value
  | field found record member => exact .assignField found record member value

theorem BlockStacks.nil : BlockStacks cx ret sc [] :=
  fun st _ _ => DepthStep.refl 0 st

/-- A block's fragment is its statements' one after the other; the first statement's lowering
leaves the state aligned with the scopes the rest is checked in. -/
theorem BlockStacks.cons {s : Stmt} {ss : List Stmt} {sc₁ : Scopes}
    (lowers : StmtLowers cx ret sc s sc₁) (head : StmtStacks cx ret sc s)
    (tail : BlockStacks cx ret sc₁ ss) : BlockStacks cx ret sc (s :: ss) := by
  intro st ha hret
  simp only [stmts, sat_bind]
  refine ((lowers st ha hret).and (head st ha hret)).mono (fun _ st₁ h₁ => ?_) fun _ _ => trivial
  obtain ⟨⟨ha₁, c₁⟩, d₁⟩ := h₁
  exact (tail st₁ ha₁ fun R hR => c₁.returnType.trans (hret R hR)).mono
    (fun _ _ d₂ => d₁.trans d₂) fun _ _ => trivial

end Statements

/-! ## Checked statements -/

section Checked

variable {cx : LowerCtx} {loops : Bool} {ret : Option Ty}

mutual

/-- Every statement the checker accepts, in a routine, a block or at the top level, is lowered
to a fragment that leaves the operand stack as it found it. -/
theorem StmtChecks.stacks (hR : ∀ R, ret = some R → R.Resolved) :
    ∀ {sc sc' : Scopes} {s : Stmt}, StmtChecks loops ret sc s sc' → StmtStacks cx ret sc s
  | _, _, _, .declare _ _ resolved initial => .declare resolved initial
  | _, _, _, .declareUntyped _ _ => .declareUntyped
  | _, _, _, .array _ _ _ resolved => .array resolved
  | _, _, _, .assign target value => .assign target value
  | _, _, _, .ifThen cond boolean thenBranch elseBranch =>
    .ifThen cond boolean (thenBranch.lowers hR (by simp)) (thenBranch.stacks hR (by simp))
      (elseBranch.lowers hR (by simp)) (elseBranch.stacks hR (by simp))
  | _, _, _, .whileDo cond boolean body =>
    .whileDo cond boolean (body.lowers hR (by simp)) (body.stacks hR (by simp))
  | _, _, _, .forRange start startInteger _ stopInteger _ stopInLoop body =>
    .forRange start startInteger stopInLoop stopInteger
      (body.lowers hR (Scopes.declare_locals_ne_nil _ _ _ (by simp)))
      (body.stacks hR (Scopes.declare_locals_ne_nil _ _ _ (by simp)))
  | _, _, _, .call found count arguments => .call found count arguments
  | _, _, _, .retValue routine _ value => .retValue routine (hR _ routine) value
  | _, _, _, .retNone _ _ => .retNone
  | _, _, _, .print value printable => .print value printable

theorem BlockChecks.stacks (hR : ∀ R, ret = some R → R.Resolved) :
    ∀ {sc sc' : Scopes} {ss : List Stmt}, BlockChecks loops ret sc ss sc' → sc.locals ≠ [] →
      BlockStacks cx ret sc ss
  | _, _, _, .nil, _ => .nil
  | _, _, _, .cons head tail, hl =>
    .cons (head.lowers hR hl) (head.stacks hR) (tail.stacks hR (head.exit_eq hl).2)

end

end Checked

/-! ## Routines, the initializer and the module -/

section Module

variable {cx : LowerCtx} {loops : Bool} {sc sc₀ sc' scj scj₁ : Scopes} {ss : List Stmt}
  {st : LowerState} {em : Emitter}

/-- Storing into a variable keeps the frames and takes its place's kind off the stack. -/
theorem Lower.storePlace_run (p : Place) (k : Nat) {Q : Unit → LowerState → Prop}
    (hQ : ∀ st', ImpStack.Keeps st st' → DepthStep (k + p.kind.width) k st st' → Q () st') :
    Sat (storePlace p) st Q (fun _ => True) :=
  ((storePlace_sat p (E := fun _ => True) (Q := fun _ st' => Emits (p.kind ≠ .void) st st')
    fun _ h => h).and (storePlace_stacks p k st)).mono (fun _ st' h => hQ st' h.1.1 h.2)
    fun _ _ => trivial

/-- Declaring a routine's parameters binds them and emits nothing. -/
theorem Lower.params_stacks (ps : List Param) (kinds : Array ValueKind) (d : Nat) :
    Stacks d d (forIn ps kinds fun p acc => do
      let t ← resolve cx p.ty
      let k ← kind cx t
      declareParam p.name t k
      pure (ForInStep.yield (acc.push k))) := by
  refine Stacks.forIn fun p _ acc => Stacks.bind_resolve cx _ fun t _ =>
    Stacks.bind_kind cx _ fun k _ => Stacks.bind ?_ fun _ => Stacks.pure _ d
  unfold declareParam
  exact Stacks.bind (Stacks.emitter d) fun _ =>
    Stacks.bind (Stacks.update d (fun _ => rfl) fun _ => rfl) fun _ => Stacks.bindLocal _ _ d

/-- A routine the checker accepts in the global scopes `sc` is lowered, from a context aligned
with them, to code that keeps every path's operand stack within the bound of its linear scan:
its parameters emit nothing, its body is a fragment from no slots to none, and the return added
when the body may end without one takes nothing. -/
theorem Lower.routine_stacks {n : String} {ps : List Param} {r : Option Ty} {b : List Stmt}
    (h : RoutineChecks loops sc ps r b) (ha : Aligned cx sc em) (top : sc.locals = [])
    (st : LowerState) :
    Sat (routine cx n ps r b) st (fun rc _ => StackSafe rc.code rc.maxStack) (fun _ => True) := by
  obtain ⟨hps, returns, body, -⟩ := h
  rename_i inner _ R
  have hR : resolveIn cx.env (returnTypeOrVoid r) = .ok R := returns.resolveIn ha.env
  have hRr : R.Resolved := resolveIn_resolved hR
  obtain ⟨rk, hrk⟩ : ∃ k, ValueKind.of cx.env R = .ok k := ValueKind.of_resolved_ok hRr
  unfold routine
  simp only [sat_bind, sat_note, resolve, sat_orFail_ok hR, kind, sat_orFail_ok hrk,
    sat_startRoutine]
  refine ((params_sat (E := fun _ => True) hps (by simp) _ #[] (ha.start top n R)).and
    (params_stacks ps #[] 0 _)).mono
    (fun kinds st₁ h₁ => ?_) fun _ _ => trivial
  obtain ⟨⟨ha₁, r₁, -⟩, d₁⟩ := h₁
  refine ((body.stacks (fun R' hR' => Option.some.inj hR' ▸ hRr) (hps.exit_eq (by simp)).2) st₁
    ha₁ fun R' hR' => r₁.trans (Option.some.inj hR')).mono (fun _ st₂ d₂ => ?_) fun _ _ => trivial
  refine sat_emitWhen_bind fun st₃ l₃ c₃ => ?_
  simp only [finish, sat_bind, sat_emitter, sat_pure]
  exact (d₁.trans (d₂.trans (DepthStep.retWhen _ l₃ c₃))).stackSafe rfl

/-- The first value of a global variable the checker declared on its way to `sc'`: its
initializer, converted, or a fresh value, stored into the global. An initializer the checker
could not type never lowers. -/
theorem Lower.global_stacks {n : String} {t : Option Ty} {i : Option Expr}
    (h : StmtChecks loops none scj (.varDecl n t i) scj₁) (top : scj.locals = [])
    (hw : scj₁.Within sc') (ha : Aligned cx sc' st.em) {Q : Unit → LowerState → Prop}
    (hQ : ∀ st', ImpStack.Keeps st st' → DepthStep 0 0 st st' → Q () st') :
    Sat (orFail (global cx n)) st
      (fun p st₁ => Sat (initialValue cx p.ty i) st₁
        (fun _ st₂ => Sat (storePlace p) st₂ Q (fun _ => True)) (fun _ => True))
      (fun _ => True) := by
  have hw₀ : scj.Within sc' := (h.within top).trans hw
  have haj : Aligned cx scj st.em := hw₀.aligned ha
  cases h with
  | @declare _ _ t T _ _ _ resolved initial =>
    have hT := Ty.resolveDeep_resolved resolved
    obtain ⟨k, hg, hk⟩ := ha.global_declared hw
    have hw' : k.width = T.slots := ValueKind.width_of hT hk
    rw [sat_orFail_ok hg]
    refine (initialValue_stacks hT initial haj).mono (fun _ st₁ h₁ => ?_) fun _ _ => trivial
    exact storePlace_run _ 0 fun st₂ k₂ d₂ =>
      hQ _ (h₁.1.trans k₂) (h₁.2.trans (d₂.cast (by simp [Place.kind, hw']) rfl))
  | declareUntyped _ initial =>
    cases hg : global cx n with
    | error e => simp only [sat_orFail]
    | ok p =>
      simp only [sat_orFail, initialValue, sat_bind]
      exact initial.pushes.run initial.lowers haj 0 fun T _ hT _ _ =>
        (Option.some_ne_none T hT.symm).elim

/-- A global array the checker declared on its way to `sc'`: a fresh array stored into the
global. -/
theorem Lower.globalArray_stacks {n : String} {el : Ty} {size : Int}
    (h : StmtChecks loops none scj (.arrayDecl n el size) scj₁) (hw : scj₁.Within sc')
    (ha : Aligned cx sc' st.em) {Q : Unit → LowerState → Prop}
    (hQ : ∀ st', ImpStack.Keeps st st' → DepthStep 0 0 st st' → Q () st') :
    Sat (orFail (global cx n)) st
      (fun p st₁ => Sat (newValue cx p.ty) st₁
        (fun _ st₂ => Sat (storePlace p) st₂ Q (fun _ => True)) (fun _ => True))
      (fun _ => True) := by
  cases h with
  | @array _ _ _ E' _ _ _ _ resolved =>
    have hA : (Ty.array E' size).Resolved :=
      Ty.resolveDeep_resolved (Ty.resolveDeep_array_ok resolved)
    obtain ⟨k, hg, hk⟩ := ha.global_declared hw
    have hw' : k.width = 1 := ValueKind.width_of hA hk
    rw [sat_orFail_ok hg]
    refine ((newValue_stacks cx hA 0 st).and_lsat (freshValue_keeping cx _ _ st)).mono
      (fun _ st₁ h₁ => ?_) fun _ _ => trivial
    exact storePlace_run _ 0 fun st₂ k₂ d₂ =>
      hQ _ (h₁.2.trans k₂) (h₁.1.trans (d₂.cast (by simp [Place.kind, hw']) rfl))

/-- The initializer of a program the checker accepts, lowered from a context aligned with the
scopes `sc'` the checker ends in, keeps every path's operand stack within the bound of its
linear scan: each global's first value is stored as soon as it is pushed, and each top-level
statement is a fragment from no slots to none. -/
theorem Lower.initializer_stacks (acc : Accepts loops sc₀ sc' ss) (top : sc₀.locals = [])
    (ha : Aligned cx sc' em) (st : LowerState) :
    Sat (initializer cx ss) st (fun o _ => ∀ rc ∈ o, StackSafe rc.code rc.maxStack)
      (fun _ => True) := by
  have top' : sc'.locals = [] := (acc.globals.within top).top'
  have hR : ∀ R, (none : Option Ty) = some R → R.Resolved :=
    fun _ h => (Option.some_ne_none _ h.symm).elim
  unfold initializer
  simp only [sat_bind, sat_startRoutine]
  generalize hst₀ : ({ st with em := Emitter.start "initializer" .void } : LowerState) = st₀
  -- aligned with the final scopes throughout, while the checker moves through the globals
  refine (sat_forIn (E := fun _ => True) (fun done _ st₁ => Aligned cx sc' st₁.em ∧
      DepthStep 0 0 st₀ st₁ ∧ ∃ scj : Scopes, scj.locals = [] ∧
        BlockChecks loops none scj ((ss.drop done.length).filter Stmt.declaresGlobal) sc')
      ?_ ?_).mono (fun _ st₁ h₁ => ?_) (fun _ h => h)
  · subst hst₀
    exact ⟨ha.restart top' _ _, .refl 0 _, sc₀, top, by simpa using acc.globals⟩
  · intro done x rest _ st₁ hxs hI
    obtain ⟨ha₁, d₁, scj, topj, hj⟩ := hI
    have hnext : ss.drop (done ++ [x]).length = rest := by rw [hxs]; simp
    have hx : x ∈ ss := by rw [hxs]; simp
    rw [hxs, List.drop_left] at hj
    cases x with
    | varDecl n t i =>
      obtain _ | ⟨head, tail⟩ := hj
      have top₁ := (head.within topj).top'
      dsimp only
      simp only [sat_bind]
      refine global_stacks head topj (tail.within top₁) ha₁ fun st₂ k₂ d₂ => ?_
      exact ⟨(), rfl, ha₁.keeps k₂, d₁.trans d₂, _, top₁, by rw [hnext]; exact tail⟩
    | arrayDecl n el size =>
      obtain _ | ⟨head, tail⟩ := hj
      have top₁ := (head.within topj).top'
      dsimp only
      simp only [sat_bind]
      refine globalArray_stacks head (tail.within top₁) ha₁ fun st₂ k₂ d₂ => ?_
      exact ⟨(), rfl, ha₁.keeps k₂, d₁.trans d₂, _, top₁, by rw [hnext]; exact tail⟩
    | routine | recordType | typeAlias =>
      exact ⟨(), rfl, ha₁, d₁, scj, topj, by rw [hnext]; simpa [Stmt.declaresGlobal] using hj⟩
    | _ =>
      -- a statement that declares nothing is checked in the final scopes
      have hmain := acc.main _ hx rfl
      have hret : ∀ R, (none : Option Ty) = some R → st₁.em.returnType = R :=
        fun _ h => (Option.some_ne_none _ h.symm).elim
      dsimp only
      simp only [sat_bind]
      exact ((hmain.lowers_top rfl st₁ ha₁ hret).and (hmain.stacks hR st₁ ha₁ hret)).mono
        (fun _ st₂ h₂ => ⟨(), rfl, h₂.1.1, d₁.trans h₂.2, scj, topj,
          by rw [hnext]; simpa [Stmt.declaresGlobal] using hj⟩) fun _ _ => trivial
  · obtain ⟨-, d₁, -⟩ := h₁
    simp only [sat_emitter]
    split
    · intro rc hrc
      cases hrc
    · simp only [sat_bind, sat_note, sat_emit, finish, sat_emitter, sat_pure]
      intro rc hrc
      cases hrc
      subst hst₀
      exact ((d₁.trans (DepthStep.ret .void 0 _)).congr_end rfl rfl).stackSafe rfl

/-- Every routine and the initializer of a module lowered from a program the checker accepts
keep every path's operand stack within the bound of their code's linear scan, the bound the
module records for them. -/
theorem Lower.module_stacks (acc : Accepts loops sc₀ sc' ss) (empty : sc₀.globals = [])
    (top : sc₀.locals = []) (hr : Check.RoutinesFrom ss sc') (opts : LowerOptions)
    (st : LowerState) :
    Sat (module sc' opts ⟨ss⟩) st
      (fun m _ => ∀ rc ∈ m.routines ++ m.initializer.toList, StackSafe rc.code rc.maxStack)
      (fun _ => True) := by
  have top' : sc'.locals = [] := (acc.globals.within top).top'
  refine (module_in_context acc empty top hr opts st (R := fun rc => StackSafe rc.code rc.maxStack)
    (I := fun o => ∀ rc ∈ o, StackSafe rc.code rc.maxStack) (fun _ _ => trivial)
    (fun _ ha n ps r b hx s => routine_stacks (acc.routines n ps r b hx) ha top' s)
    (fun _ ha s => initializer_stacks acc top ha s)).mono (fun m _ hm rc hrc => ?_) fun _ h => h
  rcases List.mem_append.mp hrc with hrc | hrc
  · exact hm.1 rc hrc
  · exact hm.2 rc (by simpa using hrc)

/-- A module lowered from a program the checker accepts records, for every routine and the
initializer, a stack bound that no path exceeds. -/
theorem lowerProgram_stacks (acc : Accepts loops sc₀ sc' ss) (empty : sc₀.globals = [])
    (top : sc₀.locals = []) (hr : Check.RoutinesFrom ss sc') {opts : LowerOptions} {m : Module}
    (h : (lowerProgram sc' opts ⟨ss⟩).1 = .ok m) :
    ∀ rc ∈ m.routines ++ m.initializer.toList, StackSafe rc.code rc.maxStack :=
  lsat_of_sat (module_stacks acc empty top hr opts _) m _ (Prod.ext h rfl)

/-- With dead declarations kept, every routine and the initializer of a compiled module keep
every path's operand stack within the bound the module records. -/
theorem compile_stacks_unpruned (opts : CompileOptions) (p : Program) (m : Module)
    (keep : opts.check.removeUnused = false) (h : (compile opts p).1 = .ok m) :
    ∀ rc ∈ m.routines ++ m.initializer.toList, StackSafe rc.code rc.maxStack := by
  unfold compile at h
  dsimp only at h
  split at h
  · rename_i quiet
    obtain ⟨empty, top⟩ := Check.declared_no_variables p.statements
    exact lowerProgram_stacks (analyze_accepts keep p (List.isEmpty_iff.mp quiet)) empty top
      (analyze_routinesFrom opts.check p) h
  · cases h

end Module

end ImpStack
