import ImpStack.Proofs.Alignment
import ImpStack.Proofs.LowerLogic

/-! # Lowering expressions agrees with the checker

  Lowering an expression from a state aligned with the checker's scopes gives the type the
  checker inferred (`Infers.lowers`). It leaves the frames as they were, and the code it
  emits renders when the scopes' variables are storable and the expression's constants fit.
  It fails only on a field read whose field type does not resolve, which the checker never
  reports.

  The steps that only emit code come first: selecting a boolean, applying a conversion, and
  the element loop of an array widening.
-/

namespace ImpStack

-- The proofs below unfold lowering one constructor at a time, many of them at once; its
-- equations are built here, once, before they are all asked for together.
section
attribute [local simp] Lower.expr Lower.arguments
end

mutual

/-- Every integer constant of the expression fits a word and every real constant is finite. -/
def Expr.ConstantsFit : Expr → Prop
  | .int v => FitsWord v
  | .real x => x.isFinite = true
  | .bool _ | .str _ | .var _ | .field _ _ => True
  | .binary l _ r => l.ConstantsFit ∧ r.ConstantsFit
  | .unary _ e | .cast e _ | .index _ e => e.ConstantsFit
  | .call _ args => Expr.allConstantsFit args

/-- The constants of every expression of the list fit. -/
def Expr.allConstantsFit : List Expr → Prop
  | [] => True
  | e :: es => e.ConstantsFit ∧ Expr.allConstantsFit es

end

/-! ## Steps that only emit code -/

/-- A step left the frames and the return type of the routine being lowered as they were. -/
def Keeps (st st' : LowerState) : Prop :=
  st'.em.frames = st.em.frames ∧ st'.em.returnType = st.em.returnType

theorem Keeps.refl (st : LowerState) : Keeps st st := ⟨rfl, rfl⟩

theorem Keeps.trans {st₁ st₂ st₃ : LowerState} (h₁ : Keeps st₁ st₂) (h₂ : Keeps st₂ st₃) :
    Keeps st₁ st₃ := ⟨h₂.1.trans h₁.1, h₂.2.trans h₁.2⟩

/-- A step that only emits code: it keeps the frames, and the code it adds renders when
`ready` holds. -/
def Emits (ready : Prop) (st st' : LowerState) : Prop :=
  Keeps st st' ∧ (ready → CodeRenders st.em.code → CodeRenders st'.em.code)

theorem Emits.trans {ready : Prop} {st₁ st₂ st₃ : LowerState} (h₁ : Emits ready st₁ st₂)
    (h₂ : Emits ready st₂ st₃) : Emits ready st₁ st₃ :=
  ⟨h₁.1.trans h₂.1, fun hr hc => h₂.2 hr (h₁.2 hr hc)⟩

theorem Emits.weaken {ready ready' : Prop} {st st' : LowerState} (h : Emits ready st st')
    (hr : ready' → ready) : Emits ready' st st' :=
  ⟨h.1, fun r => h.2 (hr r)⟩

/-- Alignment only looks at the frames, so a step that keeps them keeps it. -/
theorem Aligned.keeps {cx : LowerCtx} {sc : Scopes} {st st' : LowerState}
    (h : Aligned cx sc st.em) (hk : Keeps st st') : Aligned cx sc st'.em := by
  obtain ⟨henv, hr, hg, hgk, hfr, hlk, hne, hres, hsig⟩ := h
  rw [← hk.1] at hfr hlk hne
  exact ⟨henv, hr, hg, hgk, hfr, hlk, hne, hres, hsig⟩

namespace Lower

variable {st : LowerState} {E : Error → Prop}

theorem boolSelect_sat (c : Condition) {Q : Unit → LowerState → Prop}
    (hQ : ∀ st', Emits True st st' → Q () st') : Sat (boolSelect c) st Q E := by
  simp only [boolSelect, sat_bind, sat_newLabel, sat_emit]
  apply hQ
  refine ⟨⟨rfl, rfl⟩, fun _ hc => ?_⟩
  simp [hc]

theorem applyCoercion_sat (c : Coercion) {Q : Unit → LowerState → Prop}
    (hQ : ∀ st', Emits True st st' → Q () st') : Sat (applyCoercion c) st Q E := by
  cases c with
  | identity | boolToInt => exact hQ st ⟨Keeps.refl st, fun _ h => h⟩
  | intToReal | boolToReal | realToInt =>
    simp only [applyCoercion, sat_emit]
    exact hQ _ ⟨⟨rfl, rfl⟩, fun _ hc => by simp [hc]⟩
  | intToBool => exact boolSelect_sat .ne hQ
  | realToBool =>
    simp only [applyCoercion, sat_bind, sat_emit]
    refine boolSelect_sat .ne fun st' h => hQ st' ?_
    refine Emits.trans ?_ h
    exact ⟨⟨rfl, rfl⟩, fun _ hc => by simp [hc]⟩

/-- A loop over the indices of an array runs its body once in its own state; the loop adds a
push of the size, which renders when the size fits a word. -/
theorem indexLoop_sat (aw : Bool) (size : Int) (body : Nat → LowerM Unit) (ready : Prop)
    {Q : Unit → LowerState → Prop}
    (hbody : ∀ index st₁, Sat (body index) st₁ (fun _ st₂ => Emits ready st₁ st₂) E)
    (hQ : ∀ st', Emits (ready ∧ FitsWord size) st st' → Q () st') :
    Sat (indexLoop aw size body) st Q E := by
  simp only [indexLoop, sat_bind, sat_allocate, sat_newLabel, sat_emit]
  refine (hbody _ _).mono (fun _ st₂ h₂ => hQ _ ⟨⟨?_, ?_⟩, fun hr hc => ?_⟩) (fun _ h => h)
  · simpa using h₂.1.1
  · simpa using h₂.1.2
  · have hc₂ := h₂.2 hr.1 (by simp [hc, hr.2])
    simp [hc₂]

end Lower

theorem Ty.needsWidening_nonVoid {E A : Ty} (h : Ty.needsWidening E A = true) :
    E ≠ .void ∧ A ≠ .void := by
  unfold Ty.needsWidening at h
  split at h
  · exact ⟨by simp [Ty.void], by simp [Ty.void]⟩
  · simp only [Ty.implicitCoercion, bne_iff_ne, ne_eq] at h
    split at h
    · rename_i hc
      simp only [Bool.and_eq_true, Ty.isReal_iff, Ty.isInteger_iff] at hc
      rw [hc.1, hc.2]; exact ⟨by simp [Ty.real, Ty.void], by simp [Ty.integer, Ty.void]⟩
    · exact absurd rfl h

namespace Lower

variable {E' : Error → Prop}

/-- Converting a value never fails and keeps the frames; the copy loop of an array widening
renders when the sizes of the wanted type fit. -/
theorem coerce_sat (cx : LowerCtx) : ∀ (E A : Ty), E.Resolved → A.Resolved →
    ∀ {st : LowerState} {Q : Unit → LowerState → Prop},
      (∀ st', Emits E.SizesFit st st' → Q () st') → Sat (coerce cx E A) st Q E'
  | .array dst size, .array src n, hE, hA, st, Q, hQ => by
    simp only [coerce]
    split
    · rename_i hw
      obtain ⟨dv, sv⟩ := Ty.needsWidening_nonVoid hw
      have hsrc : src.Resolved := hA
      have hdst : dst.Resolved := hE
      obtain ⟨sk, hsk⟩ : ∃ k, ValueKind.of cx.env (.array src size) = .ok k :=
        ValueKind.of_resolved_ok hsrc
      obtain ⟨k₁, hk₁⟩ : ∃ k, ValueKind.of cx.env src = .ok k := ValueKind.of_resolved_ok hsrc
      obtain ⟨k₂, hk₂⟩ : ∃ k, ValueKind.of cx.env dst = .ok k := ValueKind.of_resolved_ok hdst
      have hsk' : sk ≠ .void :=
        ValueKind.ne_void_of ((Ty.resolved_array src size).2 hsrc) (by simp [Ty.void]) hsk
      have hk₂' : k₂ ≠ .void := ValueKind.ne_void_of hdst dv hk₂
      simp only [kind, sat_bind, hsk, hk₁, hk₂, sat_orFail, sat_note, sat_allocate, sat_emit]
      refine indexLoop_sat _ _ _ dst.SizesFit (fun index st₁ => ?_) (fun st' h => hQ st' ?_)
      · -- one element: load it, convert it, store it in the new array
        simp only [sat_bind, sat_emit]
        refine coerce_sat cx dst src hdst hsrc fun st₂ h₂ => ?_
        refine Emits.trans ?_ (Emits.trans h₂ ?_)
        · exact ⟨⟨rfl, rfl⟩, fun _ hc => by simp [hc, hsk', ValueKind.ne_void_of hsrc sv hk₁]⟩
        · exact ⟨⟨rfl, rfl⟩, fun _ hc => by simp [hc, hk₂']⟩
      · have h' : Emits (Ty.array dst size).SizesFit _ st' := h.weaken And.symm
        refine Emits.trans ?_ h'
        exact ⟨⟨rfl, rfl⟩, fun hr hc => by simp [hc, hr.1, hsk', hk₂']⟩
    · exact hQ st ⟨Keeps.refl st, fun _ h => h⟩
  | .prim _, _, _, _, st, Q, hQ | .record .., _, _, _, st, Q, hQ | .named _, _, _, _, st, Q, hQ
  | .array .., .prim _, _, _, st, Q, hQ | .array .., .record .., _, _, st, Q, hQ
  | .array .., .named _, _, _, st, Q, hQ =>
    applyCoercion_sat _ fun st' h => hQ st' (h.weaken fun _ => trivial)

end Lower

open Lower

/-- Lowering `e` from any state aligned with `sc` gives the type `o` the checker gave, keeps the
frames and emits code that renders when the scopes are renderable and the constants of `e` fit.
It fails only when a visible record has a field type that does not resolve. -/
def Lowers (cx : LowerCtx) (sc : Scopes) (e : Expr) (o : Option Ty) : Prop :=
  ∀ st, Aligned cx sc st.em → Sat (expr cx e) st
    (fun T st' => o = some T ∧ Emits (sc.Renderable ∧ e.ConstantsFit) st st')
    (fun _ => ¬ sc.FieldsResolve)

variable {cx : LowerCtx} {sc : Scopes} {st : LowerState} {E : Error → Prop}

theorem Lower.loadPlace_sat (p : Place) {Q : Unit → LowerState → Prop}
    (hQ : ∀ st', Emits (p.kind ≠ .void) st st' → Q () st') : Sat (loadPlace p) st Q E := by
  cases p with
  | inSlot l =>
    refine hQ _ ⟨⟨rfl, rfl⟩, fun hk hc => ?_⟩
    simp only [Place.kind] at hk
    simp [hc, hk]
  | inGlobal n t k => exact hQ _ ⟨⟨rfl, rfl⟩, fun _ hc => by simp [hc]⟩

/-- Running a lowering of an expression inside a longer step. -/
theorem Lowers.run {e : Expr} {o : Option Ty} (h : Lowers cx sc e o) (ha : Aligned cx sc st.em)
    {Q : Ty → LowerState → Prop}
    (hQ : ∀ T st', o = some T → Emits (sc.Renderable ∧ e.ConstantsFit) st st' → Q T st') :
    Sat (expr cx e) st Q (fun _ => ¬ sc.FieldsResolve) :=
  (h st ha).mono (fun T st' hT => hQ T st' hT.1 hT.2) (fun _ h => h)

/-- A variable of renderable scopes has a kind other than void. -/
theorem Aligned.kind_ne_void {em : Emitter} (ha : Aligned cx sc em) {n : String} {T : Ty} {k : ValueKind}
    (found : sc.typeOf? n = some T) (hk : ValueKind.of cx.env T = .ok k) (hr : sc.Renderable) :
    k ≠ .void :=
  ValueKind.ne_void_of (ha.resolved n T found) (hr.vars n T found).ne_void hk

/-- A binary operation the checker allows on two typed operands has a type. -/
theorem binary_typed {op : BinOp} {ol or : Option Ty} {L R : Ty} (hL : ol = some L)
    (hR : or = some R)
    (suits : ∀ L R, ol = some L → or = some R → (Ty.binaryResult op L R).isSome) :
    ∃ T, Ty.binaryResult op L R = some T ∧
      (ol.bind fun L => or.bind fun R => Ty.binaryResult op L R) = some T := by
  obtain ⟨T, hT⟩ := Option.isSome_iff_exists.mp (suits L R hL hR)
  exact ⟨T, hT, by simp [hL, hR, hT]⟩

/-- Reading off the type of a right operand: lowering reads the type the checker gave, and
fails to read one only when a field type does not resolve. -/
theorem Infers.staticType_sat {r : Expr} {or : Option Ty} (right : Infers sc r or)
    (ha : Aligned cx sc st.em) {Q : Ty → LowerState → Prop}
    (hQ : ∀ R', (∀ R, or = some R → R' = R) → Q R' st) :
    Sat (orFail (Lower.staticType cx st.em r)) st Q (fun _ => ¬ sc.FieldsResolve) := by
  cases hs : Lower.staticType cx st.em r with
  | error err =>
    intro hf
    obtain ⟨R, hR⟩ := right.isSome ha.resolved hf ha.signatures
    rw [right.staticType ha hR] at hs
    cases hs
  | ok R' =>
    refine hQ R' fun R hR => ?_
    rw [right.staticType ha hR] at hs
    exact (Except.ok.inj hs).symm

/-- Once every field type resolves, an operation the checker allows has a type on the
operand types lowering reads. -/
theorem binary_exists {op : BinOp} {r : Expr} {ol or : Option Ty} {L R' : Ty}
    (right : Infers sc r or) (hsc : sc.VarsResolved) (hs : sc.SignaturesResolve)
    (hf : sc.FieldsResolve) (hL : ol = some L) (hR' : ∀ R, or = some R → R' = R)
    (suits : ∀ L R, ol = some L → or = some R → (Ty.binaryResult op L R).isSome) :
    ∃ T, Ty.binaryResult op L R' = some T := by
  obtain ⟨R, hR⟩ := right.isSome hsc hf hs
  rw [hR' R hR]
  exact Option.isSome_iff_exists.mp (suits L R hL hR)

theorem Lower.callee_sat {n : String} {args : List Expr} {sig : RoutineSig}
    (found : cx.routines.lookup n = some sig) (count : sig.params.length = args.length)
    {Q : RoutineSig → LowerState → Prop} (hQ : Q sig st) : Sat (callee cx n args) st Q E := by
  simp [callee, found, count, hQ]

theorem Lower.finishCall_sat {n : String} {sig : RoutineSig} {ks : List ValueKind} {R : Ty}
    (hR : sig.returnType.resolveDeep cx.env = .ok R) {Q : Ty → LowerState → Prop}
    (hQ : ∀ st', Emits True st st' → Q R st') : Sat (finishCall cx n sig ks) st Q E := by
  obtain ⟨k, hk⟩ : ∃ k, ValueKind.of cx.env R = .ok k :=
    ValueKind.of_resolved_ok (Ty.resolveDeep_resolved hR)
  simp only [finishCall, resolve, sat_bind, sat_orFail_ok (resolveIn_ok hR), kind,
    sat_orFail_ok hk, sat_emit, sat_pure]
  exact hQ _ ⟨⟨rfl, rfl⟩, fun _ hc => by simp [hc]⟩

/-- Lowering call arguments, against parameter types that all resolve, converts each to its
parameter's type; it keeps the frames, and its code renders when the scopes are renderable,
the parameter types' sizes fit and the arguments' constants fit. -/
def ArgsLower (cx : LowerCtx) (sc : Scopes) (ps : List Ty) (args : List Expr) : Prop :=
  ∀ st, Aligned cx sc st.em → (∀ p ∈ ps, ∃ P, p.resolveDeep sc.env = .ok P) →
    Sat (arguments cx args ps) st
      (fun _ st' => Emits (sc.Renderable ∧
        (∀ p ∈ ps, ∀ P, p.resolveDeep sc.env = .ok P → P.SizesFit) ∧
          Expr.allConstantsFit args) st st')
      (fun _ => ¬ sc.FieldsResolve)

theorem ArgsLower.nil : ArgsLower cx sc [] [] :=
  fun st _ _ => ⟨Keeps.refl st, fun _ hc => hc⟩

theorem ArgsLower.cons {p : Ty} {a : Expr} {ps : List Ty} {as : List Expr} {o : Option Ty}
    (head : Infers sc a o) (ha : Lowers cx sc a o) (tail : ArgsLower cx sc ps as) :
    ArgsLower cx sc (p :: ps) (a :: as) := by
  intro st hal hps
  obtain ⟨P, hP⟩ := hps p List.mem_cons_self
  have hPr := Ty.resolveDeep_resolved hP
  obtain ⟨k, hk⟩ : ∃ k, ValueKind.of cx.env P = .ok k := ValueKind.of_resolved_ok hPr
  simp only [arguments, resolve, sat_bind, sat_orFail_ok (resolveIn_ok (hal.env ▸ hP))]
  refine ha.run (by exact hal) fun A st₁ hA h₁ => ?_
  refine coerce_sat cx P A hPr (head.resolved hal.resolved hA) fun st₂ h₂ => ?_
  simp only [kind, sat_orFail_ok hk]
  refine (tail st₂ (hal.keeps (h₁.1.trans h₂.1))
    fun q hq => hps q (List.mem_cons_of_mem p hq)).mono (fun ks st₃ h₃ => ?_) (fun _ h => h)
  rw [sat_pure]
  refine Emits.trans (h₁.weaken fun hr => ⟨hr.1, hr.2.2.1⟩) (Emits.trans
    (h₂.weaken fun hr => hr.2.1 p List.mem_cons_self P hP) (h₃.weaken fun hr => ?_))
  exact ⟨hr.1, fun q hq => hr.2.1 q (List.mem_cons_of_mem p hq), hr.2.2.2⟩

namespace Lowers

theorem intLit (v : Int) : Lowers cx sc (.int v) (some .integer) :=
  fun st _ => ⟨rfl, ⟨rfl, rfl⟩, fun hr hc => by simp [hc, show FitsWord v from hr.2]⟩

theorem realLit (x : Float) : Lowers cx sc (.real x) (some .real) :=
  fun st _ => ⟨rfl, ⟨rfl, rfl⟩, fun hr hc => by simp [hc, show x.isFinite = true from hr.2]⟩

theorem boolLit (b : Bool) : Lowers cx sc (.bool b) (some .boolean) :=
  fun st _ => ⟨rfl, ⟨rfl, rfl⟩, fun _ hc => by simp [hc]⟩

theorem strLit (s : String) : Lowers cx sc (.str s) (some .string) :=
  fun st _ => ⟨rfl, ⟨rfl, rfl⟩, fun _ hc => by simp [hc]⟩

theorem var {n : String} {T : Ty} (found : sc.typeOf? n = some T) :
    Lowers cx sc (.var n) (some T) := by
  intro st ha
  obtain ⟨p, hp, hty, hk⟩ := ha.place found
  simp only [expr, sat_bind, sat_emitter, sat_orFail_ok hp]
  refine loadPlace_sat p fun st' h => ?_
  rw [sat_pure]
  exact ⟨by rw [hty], h.weaken fun hr => ha.kind_ne_void found hk hr.1⟩

theorem logical {l r : Expr} {op : BinOp} {ol or : Option Ty} (hop : op = .and ∨ op = .or)
    (hl : Lowers cx sc l ol) (hr : Lowers cx sc r or)
    (suits : ∀ L R, ol = some L → or = some R → (Ty.binaryResult op L R).isSome) :
    Lowers cx sc (.binary l op r) (ol.bind fun L => or.bind fun R => Ty.binaryResult op L R) := by
  intro st ha
  rcases hop with rfl | rfl
  all_goals
    simp only [expr, sat_bind, sat_newLabel]
    refine hl.run (by exact ha) fun L st₁ hL h₁ => ?_
    simp only [sat_emit]
    refine hr.run (by exact ha.keeps h₁.1) fun R st₂ hR h₂ => ?_
    simp only [sat_pure]
    obtain ⟨T, hT, ho⟩ := binary_typed hL hR suits
    refine ⟨?_, Emits.trans ?_ (Emits.trans (h₁.weaken fun hr => ⟨hr.1, hr.2.1⟩)
      (Emits.trans ?_ (Emits.trans (h₂.weaken fun hr => ⟨hr.1, hr.2.2⟩) ?_)))⟩
    · rw [ho, (Ty.binaryResult_logical (by rfl) hT).2.2]
    · exact ⟨⟨rfl, rfl⟩, fun _ hc => hc⟩
    · exact ⟨⟨rfl, rfl⟩, fun _ hc => by simp [hc]⟩
    · exact ⟨⟨rfl, rfl⟩, fun _ hc => by simp [hc]⟩
theorem xorOp {l r : Expr} {ol or : Option Ty} (hl : Lowers cx sc l ol) (hr : Lowers cx sc r or)
    (suits : ∀ L R, ol = some L → or = some R → (Ty.binaryResult .xor L R).isSome) :
    Lowers cx sc (.binary l .xor r) (ol.bind fun L => or.bind fun R => Ty.binaryResult .xor L R) := by
  intro st ha
  simp only [expr, sat_bind]
  refine hl.run (by exact ha) fun L st₁ hL h₁ => ?_
  refine hr.run (by exact ha.keeps h₁.1) fun R st₂ hR h₂ => ?_
  simp only [sat_emit, sat_pure]
  obtain ⟨T, hT, ho⟩ := binary_typed hL hR suits
  refine ⟨?_, Emits.trans (h₁.weaken fun hr => ⟨hr.1, hr.2.1⟩)
    (Emits.trans (h₂.weaken fun hr => ⟨hr.1, hr.2.2⟩) ?_)⟩
  · rw [ho, (Ty.binaryResult_logical (by rfl) hT).2.2]
  · exact ⟨⟨rfl, rfl⟩, fun _ hc => by simp [hc]⟩

theorem notOp {e : Expr} {o : Option Ty} (he : Lowers cx sc e o)
    (suits : ∀ T, o = some T → (Ty.unaryResult .not T).isSome) :
    Lowers cx sc (.unary .not e) (o.bind (Ty.unaryResult .not)) := by
  intro st ha
  simp only [expr, sat_bind]
  refine he.run (by exact ha) fun E st₁ hE h₁ => ?_
  refine boolSelect_sat _ fun st₂ h₂ => ?_
  obtain ⟨T, hT⟩ := Option.isSome_iff_exists.mp (suits E hE)
  rw [sat_pure]
  refine ⟨by rw [hE, Option.bind_some, hT, (Ty.unaryResult_not hT).2], ?_⟩
  exact Emits.trans h₁ (h₂.weaken fun _ => trivial)

theorem negOp {e : Expr} {o : Option Ty} (he : Lowers cx sc e o)
    (suits : ∀ T, o = some T → (Ty.unaryResult .neg T).isSome) :
    Lowers cx sc (.unary .neg e) (o.bind (Ty.unaryResult .neg)) := by
  intro st ha
  simp only [expr, sat_bind]
  refine he.run (by exact ha) fun E st₁ hE h₁ => ?_
  obtain ⟨T, hT⟩ := Option.isSome_iff_exists.mp (suits E hE)
  obtain ⟨hnum, rfl⟩ := Ty.unaryResult_neg hT
  obtain ⟨k, hk, hki⟩ : ∃ k, ValueKind.of cx.env T = .ok k ∧ (k = .int ∨ k = .real) := by
    rcases hnum with rfl | rfl <;> simp
  simp only [kind, sat_orFail_ok hk, sat_emit, sat_pure]
  exact ⟨by rw [hE, Option.bind_some, hT], Emits.trans h₁ ⟨⟨rfl, rfl⟩, fun _ hc => by simp [hc, hki]⟩⟩

theorem compareOp {l r : Expr} {op : BinOp} {ol or : Option Ty} (hop : op.isComparison = true)
    (left : Infers sc l ol) (right : Infers sc r or) (hl : Lowers cx sc l ol)
    (hr : Lowers cx sc r or)
    (suits : ∀ L R, ol = some L → or = some R → (Ty.binaryResult op L R).isSome) :
    Lowers cx sc (.binary l op r) (ol.bind fun L => or.bind fun R => Ty.binaryResult op L R) := by
  intro st ha
  -- the six comparisons lower alike
  cases op <;> simp only [BinOp.isComparison] at hop <;> try contradiction
  all_goals
    simp only [expr, sat_bind, sat_emitter]
    refine right.staticType_sat ha fun R' hR' => ?_
    refine hl.run (by exact ha) fun L st₁ hL h₁ => ?_
    cases hc : Ty.comparisonOperands L R' with
    | none =>
      intro hf
      obtain ⟨T, hT⟩ := binary_exists right ha.resolved ha.signatures hf hL hR' suits
      obtain ⟨-, t, ht⟩ := Ty.binaryResult_comparison (by rfl) hT
      rw [hc] at ht
      cases ht
    | some t =>
      simp only [sat_bind, sat_pure]
      have ht := Ty.comparisonOperands_cases hc
      have htr : t.Resolved := by rcases ht with rfl | rfl | rfl <;> trivial
      refine coerce_sat cx t L htr (left.resolved ha.resolved hL) fun st₂ h₂ => ?_
      refine hr.run (by exact ha.keeps (h₁.1.trans h₂.1)) fun R st₃ hR h₃ => ?_
      have hRR := hR' R hR
      subst hRR
      refine coerce_sat cx t R' htr (right.resolved ha.resolved hR) fun st₄ h₄ => ?_
      obtain ⟨k, hk, hki⟩ : ∃ k, ValueKind.of cx.env t = .ok k ∧
          (k = .int ∨ k = .bool ∨ k = .real) := by
        rcases ht with rfl | rfl | rfl <;> simp
      simp only [sat_newLabel, kind, sat_orFail_ok hk, sat_emit]
      obtain ⟨T, hT, ho⟩ := binary_typed hL hR suits
      have hfit : t.SizesFit := by rcases ht with rfl | rfl | rfl <;> trivial
      refine ⟨by rw [ho, (Ty.binaryResult_comparison (by rfl) hT).1], ?_⟩
      refine Emits.trans (h₁.weaken fun hr => ⟨hr.1, hr.2.1⟩) (Emits.trans
        (h₂.weaken fun _ => hfit) (Emits.trans (h₃.weaken fun hr => ⟨hr.1, hr.2.2⟩)
        (Emits.trans (h₄.weaken fun _ => hfit) ?_)))
      exact ⟨⟨rfl, rfl⟩, fun _ hc => by simp [hc, hki]⟩

theorem arithOp {l r : Expr} {op : BinOp} {ol or : Option Ty} (hop : op.isArithmetic = true)
    (left : Infers sc l ol) (right : Infers sc r or) (hl : Lowers cx sc l ol)
    (hr : Lowers cx sc r or)
    (suits : ∀ L R, ol = some L → or = some R → (Ty.binaryResult op L R).isSome) :
    Lowers cx sc (.binary l op r) (ol.bind fun L => or.bind fun R => Ty.binaryResult op L R) := by
  intro st ha
  -- the five arithmetic operators lower alike
  cases op <;> simp only [BinOp.isArithmetic] at hop <;> try contradiction
  all_goals
    simp only [expr, sat_bind, sat_emitter]
    refine right.staticType_sat ha fun R' hR' => ?_
    refine hl.run (by exact ha) fun L st₁ hL h₁ => ?_
    split
    · rename_i t hc
      simp only [sat_bind, sat_pure]
      have ht := Ty.binaryResult_arithmetic (by rfl) hc
      have htr : t.Resolved := by rcases ht with rfl | rfl <;> trivial
      refine coerce_sat cx t L htr (left.resolved ha.resolved hL) fun st₂ h₂ => ?_
      refine hr.run (by exact ha.keeps (h₁.1.trans h₂.1)) fun R st₃ hR h₃ => ?_
      have hRR := hR' R hR
      subst hRR
      refine coerce_sat cx t R' htr (right.resolved ha.resolved hR) fun st₄ h₄ => ?_
      obtain ⟨k, hk, hki⟩ : ∃ k, ValueKind.of cx.env t = .ok k ∧ (k = .int ∨ k = .real) := by
        rcases ht with rfl | rfl <;> simp
      simp only [kind, sat_orFail_ok hk, sat_emit]
      have hfit : t.SizesFit := by rcases ht with rfl | rfl <;> trivial
      refine ⟨by simp [hL, hR, hc], ?_⟩
      refine Emits.trans (h₁.weaken fun hr => ⟨hr.1, hr.2.1⟩) (Emits.trans
        (h₂.weaken fun _ => hfit) (Emits.trans (h₃.weaken fun hr => ⟨hr.1, hr.2.2⟩)
        (Emits.trans (h₄.weaken fun _ => hfit) ?_)))
      exact ⟨⟨rfl, rfl⟩, fun _ hc => by simp [hc, hki, Lower.arithmetic]⟩
    · rename_i hc
      intro hf
      obtain ⟨T, hT⟩ := binary_exists right ha.resolved ha.signatures hf hL hR' suits
      rw [hc] at hT
      cases hT

theorem index {a : String} {i : Expr} {el : Ty} {size : Int} {oi : Option Ty}
    (found : sc.typeOf? a = some (.array el size)) (hi : Lowers cx sc i oi) :
    Lowers cx sc (.index a i) (oi.bind fun _ => (el.resolveDeep sc.env).toOption) := by
  intro st ha
  obtain ⟨p, hp, hty, hk⟩ := ha.place found
  have hel := element_resolved ha.resolved found
  obtain ⟨k, hek⟩ : ∃ k, ValueKind.of cx.env el = .ok k := ValueKind.of_resolved_ok hel
  have he : elementType p = .ok el := by simp [elementType, hty]
  simp only [expr, sat_bind, sat_emitter, sat_orFail_ok hp, sat_orFail_ok he]
  refine loadPlace_sat p fun st₁ h₁ => ?_
  refine hi.run (by exact ha.keeps h₁.1) fun I st₂ hI h₂ => ?_
  simp only [kind, sat_orFail_ok hek, sat_emit, sat_pure]
  refine ⟨by simp [hI, Ty.resolveDeep_of_resolved hel, Except.toOption], ?_⟩
  refine Emits.trans (h₁.weaken fun hr => ha.kind_ne_void found hk hr.1)
    (Emits.trans (h₂.weaken fun hr => ⟨hr.1, hr.2⟩) ⟨⟨rfl, rfl⟩, fun hr hc => ?_⟩)
  -- the array's elements are storable, so their kind is not void
  cases hr.1.vars a _ found with
  | array element => simp [hc, ValueKind.ne_void_of hel element.ne_void hek]

theorem field {r f : String} {R F : Ty} {name : String} {fields : List (String × Ty)}
    (found : sc.typeOf? r = some R) (record : R.resolveDeep sc.env = .ok (.record name fields))
    (member : fields.lookup f = some F) :
    Lowers cx sc (.field r f) (F.resolveDeep sc.env).toOption := by
  intro st ha
  obtain ⟨p, hp, hty, hk⟩ := ha.place found
  rw [record_of_resolveDeep ha.resolved found record] at hty
  simp only [expr, sat_bind, sat_emitter, sat_orFail_ok hp]
  cases hF : F.resolveDeep sc.env with
  | error err =>
    -- a field type the checker never resolved: lowering fails on it
    have hft : fieldType cx p f = .error (err.orUnresolved F.display) := by
      simp [fieldType, hty, Ty.recordName?, Ty.field?, member, resolveIn, ha.env, hF, bind,
        Except.bind, pure, Except.pure]
    simp only [hft, sat_orFail]
    intro hf
    obtain ⟨FR, hFR⟩ := hf r R name fields found record f F (mem_of_lookup member)
    rw [hF] at hFR
    cases hFR
  | ok FR =>
    have hft : fieldType cx p f = .ok (name, FR) := by
      simp [fieldType, hty, Ty.recordName?, Ty.field?, member, resolveIn, ha.env, hF, bind,
        Except.bind, pure, Except.pure]
    obtain ⟨k, hfk⟩ : ∃ k, ValueKind.of cx.env FR = .ok k :=
      ValueKind.of_resolved_ok (Ty.resolveDeep_resolved hF)
    simp only [sat_orFail_ok hft]
    refine loadPlace_sat p fun st₁ h₁ => ?_
    simp only [kind, sat_orFail_ok hfk, sat_emit, sat_pure]
    refine ⟨rfl, Emits.trans (h₁.weaken fun hr => ha.kind_ne_void found hk hr.1) ?_⟩
    exact ⟨⟨rfl, rfl⟩, fun _ hc => by simp [hc]⟩

theorem cast {e : Expr} {target T : Ty} {os : Option Ty} (he : Lowers cx sc e os)
    (resolved : target.resolveDeep sc.env = .ok T)
    (castable : ∀ S, os = some S → Ty.isValidCast S T = true) :
    Lowers cx sc (.cast e target) (os.map fun _ => T) := by
  intro st ha
  simp only [expr, sat_bind]
  refine he.run (by exact ha) fun S st₁ hS h₁ => ?_
  have hres : resolveIn cx.env target = .ok T := resolveIn_ok (ha.env ▸ resolved)
  obtain ⟨c, hc⟩ := Option.isSome_iff_exists.mp (castable S hS)
  simp only [resolve, sat_orFail_ok hres, hc, sat_bind]
  refine applyCoercion_sat c fun st₂ h₂ => ?_
  rw [sat_pure]
  exact ⟨by simp [hS], Emits.trans (h₁.weaken fun hr => ⟨hr.1, hr.2⟩) (h₂.weaken fun _ => trivial)⟩

theorem call {n : String} {args : List Expr} {sig : RoutineSig}
    (found : sc.routine? n = some sig) (count : sig.params.length = args.length)
    (hargs : ArgsLower cx sc sig.params args)
    (nonVoid : ∀ T, sig.returnType.resolveDeep sc.env = .ok T → T.isVoid = false) :
    Lowers cx sc (.call n args) (sig.returnType.resolveDeep sc.env).toOption := by
  intro st ha
  obtain ⟨hps, R, hR⟩ := ha.signatures n sig found
  simp only [expr, sat_bind]
  refine callee_sat (by rw [ha.routine?, found]) count ?_
  refine (hargs st ha hps).mono (fun ks st₁ h₁ => ?_) (fun _ h => h)
  refine finishCall_sat (ha.env ▸ hR) fun st₂ h₂ => ?_
  simp only [nonVoid R hR, Bool.false_eq_true, ↓reduceIte, sat_pure]
  refine ⟨by simp [hR, Except.toOption], Emits.trans (h₁.weaken fun hr => ?_)
    (h₂.weaken fun _ => trivial)⟩
  exact ⟨hr.1, hr.1.params n sig found, hr.2⟩

theorem binary {l r : Expr} {op : BinOp} {ol or : Option Ty} (left : Infers sc l ol)
    (right : Infers sc r or) (hl : Lowers cx sc l ol) (hr : Lowers cx sc r or)
    (suits : ∀ L R, ol = some L → or = some R → (Ty.binaryResult op L R).isSome) :
    Lowers cx sc (.binary l op r) (ol.bind fun L => or.bind fun R => Ty.binaryResult op L R) := by
  cases op with
  | and => exact Lowers.logical (Or.inl rfl) hl hr suits
  | or => exact Lowers.logical (Or.inr rfl) hl hr suits
  | xor => exact Lowers.xorOp hl hr suits
  | lt | le | gt | ge | eq | ne => exact Lowers.compareOp rfl left right hl hr suits
  | add | sub | mul | div | mod => exact Lowers.arithOp rfl left right hl hr suits

theorem unary {op : UnOp} {e : Expr} {o : Option Ty} (he : Lowers cx sc e o)
    (suits : ∀ T, o = some T → (Ty.unaryResult op T).isSome) :
    Lowers cx sc (.unary op e) (o.bind (Ty.unaryResult op)) := by
  cases op with
  | not => exact Lowers.notOp he suits
  | neg => exact Lowers.negOp he suits

end Lowers

mutual

/-- Lowering agrees with the checker on every expression it checks. -/
theorem Infers.lowers : ∀ {e : Expr} {o : Option Ty}, Infers sc e o → Lowers cx sc e o
  | _, _, .int v => Lowers.intLit v
  | _, _, .real x => Lowers.realLit x
  | _, _, .bool b => Lowers.boolLit b
  | _, _, .str s => Lowers.strLit s
  | _, _, .var found => Lowers.var found
  | _, _, .binary left right suits => Lowers.binary left right left.lowers right.lowers suits
  | _, _, .unary operand suits => Lowers.unary operand.lowers suits
  | _, _, .index found hi _ => Lowers.index found hi.lowers
  | _, _, .field found record member => Lowers.field found record member
  | _, _, .call found count arguments nonVoid => Lowers.call found count arguments.lowers nonVoid
  | _, _, .cast operand _ resolved castable => Lowers.cast operand.lowers resolved castable

theorem ArgsInfer.lowers : ∀ {ps : List Ty} {args : List Expr}, ArgsInfer sc ps args →
    ArgsLower cx sc ps args
  | _, _, .nil => ArgsLower.nil
  | _, _, .cons head _ tail => ArgsLower.cons head head.lowers tail.lowers

end

end ImpStack
