import ImpStack.Compile

/-! # Running lowering steps

  Lowering stops at its first error, and what is proved of it is said of the runs that
  succeed: `LSat m s P` says that when `m`, run from `s`, succeeds, its value and the state it
  leaves satisfy `P`. A step that fails satisfies everything, so the rules for `bind`, `pure`,
  `throw`, the state and loops are those of partial correctness.

  Most steps only append to the code of the routine being lowered. `Extends Q s s'` says that
  `s'` lowers the same routine as `s` and that its code is that of `s` followed by
  instructions of which `Q` holds; `Yields Q m R` says that every successful run of `m` is such
  a step and returns a value of which `R` holds. The primitives of lowering each get their
  `Yields` lemma here, so that the lemmas for the lowering of expressions, statements and
  routines only ever cite them.
-/

namespace ImpStack

namespace Lower

/-- What a successful run of `m` from `s` guarantees of its value and final state. -/
def LSat {α : Type} (m : LowerM α) (s : LowerState) (P : α → LowerState → Prop) : Prop :=
  ∀ a s', m.run.run s = (.ok a, s') → P a s'

section Rules

variable {α β γ : Type} {s : LowerState} {P : β → LowerState → Prop}

theorem run_bind_ok {m : LowerM α} (f : α → LowerM β) {a : α} {s₁ : LowerState}
    (h : m.run.run s = (.ok a, s₁)) : (m >>= f).run.run s = (f a).run.run s₁ := by
  simp only [ExceptT.run_bind, StateT.run_bind, h]
  rfl

theorem run_bind_error {m : LowerM α} (f : α → LowerM β) {e : Error} {s₁ : LowerState}
    (h : m.run.run s = (.error e, s₁)) : (m >>= f).run.run s = (.error e, s₁) := by
  simp only [ExceptT.run_bind, StateT.run_bind, h]
  rfl

theorem LSat.mono {m : LowerM β} {P' : β → LowerState → Prop} (h : LSat m s P)
    (hP : ∀ b s', P b s' → P' b s') : LSat m s P' :=
  fun b s' e => hP b s' (h b s' e)

theorem lsat_pure (b : β) : LSat (pure b) s P ↔ P b s :=
  ⟨fun h => h b s rfl, fun h _ _ e => by cases e; exact h⟩

theorem lsat_bind (m : LowerM α) (f : α → LowerM β) :
    LSat (m >>= f) s P ↔ LSat m s (fun a s' => LSat (f a) s' P) := by
  constructor
  · intro h a s₁ e₁ b s₂ e₂
    exact h b s₂ ((run_bind_ok f e₁).trans e₂)
  · intro h b s₂ e
    rcases e₁ : m.run.run s with ⟨r, s₁⟩
    cases r with
    | error err =>
      rw [run_bind_error f e₁] at e
      cases e
    | ok a =>
      rw [run_bind_ok f e₁] at e
      exact h a s₁ e₁ b s₂ e

theorem lsat_throw (e : Error) : LSat (throw e : LowerM β) s P := fun _ _ h => by cases h

theorem lsat_get {P : LowerState → LowerState → Prop} : LSat get s P ↔ P s s :=
  ⟨fun h => h s s rfl, fun h _ _ e => by cases e; exact h⟩

theorem lsat_modify (f : LowerState → LowerState) {P : Unit → LowerState → Prop} :
    LSat (modify f) s P ↔ P () (f s) :=
  ⟨fun h => h () (f s) rfl, fun h _ _ e => by cases e; exact h⟩

theorem lsat_orFail (x : Except Error β) : LSat (orFail x) s P ↔ ∀ b, x = .ok b → P b s := by
  cases x with
  | error e => exact ⟨fun _ _ h => (by cases h), fun _ => lsat_throw e⟩
  | ok b =>
    rw [show orFail (.ok b) = (pure b : LowerM β) from rfl, lsat_pure]
    exact ⟨fun h _ e => by cases e; exact h, fun h => h b rfl⟩

/-- A loop over a list: an invariant of the elements done, the accumulator and the state,
kept by every step, which always goes on to the next element. -/
theorem lsat_forIn {xs : List γ} {init : β} {f : γ → β → LowerM (ForInStep β)}
    (I : List γ → β → LowerState → Prop) (h₀ : I [] init s)
    (hf : ∀ done x rest b s, xs = done ++ x :: rest → I done b s →
      LSat (f x b) s (fun r s' => ∃ b', r = .yield b' ∧ I (done ++ [x]) b' s')) :
    LSat (forIn xs init f) s (fun b s' => I xs b s') := by
  -- the loop over what is left, once `done` is done
  have loop : ∀ rest done b s, xs = done ++ rest → I done b s →
      LSat (forIn rest b f) s (fun b s' => I xs b s') := by
    intro rest
    induction rest with
    | nil =>
      intro done b s hxs hI
      rw [List.append_nil] at hxs
      subst hxs
      exact (lsat_pure b).mpr hI
    | cons x rest ih =>
      intro done b s hxs hI
      rw [List.forIn_cons, lsat_bind]
      refine (hf done x rest b s hxs hI).mono fun r s' h => ?_
      obtain ⟨b', hr, hI'⟩ := h
      subst hr
      exact ih (done ++ [x]) b' s' (by rw [hxs, List.append_assoc, List.singleton_append]) hI'
  exact loop xs [] init s rfl h₀

end Rules

/-! ## Steps that append to the routine being lowered -/

/-- `s'` lowers the routine `s` lowers, and its code is the code of `s` followed by
instructions of which `Q` holds. -/
structure Extends (Q : Instr → Prop) (s s' : LowerState) : Prop where
  name : s'.em.name = s.em.name
  returnType : s'.em.returnType = s.em.returnType
  code : ∃ new, s'.em.code.toList = s.em.code.toList ++ new ∧ ∀ i ∈ new, Q i

namespace Extends

variable {Q : Instr → Prop} {s₁ s₂ s₃ : LowerState}

theorem refl (s : LowerState) : Extends Q s s := ⟨rfl, rfl, [], by simp, by simp⟩

theorem trans (h₁ : Extends Q s₁ s₂) (h₂ : Extends Q s₂ s₃) : Extends Q s₁ s₃ := by
  obtain ⟨n₁, r₁, new₁, c₁, q₁⟩ := h₁
  obtain ⟨n₂, r₂, new₂, c₂, q₂⟩ := h₂
  refine ⟨n₂.trans n₁, r₂.trans r₁, new₁ ++ new₂, by rw [c₂, c₁, List.append_assoc], ?_⟩
  intro i hi
  rcases List.mem_append.mp hi with hi | hi
  · exact q₁ i hi
  · exact q₂ i hi

/-- A step that leaves the routine's name, return type and code alone. -/
theorem of_em (hn : s₂.em.name = s₁.em.name) (hr : s₂.em.returnType = s₁.em.returnType)
    (hc : s₂.em.code = s₁.em.code) : Extends Q s₁ s₂ :=
  ⟨hn, hr, [], by rw [hc, List.append_nil], by simp⟩

/-- From a routine whose code is still empty, every instruction reached satisfies `Q`. -/
theorem code_of_empty (h : Extends Q s₁ s₂) (he : s₁.em.code = #[]) :
    ∀ i ∈ s₂.em.code.toList, Q i := by
  obtain ⟨_, _, new, hc, hq⟩ := h
  rw [hc, he]
  simpa using hq

end Extends

/-- Every successful run of `m` only appends instructions of which `Q` holds to the routine
being lowered, and returns a value of which `R` holds. -/
def Yields {α : Type} (Q : Instr → Prop) (m : LowerM α) (R : α → Prop) : Prop :=
  ∀ s, LSat m s (fun a s' => Extends Q s s' ∧ R a)

namespace Yields

variable {α β γ : Type} {Q : Instr → Prop} {R : α → Prop} {R' : β → Prop}

theorem mono {m : LowerM α} {R₂ : α → Prop} (h : Yields Q m R) (hR : ∀ a, R a → R₂ a) :
    Yields Q m R₂ :=
  fun s => (h s).mono fun a _ h' => ⟨h'.1, hR a h'.2⟩

theorem bind {m : LowerM α} {f : α → LowerM β} (hm : Yields Q m R)
    (hf : ∀ a, R a → Yields Q (f a) R') : Yields Q (m >>= f) R' := by
  intro s
  rw [lsat_bind]
  exact (hm s).mono fun a s₁ h₁ => (hf a h₁.2 s₁).mono fun _ _ h₂ => ⟨h₁.1.trans h₂.1, h₂.2⟩

theorem pure {a : α} (h : R a) : Yields Q (Pure.pure a) R :=
  fun s => (lsat_pure a).mpr ⟨Extends.refl s, h⟩

theorem pure_true (a : α) : Yields Q (Pure.pure a) (fun _ => True) := pure trivial

theorem throw (e : Error) : Yields Q (MonadExcept.throw e : LowerM α) R :=
  fun _ => lsat_throw e

/-- A step that fails goes nowhere, whatever would follow it. -/
theorem throw_bind (e : Error) (f : α → LowerM β) :
    Yields Q (MonadExcept.throw e >>= f) R' :=
  fun _ => (lsat_bind _ _).mpr (lsat_throw e)

theorem orFail (x : Except Error α) : Yields Q (Lower.orFail x) (fun a => x = .ok a) :=
  fun s => (lsat_orFail x).mpr fun _ h => ⟨Extends.refl s, h⟩

theorem emit {i : Instr} (h : Q i) : Yields Q (Lower.emit i) (fun _ => True) := by
  intro s
  refine (lsat_modify _).mpr ⟨⟨rfl, rfl, [i], ?_, by simpa using h⟩, trivial⟩
  simp

theorem emitter : Yields Q Lower.emitter (fun _ => True) :=
  fun s => (lsat_bind _ _).mpr (lsat_get.mpr ((lsat_pure _).mpr ⟨Extends.refl s, trivial⟩))

/-- A step that changes only the log, the labels or the emitter's slots and scopes. -/
theorem update {f : LowerState → LowerState} (h : ∀ s, Extends Q s (f s)) :
    Yields Q (modify f : LowerM Unit) (fun _ => True) :=
  fun s => (lsat_modify f).mpr ⟨h s, trivial⟩

theorem note (level : Level) (message : String) :
    Yields Q (Lower.note level message) (fun _ => True) :=
  update fun _ => Extends.of_em rfl rfl rfl

theorem newLabel : Yields Q Lower.newLabel (fun _ => True) := by
  unfold Lower.newLabel
  refine bind (fun s => lsat_get.mpr ⟨Extends.refl s, trivial⟩) fun _ _ => ?_
  refine bind (update fun _ => Extends.of_em rfl rfl rfl) fun _ _ => ?_
  exact bind (note _ _) fun _ _ => pure trivial

theorem allocate (alignWide : Bool) (width : Nat) :
    Yields Q (Lower.allocate alignWide width) (fun _ => True) := by
  unfold Lower.allocate
  refine bind emitter fun _ _ => ?_
  refine bind (update fun _ => Extends.of_em rfl rfl rfl) fun _ _ => ?_
  exact bind (note _ _) fun _ _ => pure trivial

theorem bindLocal (name : String) (l : Local) : Yields Q (Lower.bindLocal name l) (fun _ => True) :=
  update fun _ => Extends.of_em rfl rfl rfl

theorem declareLocal (alignWide : Bool) (name : String) (ty : Ty) (kind : ValueKind) :
    Yields Q (Lower.declareLocal alignWide name ty kind) (fun _ => True) := by
  unfold Lower.declareLocal
  exact bind (allocate _ _) fun _ _ => bind (bindLocal _ _) fun _ _ => pure trivial

theorem declareParam (name : String) (ty : Ty) (kind : ValueKind) :
    Yields Q (Lower.declareParam name ty kind) (fun _ => True) := by
  unfold Lower.declareParam
  refine bind emitter fun _ _ => ?_
  exact bind (update fun _ => Extends.of_em rfl rfl rfl) fun _ _ => bindLocal _ _

theorem enterScope : Yields Q Lower.enterScope (fun _ => True) :=
  update fun _ => Extends.of_em rfl rfl rfl

theorem exitScope : Yields Q Lower.exitScope (fun _ => True) :=
  update fun _ => Extends.of_em rfl rfl rfl

theorem resolve (cx : LowerCtx) (t : Ty) :
    Yields Q (Lower.resolve cx t) (fun r => resolveIn cx.env t = .ok r) :=
  orFail _

theorem kind (cx : LowerCtx) (t : Ty) :
    Yields Q (Lower.kind cx t) (fun k => ValueKind.of cx.env t = .ok k) :=
  orFail _

/-- A step taken only when `c` holds, before the same continuation either way. -/
theorem optional_then {c : Prop} [Decidable c] {m : LowerM Unit} {k : LowerM β}
    (hm : Yields Q m (fun _ => True)) (hk : Yields Q k R') :
    Yields Q (if c then m >>= fun _ => k else k) R' := by
  split
  · exact bind hm fun _ _ => hk
  · exact hk

/-- A loop each of whose steps yields, and goes on to the next element. -/
theorem forIn {xs : List γ} {init : β} {f : γ → β → LowerM (ForInStep β)}
    (hf : ∀ x ∈ xs, ∀ b, Yields Q (f x b) (fun r => ∃ b', r = .yield b')) :
    Yields Q (ForIn.forIn xs init f) (fun _ => True) := by
  intro s
  refine (lsat_forIn (fun _ _ s' => Extends Q s s') (Extends.refl s) ?_).mono
    fun _ s' e => ⟨e, trivial⟩
  intro done x rest b s₁ hxs e₁
  have hx : x ∈ xs := by rw [hxs]; simp
  exact (hf x hx b s₁).mono fun r s₂ h => ⟨h.2.choose, h.2.choose_spec, e₁.trans h.1⟩

end Yields

/-! ## Finishing a routine -/

theorem lsat_finish (ks : List ValueKind) (rk : ValueKind) {s : LowerState}
    {P : RoutineCode → LowerState → Prop} :
    LSat (finish ks rk) s P ↔
      P ⟨s.em.name, ks, rk, s.em.code.toList, s.em.next, maxStackDepth s.em.code.toList⟩ s := by
  unfold finish emitter
  rw [lsat_bind, lsat_bind, lsat_get, lsat_pure, lsat_pure]

/-- A routine finished after steps from `s`: its name is the one `s` lowers, its kinds are the
ones given, and its code is what those steps left. -/
def Finished (Q : Instr → Prop) (s : LowerState) (ks : List ValueKind) (rk : ValueKind)
    (rc : RoutineCode) : Prop :=
  ∃ s', Extends Q s s' ∧ rc.name = s'.em.name ∧ rc.params = ks ∧ rc.ret = rk ∧
    rc.code = s'.em.code.toList

theorem Finished.code_of_empty {Q : Instr → Prop} {s : LowerState} {ks : List ValueKind}
    {rk : ValueKind} {rc : RoutineCode} (h : Finished Q s ks rk rc) (he : s.em.code = #[]) :
    ∀ i ∈ rc.code, Q i := by
  obtain ⟨s', e, _, _, _, hc⟩ := h
  rw [hc]
  exact e.code_of_empty he

/-- Finishing a routine after steps that yield, and after one more optional step. -/
theorem finish_after {Q : Instr → Prop} {m : LowerM Unit} {c : Prop} [Decidable c]
    {last : LowerM Unit} (hm : Yields Q m (fun _ => True)) (hlast : Yields Q last (fun _ => True))
    (ks : List ValueKind) (rk : ValueKind) (s : LowerState) :
    LSat (m >>= fun _ => if c then last >>= fun _ => finish ks rk else finish ks rk) s
      (fun rc _ => Finished Q s ks rk rc) := by
  have done : ∀ s₁, Extends Q s s₁ → LSat (finish ks rk) s₁ (fun rc _ => Finished Q s ks rk rc) :=
    fun s₁ e₁ => (lsat_finish ks rk).mpr ⟨s₁, e₁, rfl, rfl, rfl, rfl⟩
  rw [lsat_bind]
  refine (hm s).mono fun _ s₁ h₁ => ?_
  split
  · rw [lsat_bind]
    exact (hlast s₁).mono fun _ s₂ h₂ => done s₂ (h₁.1.trans h₂.1)
  · exact done s₁ h₁.1

end Lower

end ImpStack
