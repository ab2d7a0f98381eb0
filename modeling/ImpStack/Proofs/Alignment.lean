import ImpStack.Proofs.Judgment
import ImpStack.Proofs.Rendering

/-! # Lowering's variables and the checker's scopes

  Lowering keeps its own record of variables: the frames of the routine being lowered, each
  binding a name to a slot, a type and a kind, with the module's globals behind them. The
  checker keeps scopes. `Aligned cx sc em` says the two describe the same variables: the
  routine's frames are the scopes' local frames entry for entry with the same types (the
  initializer has one more frame, which stays empty), every global of the scopes is a global
  of lowering with the same type (lowering knows all globals of the program, the checker
  only those declared so far), and lowering's routines and declared types are the checker's.

  From an aligned state every name the checker finds is found by lowering at the same place
  (`Aligned.place`), and the non-emitting typing of lowering gives the type the checker
  inferred (`Infers.staticType`). The scopes are also asked for what lowering needs:
  signatures and field types that resolve, and variables whose values can be stored.
-/

namespace ImpStack

/-! ## Lists of frames -/

theorem lookup_map_snd {β γ : Type} (g : β → γ) (l : List (String × β)) (n : String) :
    (l.map fun b => (b.1, g b.2)).lookup n = (l.lookup n).map g := by
  induction l with
  | nil => rfl
  | cons b l ih =>
    obtain ⟨k, v⟩ := b
    simp only [List.map_cons, lookup_cons_ite, ih]
    split <;> rfl

theorem mem_of_lookup {β : Type} {l : List (String × β)} {n : String} {b : β}
    (h : l.lookup n = some b) : (n, b) ∈ l := by
  induction l with
  | nil => cases h
  | cons e l ih =>
    obtain ⟨k, v⟩ := e
    rw [lookup_cons_ite] at h
    split at h
    · cases h; subst_vars; exact List.mem_cons_self
    · exact List.mem_cons_of_mem _ (ih h)

theorem findSome?_lookup_map {β γ : Type} (g : β → γ) (fs : List (List (String × β)))
    (n : String) :
    (fs.map fun f => f.map fun b => (b.1, g b.2)).findSome? (·.lookup n) =
      (fs.findSome? (·.lookup n)).map g := by
  induction fs with
  | nil => rfl
  | cons f fs ih =>
    simp only [List.map_cons, List.findSome?_cons, lookup_map_snd]
    cases f.lookup n <;> simp [ih]

theorem findSome?_lookup_append_empty {β : Type} (fs base : List (List (String × β)))
    (hbase : ∀ f ∈ base, f = []) (n : String) :
    (fs ++ base).findSome? (·.lookup n) = fs.findSome? (·.lookup n) := by
  rw [List.findSome?_append]
  have : base.findSome? (·.lookup n) = none := by
    rw [List.findSome?_eq_none_iff]
    intro f hf
    rw [hbase f hf]; rfl
  rw [this, Option.or_none]

theorem Scopes.typeOf?_eq (sc : Scopes) (n : String) :
    sc.typeOf? n = (sc.locals.findSome? (·.lookup n)).or (sc.globals.lookup n) := by
  simp only [Scopes.typeOf?, Scopes.frames, List.findSome?_append, List.findSome?_cons,
    List.findSome?_nil]
  cases sc.globals.lookup n <;> rfl

/-! ## What lowering needs of the scopes -/

namespace Scopes

/-- Every routine's parameter and return types resolve. -/
def SignaturesResolve (sc : Scopes) : Prop :=
  ∀ n sig, sc.routine? n = some sig →
    (∀ p ∈ sig.params, ∃ P, p.resolveDeep sc.env = .ok P) ∧
      ∃ R, sig.returnType.resolveDeep sc.env = .ok R

/-- Every field type of a visible record variable resolves. -/
def FieldsResolve (sc : Scopes) : Prop :=
  ∀ n T name fields, sc.typeOf? n = some T → T.resolveDeep sc.env = .ok (.record name fields) →
    ∀ f F, (f, F) ∈ fields → ∃ R, F.resolveDeep sc.env = .ok R

/-- Every visible variable holds a storable value. -/
def VarsStorable (sc : Scopes) : Prop := ∀ n T, sc.typeOf? n = some T → T.Storable sc.env

/-- Storable variables have records whose field types resolve. -/
theorem VarsStorable.fieldsResolve {sc : Scopes} (h : sc.VarsStorable) (hsc : sc.VarsResolved) :
    sc.FieldsResolve := by
  intro n T name fields hn hT
  have hrec : T = .record name fields := by
    rw [Ty.resolveDeep_of_resolved (hsc n T hn)] at hT
    exact Except.ok.inj hT
  have hst := h n T hn
  rw [hrec] at hst
  cases hst with
  | record resolves _ => exact resolves

/-- The code lowered in these scopes renders: every visible variable holds a storable value,
and the sizes in every resolved parameter type fit a word. -/
structure Renderable (sc : Scopes) : Prop where
  vars : sc.VarsStorable
  params : ∀ n sig, sc.routine? n = some sig → ∀ p ∈ sig.params, ∀ P,
    p.resolveDeep sc.env = .ok P → P.SizesFit

theorem Renderable.fieldsResolve {sc : Scopes} (h : sc.Renderable) (hsc : sc.VarsResolved) :
    sc.FieldsResolve :=
  h.vars.fieldsResolve hsc

end Scopes

theorem Ty.Storable.ne_void {env : TypeEnv} {T : Ty} (h : T.Storable env) : T ≠ .void := by
  cases h with
  | prim nonVoid => simpa [Ty.void] using nonVoid
  | array | record => simp [Ty.void]

/-! ## Aligned states -/

/-- A frame of lowering with each binding's type. -/
def frameTypes (f : List (String × Local)) : Frame := f.map fun b => (b.1, b.2.ty)

/-- The kind of the variable in a place. -/
def Place.kind : Place → ValueKind
  | .inSlot l => l.kind
  | .inGlobal _ _ k => k

/-- Lowering's record of variables describes the checker's scopes `sc`. -/
structure Aligned (cx : LowerCtx) (sc : Scopes) (em : Emitter) : Prop where
  env : cx.env = sc.env
  routines : cx.routines = sc.routines
  globals : ∀ n T, sc.globals.lookup n = some T → ∃ k, cx.globals.lookup n = some (T, k)
  globalKinds : ∀ n t k, cx.globals.lookup n = some (t, k) → ValueKind.of cx.env t = .ok k
  frames : ∃ base, em.frames.map frameTypes = sc.locals ++ base ∧ ∀ f ∈ base, f = []
  localKinds : ∀ f ∈ em.frames, ∀ b ∈ f, ValueKind.of cx.env b.2.ty = .ok b.2.kind
  nonempty : em.frames ≠ []
  resolved : sc.VarsResolved
  signatures : sc.SignaturesResolve

namespace Aligned

variable {cx : LowerCtx} {sc : Scopes} {em : Emitter}

/-- Lowering finds its local of a name exactly when the checker's local frames have it, with
the same type. -/
theorem lookup_ty (h : Aligned cx sc em) (n : String) :
    (em.lookup n).map Local.ty = sc.locals.findSome? (·.lookup n) := by
  obtain ⟨base, hfr, hbase⟩ := h.frames
  have hfr' : em.frames.map (fun f => f.map fun b => (b.1, Local.ty b.2)) = sc.locals ++ base :=
    hfr
  have h1 := findSome?_lookup_map Local.ty em.frames n
  rw [hfr', findSome?_lookup_append_empty _ _ hbase] at h1
  rw [Emitter.lookup, ← h1]

/-- Every variable the checker sees is found by lowering, with the checker's type and the kind
of that type. -/
theorem place (h : Aligned cx sc em) {n : String} {T : Ty} (hn : sc.typeOf? n = some T) :
    ∃ p, Lower.place cx em n = .ok p ∧ p.ty = T ∧ ValueKind.of cx.env T = .ok p.kind := by
  have hl := h.lookup_ty n
  rw [Scopes.typeOf?_eq] at hn
  unfold Lower.place
  cases hem : em.lookup n with
  | some l =>
    -- a local: the checker's local frames find it first, with the same type
    rw [hem, Option.map_some] at hl
    rw [← hl, Option.some_or] at hn
    cases hn
    obtain ⟨f, hf, hfl⟩ := List.exists_of_findSome?_eq_some hem
    exact ⟨.inSlot l, rfl, rfl, h.localKinds f hf (n, l) (mem_of_lookup hfl)⟩
  | none =>
    -- no local: the checker finds a global, which lowering has with the same type
    rw [hem, Option.map_none] at hl
    rw [← hl, Option.none_or] at hn
    obtain ⟨k, hgk⟩ := h.globals n T hn
    exact ⟨.inGlobal n T k, by simp [Lower.global, hgk], rfl, h.globalKinds n T k hgk⟩

theorem routine? (h : Aligned cx sc em) (n : String) : cx.routines.lookup n = sc.routine? n := by
  rw [h.routines]; rfl

end Aligned

/-! ## Types read off without lowering -/

theorem Lower.resolveIn_ok {env : TypeEnv} {t r : Ty} (h : t.resolveDeep env = .ok r) :
    Lower.resolveIn env t = .ok r := by
  unfold Lower.resolveIn; rw [h]

/-- A resolved record variable is its record type. -/
theorem record_of_resolveDeep {sc : Scopes} (hsc : sc.VarsResolved) {r name : String} {R : Ty}
    {fields : List (String × Ty)} (found : sc.typeOf? r = some R)
    (record : R.resolveDeep sc.env = .ok (.record name fields)) : R = .record name fields := by
  rw [Ty.resolveDeep_of_resolved (hsc r R found)] at record
  exact Except.ok.inj record

/-- An array variable's elements are resolved. -/
theorem element_resolved {sc : Scopes} (hsc : sc.VarsResolved) {a : String} {el : Ty}
    {size : Int} (found : sc.typeOf? a = some (.array el size)) : el.Resolved :=
  (Ty.resolved_array el size).1 (hsc a _ found)

section

variable {cx : LowerCtx} {sc : Scopes} {em : Emitter}

/-- The non-emitting typing of lowering gives the type the checker inferred. -/
theorem Infers.staticType (ha : Aligned cx sc em) :
    ∀ {e : Expr} {o : Option Ty}, Infers sc e o → ∀ {T : Ty}, o = some T →
      Lower.staticType cx em e = .ok T := by
  intro e o he T h
  cases he with
  | int | real | bool | str => cases h; rfl
  | var found =>
    cases h
    obtain ⟨p, hp, hty, -⟩ := ha.place found
    simp [Lower.staticType, hp, hty, Except.map]
  | binary left right =>
    simp only [Option.bind_eq_some_iff] at h
    obtain ⟨L, hL, R, hR, hT⟩ := h
    simp [Lower.staticType, left.staticType ha hL, right.staticType ha hR, hT, bind,
      Except.bind, pure, Except.pure]
  | unary operand =>
    simp only [Option.bind_eq_some_iff] at h
    obtain ⟨E, hE, hT⟩ := h
    simp [Lower.staticType, operand.staticType ha hE, hT, bind, Except.bind, pure, Except.pure]
  | index found =>
    simp only [Option.bind_eq_some_iff, Except.toOption_eq_some] at h
    obtain ⟨_, -, hT⟩ := h
    rw [Ty.resolveDeep_of_resolved (element_resolved ha.resolved found)] at hT
    cases hT
    obtain ⟨p, hp, hty, -⟩ := ha.place found
    simp [Lower.staticType, hp, Lower.elementType, hty, bind, Except.bind]
  | field found record member =>
    rw [Except.toOption_eq_some] at h
    obtain ⟨p, hp, hty, -⟩ := ha.place found
    rw [record_of_resolveDeep ha.resolved found record] at hty
    simp [Lower.staticType, hp, Lower.fieldType, hty, Ty.recordName?, Ty.field?, member,
      Lower.resolveIn_ok (ha.env ▸ h), bind, Except.bind, pure, Except.pure]
  | call found =>
    rw [Except.toOption_eq_some] at h
    simp [Lower.staticType, ha.routine?, found, Lower.resolveIn_ok (ha.env ▸ h)]
  | cast _ _ resolved =>
    simp only [Option.map_eq_some_iff] at h
    obtain ⟨_, -, rfl⟩ := h
    simp [Lower.staticType, Lower.resolveIn_ok (ha.env ▸ resolved)]

/-- When every field type and every signature resolves, the checker gives every expression
a type. -/
theorem Infers.isSome (hsc : sc.VarsResolved) (hf : sc.FieldsResolve)
    (hs : sc.SignaturesResolve) :
    ∀ {e : Expr} {o : Option Ty}, Infers sc e o → ∃ T, o = some T := by
  intro e o he
  cases he with
  | int | real | bool | str | var => exact ⟨_, rfl⟩
  | binary left right suits =>
    obtain ⟨L, rfl⟩ := left.isSome hsc hf hs
    obtain ⟨R, rfl⟩ := right.isSome hsc hf hs
    exact Option.isSome_iff_exists.mp (suits L R rfl rfl)
  | unary operand suits =>
    obtain ⟨E, rfl⟩ := operand.isSome hsc hf hs
    exact Option.isSome_iff_exists.mp (suits E rfl)
  | index found hi =>
    obtain ⟨I, rfl⟩ := hi.isSome hsc hf hs
    rw [Option.bind_some, Ty.resolveDeep_of_resolved (element_resolved hsc found)]
    exact ⟨_, rfl⟩
  | field found record member =>
    obtain ⟨R, hR⟩ := hf _ _ _ _ found record _ _ (mem_of_lookup member)
    exact ⟨R, by simp [hR, Except.toOption]⟩
  | call found =>
    obtain ⟨R, hR⟩ := (hs _ _ found).2
    exact ⟨R, by simp [hR, Except.toOption]⟩
  | cast operand =>
    obtain ⟨S, rfl⟩ := operand.isSome hsc hf hs
    exact ⟨_, rfl⟩

end


end ImpStack
