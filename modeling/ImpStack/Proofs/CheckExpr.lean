import ImpStack.Proofs.Judgment

/-! # A quiet check of an expression establishes its typing

  The checker runs in a state monad that never fails. `CSat m st Q` says that running `m`
  from `st` ends in a result and a state satisfying `Q`; it goes through `bind` by nesting,
  like the lowering logic.

  Checking an expression only reads: it keeps the scopes and the return types of the
  routines being walked, and only adds diagnostics (`Reads`). A run is *quiet* when it adds
  none, and then it has established `Infers` for the expression in the scopes it ran in, with
  the result it returned (`typeOf_quiet`). Since diagnostics are only added, a quiet run is
  quiet in every step, and a step that reports makes the whole run loud.
-/

namespace ImpStack

namespace Check

-- The proofs below unfold the checker one constructor at a time, many of them at once; its
-- equations are built here, once, before they are all asked for together.
section
attribute [local simp] typeOf checkArguments
end

/-! ## Running checking steps -/

/-- What running `m` from `st` guarantees of its result and final state. -/
def CSat {α : Type} (m : CheckM α) (st : Checker) (Q : α → Checker → Prop) : Prop :=
  Q (m.run st).1 (m.run st).2

section Rules

variable {α β : Type} {st : Checker} {Q : β → Checker → Prop}

theorem CSat.mono {m : CheckM β} {Q' : β → Checker → Prop} (h : CSat m st Q)
    (hQ : ∀ b st', Q b st' → Q' b st') : CSat m st Q' :=
  hQ _ _ h

@[simp] theorem csat_pure (b : β) : CSat (pure b) st Q ↔ Q b st := Iff.rfl

@[simp] theorem csat_bind (m : CheckM α) (f : α → CheckM β) :
    CSat (m >>= f) st Q ↔ CSat m st (fun a st' => CSat (f a) st' Q) := Iff.rfl

@[simp] theorem csat_report (e : Error) {Q : Unit → Checker → Prop} :
    CSat (report e) st Q ↔ Q () { st with diagnostics := st.diagnostics ++ [e] } := Iff.rfl

@[simp] theorem csat_use (n : String) {Q : Unit → Checker → Prop} :
    CSat (use n) st Q ↔
      Q () (if st.used.contains n then st else { st with used := st.used ++ [n] }) := Iff.rfl

@[simp] theorem csat_scopes {Q : Scopes → Checker → Prop} :
    CSat scopes st Q ↔ Q st.scopes st := Iff.rfl

@[simp] theorem csat_resolveQuiet (t : Ty) {Q : Option Ty → Checker → Prop} :
    CSat (resolveQuiet t) st Q ↔ Q (t.resolveDeep st.scopes.env).toOption st := by
  simp only [resolveQuiet, csat_bind, csat_scopes]
  cases t.resolveDeep st.scopes.env <;> rfl

end Rules

/-! ## Steps that only read -/

/-- A step that keeps the scopes and the routines being walked, and only adds diagnostics. -/
structure Reads (st st' : Checker) : Prop where
  scopes : st'.scopes = st.scopes
  returnTypes : st'.returnTypes = st.returnTypes
  grows : ∃ l, st'.diagnostics = st.diagnostics ++ l

/-- A step that adds no diagnostic. -/
def Quiet (st st' : Checker) : Prop := st'.diagnostics = st.diagnostics

theorem Reads.refl (st : Checker) : Reads st st := ⟨rfl, rfl, [], by simp⟩

theorem Reads.trans {st₁ st₂ st₃ : Checker} (h₁ : Reads st₁ st₂) (h₂ : Reads st₂ st₃) :
    Reads st₁ st₃ := by
  obtain ⟨l₁, hl₁⟩ := h₁.grows
  obtain ⟨l₂, hl₂⟩ := h₂.grows
  exact ⟨h₂.scopes.trans h₁.scopes, h₂.returnTypes.trans h₁.returnTypes, l₁ ++ l₂,
    by rw [hl₂, hl₁, List.append_assoc]⟩

/-- A quiet run is quiet in both of its parts. -/
theorem Quiet.split {st₁ st₂ st₃ : Checker} (h₁ : Reads st₁ st₂) (h₂ : Reads st₂ st₃)
    (hq : Quiet st₁ st₃) : Quiet st₁ st₂ ∧ Quiet st₂ st₃ := by
  obtain ⟨l₁, hl₁⟩ := h₁.grows
  obtain ⟨l₂, hl₂⟩ := h₂.grows
  unfold Quiet at *
  rw [hl₂, hl₁, List.append_assoc] at hq
  have hnil : l₁ ++ l₂ = [] := List.append_cancel_left (hq.trans (List.append_nil _).symm)
  obtain ⟨rfl, rfl⟩ := List.append_eq_nil_iff.mp hnil
  simp [hl₁, hl₂]

/-- A run that reported at some point is not quiet. -/
theorem not_quiet_of_report {st st₁ : Checker} {e : Error}
    (h : Reads { st with diagnostics := st.diagnostics ++ [e] } st₁) : ¬ Quiet st st₁ := by
  obtain ⟨l, hl⟩ := h.grows
  intro hq
  unfold Quiet at hq
  have := congrArg List.length (hl.symm.trans hq)
  simp at this

/-- Recording a use only touches the used names. -/
theorem reads_use (st : Checker) (n : String) :
    Reads st (if st.used.contains n then st else { st with used := st.used ++ [n] }) := by
  split
  · exact Reads.refl st
  · exact ⟨rfl, rfl, [], by simp⟩

theorem quiet_use (st : Checker) (n : String) :
    Quiet st (if st.used.contains n then st else { st with used := st.used ++ [n] }) := by
  unfold Quiet; split <;> rfl

/-! ## The checker's helpers -/

section Helpers

variable {α β : Type} {st : Checker}

theorem use_sat (n : String) {Q : Unit → Checker → Prop}
    (hQ : ∀ st', Reads st st' → Quiet st st' → Q () st') : CSat (use n) st Q :=
  hQ _ (reads_use st n) (quiet_use st n)

theorem report_sat (e : Error) {Q : Unit → Checker → Prop}
    (hQ : ∀ st', Reads st st' → ¬ Quiet st st' → Q () st') : CSat (report e) st Q :=
  hQ { st with diagnostics := st.diagnostics ++ [e] } ⟨rfl, rfl, [e], rfl⟩ (by simp [Quiet])

theorem report_bind_sat (e : Error) (f : Unit → CheckM β) {Q : β → Checker → Prop}
    (hQ : ∀ st', Reads st st' → ¬ Quiet st st' → CSat (f ()) st' Q) :
    CSat (report e >>= f) st Q := by
  rw [csat_bind]
  exact report_sat e hQ

/-- A run with a loud part is loud. -/
theorem loud_run {st₁ st₂ : Checker} {P : Prop} (r₁ : Reads st st₁) (r₂ : Reads st₁ st₂)
    (nq : ¬ Quiet st₁ st₂) : Reads st st₂ ∧ (Quiet st st₂ → P) :=
  ⟨r₁.trans r₂, fun hq => absurd (Quiet.split r₁ r₂ hq).2 nq⟩

/-- A run whose first part is loud is loud. -/
theorem loud_first {st₁ st₂ : Checker} {P : Prop} (r₁ : Reads st st₁) (nq : ¬ Quiet st st₁)
    (r₂ : Reads st₁ st₂) : Reads st st₂ ∧ (Quiet st st₂ → P) :=
  ⟨r₁.trans r₂, fun hq => absurd (Quiet.split r₁ r₂ hq).1 nq⟩

theorem pure_run {st₁ : Checker} {P : Prop} (r₁ : Reads st st₁) (hP : Quiet st st₁ → P) :
    Reads st st₁ ∧ (Quiet st st₁ → P) := ⟨r₁, hP⟩

/-- Checking an array's element: quiet only for a visible array. -/
theorem arrayElement_sat (a : String) :
    CSat (arrayElement a) st (fun o st' => Reads st st' ∧ (Quiet st st' →
      ∃ el size, st.scopes.typeOf? a = some (.array el size) ∧ o = some el)) := by
  simp only [arrayElement, csat_bind]
  refine use_sat a fun st₁ r₁ q₁ => ?_
  simp only [csat_scopes, r₁.scopes]
  split
  · rename_i el size ht
    exact ⟨r₁, fun _ => ⟨el, size, ht, rfl⟩⟩
  all_goals
    simp only [csat_bind]
    exact report_sat _ fun st₂ r₂ nq₂ => loud_run r₁ r₂ nq₂

/-- Checking an index: quiet only for an integer index, and true exactly when it has a type. -/
theorem indexOk_sat (oi : Option Ty) :
    CSat (indexOk oi) st (fun ok st' => Reads st st' ∧ (Quiet st st' →
      (∀ T, oi = some T → T = .integer) ∧ (ok = true ↔ oi.isSome))) := by
  cases oi with
  | none =>
    simp only [indexOk, csat_pure]
    exact pure_run (Reads.refl st) fun _ => ⟨by simp, by simp⟩
  | some T =>
    simp only [indexOk]
    split
    · rename_i hT
      simp only [csat_pure]
      exact pure_run (Reads.refl st) fun _ => ⟨by simpa using hT, by simp⟩
    · exact report_bind_sat _ _ fun st₂ r₂ nq₂ => loud_run (Reads.refl st) r₂ nq₂

/-- Reading a field: quiet only for a field of a visible record variable. -/
theorem recordField_sat (r f : String) :
    CSat (recordField r f) st (fun o st' => Reads st st' ∧
      (Quiet st st' → Infers st.scopes (.field r f) o)) := by
  simp only [recordField, csat_bind]
  refine use_sat r fun st₁ r₁ q₁ => ?_
  simp only [csat_scopes, r₁.scopes]
  cases hR : st.scopes.typeOf? r with
  | none => exact report_bind_sat _ _ fun st₂ r₂ nq₂ => loud_run r₁ r₂ nq₂
  | some R =>
    simp only [csat_bind, csat_resolveQuiet, r₁.scopes]
    cases hres : R.resolveDeep st.scopes.env with
    | error err => exact report_bind_sat _ _ fun st₂ r₂ nq₂ => loud_run r₁ r₂ nq₂
    | ok T =>
      cases T with
      | record name fields =>
        cases hF : fields.lookup f with
        | none =>
          simp only [Except.toOption, Ty.field?, hF]
          exact report_bind_sat _ _ fun st₂ r₂ nq₂ => loud_run r₁ r₂ nq₂
        | some F =>
          simp only [Except.toOption, Ty.field?, hF, csat_resolveQuiet, r₁.scopes]
          exact pure_run r₁ fun _ => .field hR hres hF
      | prim _ | array _ _ | named _ =>
        exact report_bind_sat _ _ fun st₂ r₂ nq₂ => loud_run r₁ r₂ nq₂

/-- The type of a binary operation: quiet only when the operation suits its operands. -/
theorem binaryType_sat (op : BinOp) (l r : Ty) :
    CSat (binaryType op l r) st (fun o st' => Reads st st' ∧ (Quiet st st' →
      o = Ty.binaryResult op l r ∧ (Ty.binaryResult op l r).isSome)) := by
  simp only [binaryType]
  cases h : Ty.binaryResult op l r with
  | some T => exact pure_run (Reads.refl st) fun _ => ⟨rfl, rfl⟩
  | none =>
    simp only
    split
    · exact report_bind_sat _ _ fun st₂ r₂ nq₂ => loud_run (Reads.refl st) r₂ nq₂
    · exact report_bind_sat _ _ fun st₂ r₂ nq₂ => loud_run (Reads.refl st) r₂ nq₂

/-- The callee of a call: found when one is returned, and quiet only for a declared routine
given as many arguments as it has parameters. -/
theorem callee_sat (n : String) (args : List Expr) :
    CSat (callee n args) st (fun o st' => Reads st st' ∧ (o = none → ¬ Quiet st st') ∧
      ∀ sig, o = some sig → st.scopes.routine? n = some sig ∧
        (Quiet st st' → sig.params.length = args.length)) := by
  simp only [callee, csat_bind, csat_scopes]
  cases h : st.scopes.routine? n with
  | none =>
    exact report_bind_sat _ _ fun st₂ r₂ nq₂ => ⟨r₂, fun _ => nq₂, fun _ h => by cases h⟩
  | some sig =>
    simp only
    split
    · refine report_bind_sat _ _ fun st₂ r₂ nq₂ => ?_
      simp only [csat_pure]
      exact ⟨r₂, (fun h => by simp at h), fun _ h' => ⟨h'.symm ▸ rfl, fun hq => absurd hq nq₂⟩⟩
    · rename_i heq
      simp only [csat_pure]
      refine ⟨Reads.refl st, (fun h => by simp at h), fun _ h' => ?_⟩
      cases h'
      exact ⟨rfl, fun _ => by simpa using heq⟩

/-- Checking one argument: quiet only when it suits its parameter, if it has one. -/
theorem checkArgument_sat (name : String) (params : List Ty) (index : Nat) (actual : Option Ty) :
    CSat (checkArgument name params index actual) st (fun _ st' => Reads st st' ∧
      (Quiet st st' → ∀ p P A, params[index]? = some p → p.resolveDeep st.scopes.env = .ok P →
        actual = some A → Ty.compatible P A = true)) := by
  simp only [checkArgument]
  cases hp : params[index]? with
  | none => exact pure_run (Reads.refl st) fun _ _ _ _ h => by cases h
  | some p =>
    simp only [csat_bind, csat_resolveQuiet]
    cases hP : p.resolveDeep st.scopes.env with
    | error err =>
      exact pure_run (Reads.refl st) fun _ _ _ _ h h' => by cases h; rw [hP] at h'; cases h'
    | ok P =>
      cases actual with
      | none => exact pure_run (Reads.refl st) fun _ _ _ _ _ _ h => by cases h
      | some A =>
        simp only [Except.toOption]
        split
        · exact report_sat _ fun st₂ r₂ nq₂ => loud_run (Reads.refl st) r₂ nq₂
        · rename_i hc
          refine pure_run (Reads.refl st) fun _ p' P' A' h h' h'' => ?_
          cases h; rw [hP] at h'; cases h'; cases h''
          simpa using hc

/-- Resolving a written type: quiet only for a valid type that resolves, which it returns. -/
theorem resolveReported_sat (t : Ty) :
    CSat (resolveReported t) st (fun o st' => Reads st st' ∧ (Quiet st st' →
      t.isValid st.scopes.env = true ∧ ∃ T, t.resolveDeep st.scopes.env = .ok T ∧ o = some T)) := by
  simp only [resolveReported, csat_bind, csat_scopes]
  split
  · exact report_bind_sat _ _ fun st₂ r₂ nq₂ => loud_run (Reads.refl st) r₂ nq₂
  · rename_i hv
    cases hT : t.resolveDeep st.scopes.env with
    | ok T => exact pure_run (Reads.refl st) fun _ => ⟨by simpa using hv, T, rfl, rfl⟩
    | error err => exact report_bind_sat _ _ fun st₂ r₂ nq₂ => loud_run (Reads.refl st) r₂ nq₂

end Helpers

/-! ## Expressions -/

mutual

/-- A quiet check of an expression establishes its typing in the scopes it ran in, with the
result it returned. -/
theorem typeOf_quiet : ∀ (e : Expr) (st : Checker),
    CSat (typeOf e) st (fun o st' => Reads st st' ∧ (Quiet st st' → Infers st.scopes e o))
  | .int v, st => pure_run (Reads.refl st) fun _ => .int v
  | .real x, st => pure_run (Reads.refl st) fun _ => .real x
  | .bool b, st => pure_run (Reads.refl st) fun _ => .bool b
  | .str s, st => pure_run (Reads.refl st) fun _ => .str s
  | .var name, st => by
    simp only [typeOf, csat_bind]
    refine use_sat name fun st₁ r₁ _ => ?_
    simp only [csat_scopes, r₁.scopes]
    cases ht : st.scopes.typeOf? name with
    | none => exact report_bind_sat _ _ fun st₂ r₂ nq₂ => loud_run r₁ r₂ nq₂
    | some T => exact pure_run r₁ fun _ => .var ht
  | .binary l op r, st => by
    simp only [typeOf, csat_bind]
    refine (typeOf_quiet l st).mono fun ol st₁ ⟨r₁, h₁⟩ => ?_
    refine (typeOf_quiet r st₁).mono fun or st₂ ⟨r₂, h₂⟩ => ?_
    rw [r₁.scopes] at h₂
    cases ol with
    | none =>
      refine pure_run (r₁.trans r₂) fun hq => ?_
      obtain ⟨q₁, q₂⟩ := Quiet.split r₁ r₂ hq
      exact .binary (h₁ q₁) (h₂ q₂) (fun _ _ h => by cases h)
    | some L =>
      cases or with
      | none =>
        refine pure_run (r₁.trans r₂) fun hq => ?_
        obtain ⟨q₁, q₂⟩ := Quiet.split r₁ r₂ hq
        exact .binary (h₁ q₁) (h₂ q₂) (fun _ _ _ h => by cases h)
      | some R =>
        refine (binaryType_sat op L R).mono fun o st₃ ⟨r₃, h₃⟩ =>
          ⟨r₁.trans (r₂.trans r₃), fun hq => ?_⟩
        obtain ⟨q₁, q₂₃⟩ := Quiet.split r₁ (r₂.trans r₃) hq
        obtain ⟨q₂, q₃⟩ := Quiet.split r₂ r₃ q₂₃
        obtain ⟨rfl, hs⟩ := h₃ q₃
        exact .binary (h₁ q₁) (h₂ q₂) (fun _ _ hL hR => by cases hL; cases hR; exact hs)
  | .unary op e, st => by
    simp only [typeOf, csat_bind]
    refine (typeOf_quiet e st).mono fun o st₁ ⟨r₁, h₁⟩ => ?_
    cases o with
    | none => exact pure_run r₁ fun q => .unary (h₁ q) (fun _ h => by cases h)
    | some T =>
      simp only
      split
      · rename_i U hu
        simp only [csat_pure]
        refine pure_run r₁ fun q => ?_
        have := Infers.unary (h₁ q) (fun _ h => by cases h; rw [hu]; rfl)
        simpa [hu] using this
      · exact report_bind_sat _ _ fun st₂ r₂ nq₂ => loud_run r₁ r₂ nq₂
  | .index a i, st => by
    simp only [typeOf, csat_bind]
    refine (arrayElement_sat a).mono fun oel st₁ ⟨r₁, h₁⟩ => ?_
    refine (typeOf_quiet i st₁).mono fun oi st₂ ⟨r₂, h₂⟩ => ?_
    refine (indexOk_sat oi).mono fun ok st₃ ⟨r₃, h₃⟩ => ?_
    rw [r₁.scopes] at h₂
    have reads := r₁.trans (r₂.trans r₃)
    -- a quiet run found the array, typed the index as an integer, and knows whether it did
    have quiet : Quiet st st₃ → ∃ el size, st.scopes.typeOf? a = some (.array el size) ∧
        oel = some el ∧ Infers st.scopes i oi ∧ (∀ T, oi = some T → T = .integer) ∧
        (ok = true ↔ oi.isSome) := by
      intro hq
      obtain ⟨q₁, q₂₃⟩ := Quiet.split r₁ (r₂.trans r₃) hq
      obtain ⟨q₂, q₃⟩ := Quiet.split r₂ r₃ q₂₃
      obtain ⟨el, size, ha, hel⟩ := h₁ q₁
      exact ⟨el, size, ha, hel, h₂ q₂, h₃ q₃⟩
    cases oel with
    | none =>
      refine pure_run reads fun hq => ?_
      obtain ⟨_, _, _, h, _⟩ := quiet hq
      cases h
    | some el =>
      cases ok with
      | false =>
        refine pure_run reads fun hq => ?_
        obtain ⟨el', size, ha, hel, hi, hint, hok⟩ := quiet hq
        cases hel
        cases oi with
        | none => exact .index ha hi hint
        | some _ => simp at hok
      | true =>
        simp only [↓reduceIte, csat_resolveQuiet, r₃.scopes, r₂.scopes, r₁.scopes]
        refine pure_run reads fun hq => ?_
        obtain ⟨el', size, ha, hel, hi, hint, hok⟩ := quiet hq
        cases hel
        cases oi with
        | none => simp at hok
        | some _ => exact .index ha hi hint
  | .field r f, st => by
    simp only [typeOf]
    exact recordField_sat r f
  | .call name args, st => by
    simp only [typeOf, csat_bind]
    refine (callee_sat name args).mono fun osig st₁ ⟨r₁, hnone, hsome⟩ => ?_
    cases osig with
    | none =>
      simp only [csat_bind]
      refine (checkArguments_quiet name [] 0 args st₁).mono fun _ st₂ ⟨r₂, _⟩ => ?_
      exact loud_first r₁ (hnone rfl) r₂
    | some sig =>
      obtain ⟨hfound, hcount⟩ := hsome sig rfl
      simp only [csat_bind]
      refine (checkArguments_quiet name sig.params 0 args st₁).mono fun _ st₂ ⟨r₂, h₂⟩ => ?_
      rw [r₁.scopes, List.drop_zero] at h₂
      simp only [csat_resolveQuiet, r₂.scopes, r₁.scopes]
      have quiet : Quiet st st₂ → st.scopes.routine? name = some sig ∧
          sig.params.length = args.length ∧ ArgsInfer st.scopes sig.params args := by
        intro hq
        obtain ⟨q₁, q₂⟩ := Quiet.split r₁ r₂ hq
        exact ⟨hfound, hcount q₁, h₂ q₂ (hcount q₁)⟩
      cases hR : sig.returnType.resolveDeep st.scopes.env with
      | error err =>
        simp only [Except.toOption, csat_pure]
        refine pure_run (r₁.trans r₂) fun hq => ?_
        obtain ⟨hf, hc, ha⟩ := quiet hq
        have := Infers.call hf hc ha (fun T h => by rw [hR] at h; cases h)
        simpa [hR, Except.toOption] using this
      | ok T =>
        simp only [Except.toOption]
        split
        · exact report_bind_sat _ _ fun st₃ r₃ nq₃ => loud_run (r₁.trans r₂) r₃ nq₃
        · rename_i hv
          simp only [csat_pure]
          refine pure_run (r₁.trans r₂) fun hq => ?_
          obtain ⟨hf, hc, ha⟩ := quiet hq
          have := Infers.call hf hc ha (fun T' h => by
            rw [hR] at h; cases h; exact Bool.eq_false_iff.mpr hv)
          simpa [hR, Except.toOption] using this
  | .cast e target, st => by
    simp only [typeOf, csat_bind]
    refine (typeOf_quiet e st).mono fun os st₁ ⟨r₁, h₁⟩ => ?_
    refine (resolveReported_sat target).mono fun ot st₂ ⟨r₂, h₂⟩ => ?_
    rw [r₁.scopes] at h₂
    cases ot with
    | none =>
      refine pure_run (r₁.trans r₂) fun hq => ?_
      obtain ⟨_, _, _, h⟩ := h₂ (Quiet.split r₁ r₂ hq).2
      cases h
    | some T =>
      have quiet : Quiet st st₂ → Infers st.scopes e os ∧ target.isValid st.scopes.env = true ∧
          target.resolveDeep st.scopes.env = .ok T := by
        intro hq
        obtain ⟨q₁, q₂⟩ := Quiet.split r₁ r₂ hq
        obtain ⟨hv, T', hT', h⟩ := h₂ q₂
        cases h
        exact ⟨h₁ q₁, hv, hT'⟩
      cases os with
      | none =>
        refine pure_run (r₁.trans r₂) fun hq => ?_
        obtain ⟨he, hv, hT⟩ := quiet hq
        exact .cast he hv hT (fun _ h => by cases h)
      | some S =>
        simp only
        split
        · exact report_bind_sat _ _ fun st₃ r₃ nq₃ => loud_run (r₁.trans r₂) r₃ nq₃
        · rename_i hc
          refine pure_run (r₁.trans r₂) fun hq => ?_
          obtain ⟨he, hv, hT⟩ := quiet hq
          exact .cast he hv hT (fun _ h => by cases h; simpa using hc)

/-- A quiet check of call arguments from position `index` on establishes them against the
parameters from that position, when there are as many. -/
theorem checkArguments_quiet : ∀ (name : String) (params : List Ty) (index : Nat)
    (args : List Expr) (st : Checker),
    CSat (checkArguments name params index args) st (fun _ st' => Reads st st' ∧
      (Quiet st st' → (params.drop index).length = args.length →
        ArgsInfer st.scopes (params.drop index) args))
  | _, params, index, [], st => pure_run (Reads.refl st) fun _ hlen => by
    rw [List.length_eq_zero_iff.mp hlen]
    exact .nil
  | name, params, index, a :: rest, st => by
    simp only [checkArguments, csat_bind]
    refine (typeOf_quiet a st).mono fun o st₁ ⟨r₁, h₁⟩ => ?_
    refine (checkArgument_sat name params index o).mono fun _ st₂ ⟨r₂, h₂⟩ => ?_
    refine (checkArguments_quiet name params (index + 1) rest st₂).mono
      fun _ st₃ ⟨r₃, h₃⟩ => ⟨r₁.trans (r₂.trans r₃), fun hq hlen => ?_⟩
    obtain ⟨q₁, q₂₃⟩ := Quiet.split r₁ (r₂.trans r₃) hq
    obtain ⟨q₂, q₃⟩ := Quiet.split r₂ r₃ q₂₃
    rw [r₁.scopes] at h₂
    rw [r₂.scopes, r₁.scopes] at h₃
    cases hd : params.drop index with
    | nil => rw [hd] at hlen; cases hlen
    | cons p ps =>
      have hp : params[index]? = some p := by rw [← List.head?_drop, hd]; rfl
      have hps : params.drop (index + 1) = ps := by rw [← List.tail_drop, hd]; rfl
      rw [hd] at hlen
      rw [hps] at h₃
      exact .cons (h₁ q₁) (fun P A hP hA => h₂ q₂ p P A hp hP hA)
        (h₃ q₃ (by simpa using hlen))

end

end Check

end ImpStack
