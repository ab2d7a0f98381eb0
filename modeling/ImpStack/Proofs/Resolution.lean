import ImpStack.Stack.Code

/-! # Resolved types

  Facts about resolution that the checker and lowering both lean on.

  - Structural equality of types is equality.
  - A *resolved* type has no type name left at the top or in its array elements; record fields
    keep their names, since resolution never looks inside a record.
  - Deep resolution always gives a resolved type, gives a resolved type back unchanged, and
    resolves an array by resolving its elements. The last two use the depth budget: a type
    written with `size` constructors never needs more than `size` levels.
  - Every resolved type has a value kind, and compatibility is reflexive.
-/

namespace ImpStack

namespace Ty

/-! ## Structural equality -/

mutual

theorem eq_of_beq : ∀ {a b : Ty}, a.beq b = true → a = b
  | .prim p, .prim q, h => by simpa [beq] using h
  | .array e n, .array e' n', h => by
    simp only [beq, Bool.and_eq_true, beq_iff_eq] at h
    rw [h.1, eq_of_beq h.2]
  | .record n fs, .record n' fs', h => by
    simp only [beq, Bool.and_eq_true, beq_iff_eq] at h
    rw [h.1, fields_eq_of_fieldsBeq h.2]
  | .named a, .named b, h => by simpa [beq] using h
  | .prim _, .array .., h | .prim _, .record .., h | .prim _, .named _, h
  | .array .., .prim _, h | .array .., .record .., h | .array .., .named _, h
  | .record .., .prim _, h | .record .., .array .., h | .record .., .named _, h
  | .named _, .prim _, h | .named _, .array .., h | .named _, .record .., h => by
    simp [beq] at h

theorem fields_eq_of_fieldsBeq :
    ∀ {fs gs : List (String × Ty)}, beq.fieldsBeq fs gs = true → fs = gs
  | [], [], _ => rfl
  | (a, t) :: r, (b, u) :: r', h => by
    simp only [beq.fieldsBeq, Bool.and_eq_true, beq_iff_eq] at h
    rw [h.1.1, eq_of_beq h.1.2, fields_eq_of_fieldsBeq h.2]
  | [], _ :: _, h | _ :: _, [], h => by simp [beq.fieldsBeq] at h

end

/-! ## Resolved types -/

/-- No type name is left at the top of the type or in its array elements. -/
def Resolved : Ty → Prop
  | .prim _ | .record _ _ => True
  | .array e _ => Resolved e
  | .named _ => False

@[simp] theorem resolved_prim (p : Prim) : (Ty.prim p).Resolved := trivial

@[simp] theorem resolved_record (n : String) (fs : List (String × Ty)) :
    (Ty.record n fs).Resolved := trivial

@[simp] theorem resolved_array (e : Ty) (n : Int) : (Ty.array e n).Resolved ↔ e.Resolved :=
  Iff.rfl

@[simp] theorem not_resolved_named (n : String) : ¬ (Ty.named n).Resolved := id

variable {env : TypeEnv}

theorem resolveFrom_of_not_named {o t : Ty} {k : Nat} (h : ∀ n, t ≠ .named n) :
    resolveFrom env o t (k + 1) = .ok t := by
  cases t with
  | named n => exact absurd rfl (h n)
  | _ => rfl

theorem resolve_of_not_named {t : Ty} (h : ∀ n, t ≠ .named n) : t.resolve env = .ok t :=
  resolveFrom_of_not_named h

/-- Following names ends at a type that is not a name. -/
theorem resolveFrom_not_named {o t r : Ty} {k : Nat} (h : resolveFrom env o t k = .ok r) :
    ∀ n, r ≠ .named n := by
  induction k generalizing t with
  | zero => simp [resolveFrom] at h
  | succ k ih =>
    cases t with
    | named n =>
      simp only [resolveFrom] at h
      split at h
      · cases h; simp
      · split at h
        · exact ih h
        · cases h
    | _ => cases h; simp

theorem resolve_not_named {t r : Ty} (h : t.resolve env = .ok r) : ∀ n, r ≠ .named n :=
  resolveFrom_not_named h

theorem resolveDeepFrom_resolved {t r : Ty} {k : Nat} (h : resolveDeepFrom env t k = .ok r) :
    r.Resolved := by
  induction k generalizing t r with
  | zero => simp [resolveDeepFrom] at h
  | succ k ih =>
    simp only [resolveDeepFrom, bind, Except.bind] at h
    cases hr : t.resolve env with
    | error e => simp [hr] at h
    | ok r0 =>
      rw [hr] at h
      cases r0 with
      | array e n =>
        -- the elements are resolved by the recursive call
        cases he : resolveDeepFrom env e k with
        | error _ => simp [he] at h
        | ok r1 =>
          simp [he, pure, Except.pure] at h
          subst h
          exact (resolved_array r1 n).2 (ih he)
      | named n => exact absurd rfl (resolve_not_named hr n)
      | _ => simp [pure, Except.pure] at h; subst h; trivial

/-- A resolved type resolves to itself once the budget covers its size. -/
theorem resolveDeepFrom_of_resolved : ∀ {t : Ty} {k : Nat}, t.Resolved → t.size ≤ k →
    resolveDeepFrom env t k = .ok t
  | .prim _, k + 1, _, _ => rfl
  | .record _ _, k + 1, _, _ => rfl
  | .array e n, k + 1, h, hk => by
    have he : resolveDeepFrom env e k = .ok e :=
      resolveDeepFrom_of_resolved h (by simp [size] at hk; omega)
    simp [resolveDeepFrom, resolve_of_not_named (t := .array e n) (by simp), he, bind,
      Except.bind, pure, Except.pure]
  | .prim _, 0, _, hk | .record _ _, 0, _, hk | .array _ _, 0, _, hk => by simp [size] at hk

theorem resolveDeep_of_resolved {t : Ty} (h : t.Resolved) : t.resolveDeep env = .ok t :=
  resolveDeepFrom_of_resolved h (by simp [depthBudget])

theorem resolveDeep_resolved {t r : Ty} (h : t.resolveDeep env = .ok r) : r.Resolved :=
  resolveDeepFrom_resolved h

/-- An array resolves by resolving its elements: its budget is one more than theirs. -/
theorem resolveDeep_array (e : Ty) (n : Int) :
    (Ty.array e n).resolveDeep env = (fun r => Ty.array r n) <$> e.resolveDeep env := by
  have hb : depthBudget env (.array e n) = depthBudget env e + 1 := by
    simp [depthBudget, size]; omega
  rw [resolveDeep, hb, resolveDeepFrom, resolve_of_not_named (by simp)]
  simp [resolveDeep, bind, Except.bind, pure, Except.pure, Functor.map, Except.map]

theorem resolveDeep_array_ok {e r : Ty} {n : Int} (h : e.resolveDeep env = .ok r) :
    (Ty.array e n).resolveDeep env = .ok (.array r n) := by
  simp [resolveDeep_array, h, Functor.map, Except.map]

/-! ## Compatibility -/

theorem compatible_refl : ∀ t : Ty, compatible t t = true
  | .prim p => by simp [compatible]
  | .array e n => by simp [compatible, compatible_refl e]
  | .record n fs => by simp [compatible, recordName?]
  | .named n => by simp [compatible, recordName?]

end Ty

/-! ## Value kinds of resolved types -/

namespace ValueKind

theorem ofResolved_ok : ∀ {t : Ty}, t.Resolved → ∃ k, ofResolved t = .ok k
  | .prim p, _ => by cases p <;> simp [ofResolved]
  | .record n _, _ => ⟨_, rfl⟩
  | .array e n, h => by
    obtain ⟨k, hk⟩ := ofResolved_ok (t := e) h
    exact ⟨.array k, by simp [ofResolved, hk, Functor.map, Except.map]⟩

theorem of_resolved {env : TypeEnv} {t : Ty} (h : t.Resolved) : of env t = ofResolved t := by
  simp [of, Ty.resolveDeep_of_resolved h]

theorem of_resolved_ok {env : TypeEnv} {t : Ty} (h : t.Resolved) : ∃ k, of env t = .ok k := by
  rw [of_resolved h]; exact ofResolved_ok h

@[simp] theorem of_integer (env : TypeEnv) : of env .integer = .ok .int := of_resolved trivial
@[simp] theorem of_real (env : TypeEnv) : of env .real = .ok .real := of_resolved trivial
@[simp] theorem of_boolean (env : TypeEnv) : of env .boolean = .ok .bool := of_resolved trivial

/-- Only void has the kind void. -/
theorem ne_void_of {env : TypeEnv} {T : Ty} {k : ValueKind} (hT : T.Resolved)
    (hv : T ≠ .void) (hk : of env T = .ok k) : k ≠ .void := by
  rw [of_resolved hT] at hk
  cases T with
  | prim p =>
    cases p <;> simp only [ofResolved, Except.ok.injEq] at hk <;> subst hk <;>
      first | exact absurd rfl hv | simp
  | array e n =>
    simp only [ofResolved] at hk
    cases h : ofResolved e <;> simp [h, Functor.map, Except.map] at hk
    subst hk; simp
  | record => simp only [ofResolved, Except.ok.injEq] at hk; subst hk; simp
  | named => simp at hT

end ValueKind

end ImpStack
