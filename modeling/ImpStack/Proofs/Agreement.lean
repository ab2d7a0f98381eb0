import ImpStack.Proofs.CheckExpr
import ImpStack.Proofs.LowerExpr

/-! # The checker and lowering agree

  Lowering types expressions twice: once without emitting code, to pick the operand type of
  a comparison or an arithmetic operation before lowering its left operand, and once while
  lowering. The checker typed the same expressions before, in its own scopes. When lowering's
  variables are the checker's scopes, the three types are one, and fully resolved.
-/

namespace ImpStack

/-- The type the checker infers for an expression, in a check that reports nothing, is fully
resolved; lowering, from a state whose variables are the checker's scopes, reads the same type
off the expression without lowering it, and lowering the expression returns it. -/
theorem expression_types_agree {cx : LowerCtx} {st : Checker} {lst : LowerState} {e : Expr}
    {T : Ty} (quiet : ((Check.typeOf e).run st).2.diagnostics = st.diagnostics)
    (typed : ((Check.typeOf e).run st).1 = some T) (aligned : Aligned cx st.scopes lst.em) :
    T.resolveDeep st.scopes.env = .ok T ∧ Lower.staticType cx lst.em e = .ok T ∧
      Lower.Sat (Lower.expr cx e) lst (fun U _ => U = T) (fun _ => True) := by
  obtain ⟨-, hquiet⟩ := Check.typeOf_quiet e st
  have hinf : Infers st.scopes e (some T) := typed ▸ hquiet quiet
  refine ⟨Ty.resolveDeep_of_resolved (hinf.resolved aligned.resolved rfl),
    hinf.staticType aligned rfl, ?_⟩
  exact (hinf.lowers lst aligned).mono (fun U _ h => (Option.some.inj h.1).symm)
    fun _ _ => trivial

/-- An integer global `x` added to a real: the checker, the non-emitting typing and lowering
all give a real. -/
theorem sum_with_real_types_agree :
    let st : Checker := ⟨⟨[("x", .integer)], [], [], []⟩, [], [], [], []⟩
    let cx : LowerCtx := ⟨[], [], [("x", (.integer, .int))], true⟩
    let lst : LowerState := ⟨0, Emitter.start "main" .void, []⟩
    let e : Expr := .binary (.var "x") .add (.real 1.5)
    ((Check.typeOf e).run st).2.diagnostics = st.diagnostics ∧
      ((Check.typeOf e).run st).1 = some .real ∧
      Ty.real.resolveDeep st.scopes.env = .ok .real ∧ Lower.staticType cx lst.em e = .ok .real ∧
      Lower.Sat (Lower.expr cx e) lst (fun U _ => U = .real) (fun _ => True) := by
  intro st cx lst e
  have quiet : ((Check.typeOf e).run st).2.diagnostics = st.diagnostics := by rfl
  have typed : ((Check.typeOf e).run st).1 = some .real := by rfl
  have aligned : Aligned cx st.scopes lst.em := by
    refine ⟨rfl, rfl, ?_, ?_, ⟨[[]], rfl, by simp⟩, by simp [lst, Emitter.start],
      by simp [lst, Emitter.start], ?_, ?_⟩
    · intro n T h
      simp only [st, lookup_cons_ite] at h
      split at h
      · cases h; exact ⟨.int, by simp [cx, *]⟩
      · cases h
    · intro n t k h
      simp only [cx, lookup_cons_ite] at h
      split at h
      · cases h; simp [cx]
      · cases h
    · intro n T h
      simp only [st, Scopes.typeOf?_eq, lookup_cons_ite] at h
      split at h
      · cases h; trivial
      · cases h
    · intro n sig h
      cases h
  exact ⟨quiet, typed, expression_types_agree quiet typed aligned⟩

end ImpStack
