import ImpStack.Proofs.FreshValues

/-! # Lowering accepted programs

  The checker and lowering check types on their own. Lowering refuses to create or move a
  value of type void, but the checker never rejects a variable of that type: it only asks
  that a declared type name something declared. A void variable is accepted, and lowering
  the program then fails with an internal error, the kind that marks a broken promise between
  the two (`void_variable_not_lowered`).
-/

namespace ImpStack

namespace Lower

/-- Creating a value of a type that resolves to void fails, at any depth. -/
theorem freshValue_void {cx : LowerCtx} {t : Ty} (h : resolveIn cx.env t = .ok .void)
    (fuel : Nat) (st : LowerState) :
    Sat (freshValue cx (fuel + 1) t) st (fun _ _ => False)
      (· = .unsupportedOperation "a value of type void") := by
  simp only [freshValue, sat_bind, resolve, sat_orFail_ok h]
  rfl

end Lower

/-- `var x : void; x := x`. -/
def voidVariable : Program := ⟨[.varDecl "x" (some .void) none, .assign (.var "x") (.var "x")]⟩

/-- The checker accepts a variable of type void and an assignment of it to itself; lowering the
program fails when it creates the variable's first value, with an internal error. -/
theorem void_variable_not_lowered :
    (analyze {} voidVariable).diagnostics = [] ∧
    (compile {} voidVariable).1 = .error (.unsupportedOperation "a value of type void") ∧
    (Error.unsupportedOperation "a value of type void").isInternal = true :=
  ⟨rfl, rfl, rfl⟩

end ImpStack
