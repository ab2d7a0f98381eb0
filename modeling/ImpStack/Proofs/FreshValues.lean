import ImpStack.Proofs.LowerLogic
import ImpStack.Proofs.Alignment
import ImpStack.Compile

/-! # Creating fresh values does not always end

  A declaration without initializer starts from a fresh value, and a fresh record or array
  is created with all its record and array parts (`Lower.freshValue`). That recursion follows
  the fields of records as the type table has them and has no bound of its own. The checker
  reports a record field whose type names nothing declared yet, but it declares the record all
  the same; a record can therefore have a field of its own type, and lowering forced past the
  diagnostic creates a record inside the record it is creating, forever.

  `freshValue_exhausts` says so for every budget: when a type resolves to a record whose first
  field resolves to that record again, creating a value of it runs out of any depth it is
  given. `self_containing_record_never_lowered` is the smallest such program.
-/

namespace ImpStack

namespace Lower

/-- A record whose first field resolves to the record itself: creating a value of it creates
another one first, so no depth suffices. -/
theorem freshValue_exhausts {cx : LowerCtx} {t fty : Ty} {name f : String}
    {rest : List (String × Ty)}
    (ht : resolveIn cx.env t = .ok (.record name ((f, fty) :: rest)))
    (hf : resolveIn cx.env fty = .ok (.record name ((f, fty) :: rest))) (fuel : Nat)
    (s : LowerState) :
    Sat (freshValue cx fuel t) s (fun _ _ => False) (fun e => ∃ w, e = .unboundedRecursion w) := by
  induction fuel generalizing t s with
  | zero => exact ⟨_, rfl⟩
  | succ n ih =>
    -- the record resolves to itself and is one reference wide
    have hrec : resolveIn cx.env (.record name ((f, fty) :: rest)) =
        .ok (.record name ((f, fty) :: rest)) :=
      Lower.resolveIn_ok (Ty.resolveDeep_of_resolved (Ty.resolved_record _ _))
    have hkind : ValueKind.of cx.env (.record name ((f, fty) :: rest)) = .ok (.record name) := by
      rw [ValueKind.of_resolved (Ty.resolved_record _ _)]
      rfl
    -- `new`, then the first field: `dup` and a value of the record again, one level deeper
    rw [freshValue]
    simp only [sat_bind, resolve, kind, sat_orFail, ht, hf, hkind, sat_emit, List.forIn_cons,
      Ty.isAggregate, ↓reduceIte]
    exact (ih hrec _).mono (fun _ _ h => h.elim) fun _ h => h

end Lower

open Lower

/-- A record `R` with a field of type `R`: the checker reports the field type and still
declares `R`, and lowering forced past that diagnostic never produces a module. The
initializer of `x` creates an `R`, which creates an `R`, and so on: in any lowering context
over the checked types, creating that value runs out of every depth it is given. -/
theorem self_containing_record_never_lowered :
    let p : Program := ⟨[.recordType "R" [("f", .named "R")], .varDecl "x" (some (.named "R")) none]⟩
    (compileForced {} p).1.diagnostics = [.invalidFieldType "R" (.named "R")] ∧
    (∃ w, (compileForced {} p).2 = .error (.unboundedRecursion w)) ∧
    ∀ routines globals alignWide fuel s,
      Sat (freshValue ⟨(compileForced {} p).1.scopes.env, routines, globals, alignWide⟩ fuel
        (.named "R")) s (fun _ _ => False) (fun e => ∃ w, e = .unboundedRecursion w) := by
  intro p
  refine ⟨rfl, ⟨_, rfl⟩, fun routines globals alignWide fuel s => ?_⟩
  -- the type table holds `R` with its field of type `R`
  have hR : resolveIn (compileForced {} p).1.scopes.env (.named "R") =
      .ok (.record "R" [("f", .named "R")]) := rfl
  exact freshValue_exhausts hR hR fuel s

end ImpStack
