import ImpStack.Stack.Machine
import ImpStack.Compile

/-! # What a module does

  The machine counts fuel, so a run that ends is only seen with enough of it. More fuel never
  changes a run that ended (`exec_mono`), so every module has one behaviour: a run that
  finishes does so in one way only (`Finishes.unique`), and a run that finishes does not
  diverge.

  Dropping dead declarations does not keep behaviour: the initializer of a declaration that is
  never used can trap, and then the program with the declaration traps where the program
  without it goes on (`unused_trapping_declaration_changes_behaviour`).

  The checker declares every global before it checks any top-level statement, so a statement
  may read a global declared after it; the initializer runs declarations and statements in
  source order, so that read sees the global before its first value is stored
  (`global_read_before_its_declaration`).
-/

namespace ImpStack

/-- Whether a routine's run stopped for want of fuel. -/
def Finish.ranOut : Finish → Bool
  | .stopped .outOfFuel => true
  | _ => false

namespace Machine

/-- More fuel does not change a run that ended. The induction is on the fuel; a call runs its
callee and its continuation on the same fuel, so both are covered by the hypothesis. -/
theorem exec_mono (m : Module) : ∀ (n k : Nat) (code : List Instr) (pc : Nat) (f : Activation)
    (s : Store), (exec m n code pc f s).1.ranOut = false →
      exec m (n + k) code pc f s = exec m n code pc f s := by
  intro n
  induction n with
  | zero => intro k code pc f s h; simp [exec, Finish.ranOut] at h
  | succ n ih =>
    intro k code pc f s h
    rw [show n + 1 + k = (n + k) + 1 by omega]
    cases hi : code[pc]? with
    | none => simp only [exec, hi]
    | some i =>
      cases hs : step m f s i with
      | next f' s' =>
        simp only [exec, hi, hs] at h ⊢
        exact ih k _ _ _ _ h
      | goto l f' s' =>
        cases hl : labelAt code l with
        | none => simp only [exec, hi, hs, hl]
        | some j =>
          simp only [exec, hi, hs, hl] at h ⊢
          exact ih k _ _ _ _ h
      | call r args f' s' =>
        simp only [exec, hi, hs] at h ⊢
        rcases hc : exec m n r.code 0 ⟨[], paramSlots r.params args 0⟩ s' with ⟨res, s''⟩
        -- the callee ended too: it returned, or its stop is the stop of the whole run
        have callee : (exec m n r.code 0 ⟨[], paramSlots r.params args 0⟩ s').1.ranOut = false := by
          rw [hc]
          cases res with
          | returned v => rfl
          | stopped o => simpa [hc] using h
        rw [ih k _ _ _ _ callee, hc]
        rw [hc] at h
        cases res with
        | returned v =>
          simp only at h ⊢
          cases hr : resultStack r.ret v f'.stack with
          | none => rfl
          | some stack =>
            simp only [hr] at h ⊢
            exact ih k _ _ _ _ h
        | stopped o => rfl
      | done v s' => simp only [exec, hi, hs]
      | stop o s' => simp only [exec, hi, hs]

theorem exec_mono_le (m : Module) {n n' : Nat} (hn : n ≤ n') {code : List Instr} {pc : Nat}
    {f : Activation} {s : Store} (h : (exec m n code pc f s).1.ranOut = false) :
    exec m n' code pc f s = exec m n code pc f s := by
  obtain ⟨k, rfl⟩ := Nat.exists_eq_add_of_le hn
  exact exec_mono m n k code pc f s h

end Machine

namespace Module

open Machine

/-- A routine's run that ended is seen the same with more fuel. -/
theorem runRoutine_mono (m : Module) {n n' : Nat} (hn : n ≤ n') (r : RoutineCode) (s : Store)
    (h : (runRoutine m n r s).1.ranOut = false) : runRoutine m n' r s = runRoutine m n r s :=
  exec_mono_le m hn h

/-- A run that ended is seen the same with more fuel: the initializer ended, and so did the
entry routine if it ran. -/
theorem run_mono (m : Module) {n n' : Nat} (hn : n ≤ n') (h : (m.run n).1 ≠ .outOfFuel) :
    m.run n' = m.run n := by
  -- a routine run whose stop is the outcome of the whole run ended
  have ended : ∀ (o : Outcome), o ≠ .outOfFuel → (Finish.stopped o).ranOut = false := by
    intro o ho
    cases o <;> simp_all [Finish.ranOut]
  unfold run at h ⊢
  cases hinit : m.initializer with
  | none =>
    simp only [hinit] at h ⊢
    cases hentry : m.entry? with
    | none => rfl
    | some main =>
      simp only [hentry] at h ⊢
      rcases hr : runRoutine m n main m.initialStore with ⟨r, s⟩
      rw [hr] at h
      have done : (runRoutine m n main m.initialStore).1.ranOut = false := by
        rw [hr]
        cases r with
        | returned v => rfl
        | stopped o => exact ended o h
      rw [runRoutine_mono m hn main _ done, hr]
  | some init =>
    simp only [hinit] at h ⊢
    rcases hr : runRoutine m n init m.initialStore with ⟨r, s⟩
    rw [hr] at h
    cases r with
    | stopped o =>
      rw [runRoutine_mono m hn init _ (by rw [hr]; exact ended o h), hr]
    | returned v =>
      rw [runRoutine_mono m hn init _ (by rw [hr]; rfl), hr]
      simp only at h ⊢
      cases hentry : m.entry? with
      | none => rfl
      | some main =>
        simp only [hentry] at h ⊢
        rcases hr' : runRoutine m n main s with ⟨r', s'⟩
        rw [hr'] at h
        have done : (runRoutine m n main s).1.ranOut = false := by
          rw [hr']
          cases r' with
          | returned v => rfl
          | stopped o => exact ended o h
        rw [runRoutine_mono m hn main _ done, hr']

/-- A module finishes in one way only: how its run ends and what it prints are determined. -/
theorem Finishes.unique {m : Module} {o o' : Outcome} {out out' : List Printed}
    (h : m.Finishes o out) (h' : m.Finishes o' out') : o = o' ∧ out = out' := by
  obtain ⟨ho, n, hn⟩ := h
  obtain ⟨ho', n', hn'⟩ := h'
  have e₁ := m.run_mono (Nat.le_max_left n n') (by rw [hn]; exact ho)
  have e₂ := m.run_mono (Nat.le_max_right n n') (by rw [hn']; exact ho')
  rw [hn] at e₁
  rw [hn'] at e₂
  have := e₁.symm.trans e₂
  simp only [Prod.mk.injEq] at this
  exact this

/-- A module whose run finishes does not diverge. -/
theorem Finishes.not_diverges {m : Module} {o : Outcome} {out : List Printed}
    (h : m.Finishes o out) : ¬ m.Diverges := by
  obtain ⟨ho, n, hn⟩ := h
  intro hd
  have := hd n
  rw [hn] at this
  exact ho this

end Module

/-- Dropping a declaration that is never used can drop a trap. The integer `x` is never used
and its initializer divides by zero, which folding leaves alone; it calls nothing, so it is
dead. Compiled with dead declarations dropped, the program prints `1` and ends normally;
compiled with them kept, its initializer traps before anything is printed. -/
theorem unused_trapping_declaration_changes_behaviour :
    let p : Program := ⟨[.varDecl "x" (some .integer) (some (.binary (.int 1) .div (.int 0))),
      .print (.int 1)]⟩
    (analyze {} p).diagnostics = [] ∧
    ∃ pruned kept : Module,
      (compile {} p).1 = .ok pruned ∧
      (compile { check := { removeUnused := false } } p).1 = .ok kept ∧
      pruned.Finishes .normal [.int 1] ∧ kept.Finishes (.trap .divisionByZero) [] ∧
      ¬ kept.Finishes .normal [.int 1] := by
  intro p
  refine ⟨rfl, _, _, rfl, rfl, ⟨by decide, 4, rfl⟩, ⟨by decide, 4, rfl⟩, fun h => ?_⟩
  have := (Module.Finishes.unique h ⟨by decide, 4, rfl⟩).1
  cases this

/-- A top-level statement can read a global before the global gets its first value. The
checker accepts `print x` ahead of `var x : integer := 5`, since it declares every global before
it checks the statements. The initializer runs the two in source order: it reads `x` and prints
it, and only then stores `5`. The program prints `0`, the value every integer global starts
from, and ends normally. -/
theorem global_read_before_its_declaration :
    let p : Program := ⟨[.print (.var "x"), .varDecl "x" (some .integer) (some (.int 5))]⟩
    (analyze {} p).diagnostics = [] ∧
    ∃ m : Module, (compile {} p).1 = .ok m ∧
      m.initializer.map RoutineCode.code = some [.getGlobal "x" .int, .print .int,
        .push (.int 5), .putGlobal "x" .int, .ret .void] ∧
      m.Finishes .normal [.int 0] := by
  intro p
  exact ⟨rfl, _, rfl, rfl, ⟨by decide, 6, rfl⟩⟩

end ImpStack
