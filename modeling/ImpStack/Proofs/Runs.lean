import ImpStack.Proofs.Behaviour
import Mathlib.Logic.Relation

/-! # Runs of a routine, one instruction at a time

  `Machine.exec` runs a routine to its end on a budget of fuel. To reason about a stretch of
  code (a loop, a statement), a run is cut here into moves: `Moves` is one instruction that
  neither returns from the routine nor stops the run, a call counting as one move that runs the
  callee to its return; `Reaches` is a sequence of moves.

  Two facts tie moves back to `exec`. A move costs one unit of fuel, or the run ran out
  (`Moves.exec`), and with enough fuel it costs exactly one (`Moves.exec_enough`). Hence a run
  that keeps coming back to points of some kind, moving at least once in between, runs out of
  every budget (`exec_ranOut_of_recurrent`): it never ends. And what a run finishes with from
  a point it reaches, it finishes with from where it started (`Reaches.exec_finished`).

  The instructions that go on in a straight line get a lemma each (`step_load`, `step_store`,
  ...) naming the frame they leave, so that a stretch of code is walked move by move.
-/

namespace ImpStack

namespace Machine

/-- A point of a routine's run: where it is in the code, its frame and the store. -/
structure Point where
  pc : Nat
  frame : Activation
  store : Store

variable (m : Module) (code : List Instr)

/-- Runs a routine's code from a point. -/
def execFrom (fuel : Nat) (p : Point) : Finish × Store := exec m fuel code p.pc p.frame p.store

/-- One instruction of a routine's run that neither returns from the routine nor stops the
run; a call runs the callee to its return. -/
inductive Moves : Point → Point → Prop
  | next {pc : Nat} {f f' : Activation} {s s' : Store} {i : Instr}
      (fetch : code[pc]? = some i) (next : step m f s i = .next f' s') :
      Moves ⟨pc, f, s⟩ ⟨pc + 1, f', s'⟩
  | goto {pc j : Nat} {f f' : Activation} {s s' : Store} {i : Instr} {l : Label}
      (fetch : code[pc]? = some i) (goto : step m f s i = .goto l f' s')
      (target : labelAt code l = some j) :
      Moves ⟨pc, f, s⟩ ⟨j, f', s'⟩
  | call {pc fuel : Nat} {f f' : Activation} {s s' s'' : Store} {i : Instr} {r : RoutineCode}
      {args : List Value} {v : Option Value} {stack : List Value}
      (fetch : code[pc]? = some i) (call : step m f s i = .call r args f' s')
      (returns : exec m fuel r.code 0 ⟨[], paramSlots r.params args 0⟩ s' = (.returned v, s''))
      (result : resultStack r.ret v f'.stack = some stack) :
      Moves ⟨pc, f, s⟩ ⟨pc + 1, { f' with stack }, s''⟩

/-- A run of a routine goes from one point to another, every instruction on the way going on. -/
abbrev Reaches : Point → Point → Prop := Relation.ReflTransGen (Moves m code)

variable {m code}

/-- Two runs of the same code from the same point that both end agree, whatever their fuel. -/
theorem exec_agree {n k pc : Nat} {f : Activation} {s : Store}
    (hn : (exec m n code pc f s).1.ranOut = false) (hk : (exec m k code pc f s).1.ranOut = false) :
    exec m n code pc f s = exec m k code pc f s := by
  rcases Nat.le_total n k with hle | hle
  · obtain ⟨j, rfl⟩ := Nat.exists_eq_add_of_le hle
    exact (exec_mono m n j code pc f s hn).symm
  · obtain ⟨j, rfl⟩ := Nat.exists_eq_add_of_le hle
    exact exec_mono m k j code pc f s hk

/-- A move costs one unit of fuel, unless the run runs out on it (in a callee). -/
theorem Moves.exec {p q : Point} (h : Moves m code p q) (fuel : Nat) :
    (execFrom m code (fuel + 1) p).1.ranOut = true ∨
      execFrom m code (fuel + 1) p = execFrom m code fuel q := by
  cases h with
  | next fetch next => exact .inr (by simp [execFrom, Machine.exec, fetch, next])
  | goto fetch goto target => exact .inr (by simp [execFrom, Machine.exec, fetch, goto, target])
  | @call pc n f f' s s' s'' i r args v stack fetch call returns result =>
    simp only [execFrom, Machine.exec, fetch, call]
    rcases hc : Machine.exec m fuel r.code 0 ⟨[], paramSlots r.params args 0⟩ s' with
      ⟨res, s₃⟩
    cases hr : res.ranOut with
    | true =>
      -- the callee ran out, and so does the caller
      left
      cases res with
      | returned _ => simp [Finish.ranOut] at hr
      | stopped o => simpa using hr
    | false =>
      -- the callee ended: as it does on the fuel that made it return
      have same := exec_agree (by rw [hc]; exact hr) (by rw [returns]; rfl)
      rw [hc, returns] at same
      cases same
      right
      simp [result]

/-- With enough fuel, a move costs exactly one unit. -/
theorem Moves.exec_enough {p q : Point} (h : Moves m code p q) :
    ∃ c, ∀ fuel, c ≤ fuel → execFrom m code (fuel + 1) p = execFrom m code fuel q := by
  cases h with
  | next fetch next => exact ⟨0, fun _ _ => by simp [execFrom, Machine.exec, fetch, next]⟩
  | goto fetch goto target =>
    exact ⟨0, fun _ _ => by simp [execFrom, Machine.exec, fetch, goto, target]⟩
  | @call pc n f f' s s' s'' i r args v stack fetch call returns result =>
    refine ⟨n, fun fuel hle => ?_⟩
    obtain ⟨j, rfl⟩ := Nat.exists_eq_add_of_le hle
    have callee := exec_mono m n j r.code 0 ⟨[], paramSlots r.params args 0⟩ s'
      (by rw [returns]; rfl)
    simp [execFrom, Machine.exec, fetch, call, callee, returns, result]

/-- A run that moves at least once costs some fuel, unless it runs out on the way. -/
theorem exec_of_transGen {p q : Point} (h : Relation.TransGen (Moves m code) p q) (fuel : Nat) :
    (execFrom m code fuel p).1.ranOut = true ∨
      ∃ k < fuel, execFrom m code fuel p = execFrom m code k q := by
  induction h using Relation.TransGen.head_induction_on generalizing fuel with
  | single hpq =>
    cases fuel with
    | zero => exact .inl rfl
    | succ n => exact (hpq.exec n).imp id fun e => ⟨n, by omega, e⟩
  | head hpr _ ih =>
    cases fuel with
    | zero => exact .inl rfl
    | succ n =>
      rcases hpr.exec n with hout | e
      · exact .inl hout
      · rw [e]
        exact (ih n).imp id fun ⟨k, hk, e'⟩ => ⟨k, by omega, e'⟩

/-- A run that keeps coming back to points of some kind, moving at least once in between,
runs out of every budget. The induction is on the fuel: every return costs some. -/
theorem exec_ranOut_of_recurrent (P : Point → Prop)
    (recurs : ∀ p, P p → ∃ q, P q ∧ Relation.TransGen (Moves m code) p q) :
    ∀ fuel p, P p → (execFrom m code fuel p).1.ranOut = true := by
  intro fuel
  induction fuel using Nat.strongRecOn with
  | ind fuel ih =>
    intro p hp
    obtain ⟨q, hq, hpq⟩ := recurs p hp
    rcases exec_of_transGen hpq fuel with hout | ⟨k, hk, e⟩
    · exact hout
    · rw [e]
      exact ih k hk q hq

/-- A run that reaches a point from which every run runs out runs out too. -/
theorem Reaches.ranOut {p q : Point} (h : Reaches m code p q)
    (hq : ∀ fuel, (execFrom m code fuel q).1.ranOut = true) (fuel : Nat) :
    (execFrom m code fuel p).1.ranOut = true := by
  rcases Relation.reflTransGen_iff_eq_or_transGen.mp h with rfl | h
  · exact hq fuel
  · rcases exec_of_transGen h fuel with hout | ⟨k, _, e⟩
    · exact hout
    · rw [e]
      exact hq k

/-- What a run finishes with from a point it reaches, it finishes with from where it started,
given enough fuel. -/
theorem Reaches.exec_finished {p q : Point} (h : Reaches m code p q) {k : Nat}
    (hk : (execFrom m code k q).1.ranOut = false) :
    ∃ n, execFrom m code n p = execFrom m code k q := by
  induction h using Relation.ReflTransGen.head_induction_on with
  | refl => exact ⟨k, rfl⟩
  | head hpr _ ih =>
    obtain ⟨n, e⟩ := ih
    obtain ⟨c, hc⟩ := hpr.exec_enough
    -- run the move with at least the fuel it needs, and the rest as before
    refine ⟨max n c + 1, ?_⟩
    rw [hc _ (Nat.le_max_right n c), ← e]
    obtain ⟨j, hj⟩ := Nat.exists_eq_add_of_le (Nat.le_max_left n c)
    rw [hj]
    rw [← e] at hk
    exact exec_mono m n j code _ _ _ hk

/-! ## Instructions that go on -/

section Steps

variable {m : Module} {s : Store} {stack : List Value} {locals : List (Nat × Value)}

theorem step_load {slot : Nat} {v : Value} (k : ValueKind) (h : locals.lookup slot = some v) :
    step m ⟨stack, locals⟩ s (.load slot k) = .next ⟨v :: stack, locals⟩ s := by
  simp [step, h, Step.push]

theorem step_push (c : Constant) :
    step m ⟨stack, locals⟩ s (.push c) = .next ⟨Value.ofConstant c :: stack, locals⟩ s :=
  rfl

theorem step_putGlobal {n : String} {k : ValueKind} {v : Value}
    (h : globalDefined m n k = true) :
    step m ⟨v :: stack, locals⟩ s (.putGlobal n k) =
      .next ⟨stack, locals⟩ { s with globals := setGlobal s.globals n v } := by
  simp [step, h]

theorem step_store (slot : Nat) (k : ValueKind) (v : Value) :
    step m ⟨v :: stack, locals⟩ s (.store slot k) = .next ⟨stack, (slot, v) :: locals⟩ s :=
  rfl

theorem step_arith_int {op : ArithOp} {a b v : Int32} (h : intArith op a b = .ok v) :
    step m ⟨.int b :: .int a :: stack, locals⟩ s (.arith op .int) =
      .next ⟨.int v :: stack, locals⟩ s := by
  simp [step, h, Step.push]

theorem step_compare_int (c : Condition) (a b : Int32) (t : Label) :
    step m ⟨.int b :: .int a :: stack, locals⟩ s (.compareBranch c .int t) =
      Step.branch (intHolds c a b) t ⟨stack, locals⟩ s := rfl

end Steps

end Machine

end ImpStack
