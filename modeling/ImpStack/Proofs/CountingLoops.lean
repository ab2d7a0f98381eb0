import ImpStack.Proofs.Runs
import ImpStack.Proofs.ExprMeaning
import ImpStack.Proofs.References

/-! # Counting loops

  A `for` loop with literal bounds lowers to its start stored in a slot of its own and a
  counting loop over that slot (`CountingLoop.code`, `Lower.forRange_emits`). At the loop's
  head the bound is pushed and compared with the counter, and the loop leaves when the counter
  is past the bound (`>` counting up, `<` counting down); otherwise the body runs, the counter
  steps by one with the machine's 32-bit wrapping arithmetic, and the loop jumps back to the
  head.

  Between the loop's cut points, its head and the two ends of its body, the machine runs in a
  straight line (`At.enter`, `At.leave`, `At.back`). The loop rule follows (`At.runs`): when
  the bound is not the last word in the direction of counting, the loop runs its body once for
  each counter value from the start to the bound, in order, and leaves, as an invariant carried
  from one head to the next says; a body that prints the counter prints exactly the values
  from the start to the bound (`At.prints`). When the bound is that last word (`2147483647`
  counting up, `-2147483648` counting down), no word is past it: the step wraps around instead,
  and the loop never ends, whatever its body does (`At.never_ends`). So the program
  `for i := 3 downto 1 do print i` prints `3`, `2`, `1` and ends
  (`countdown_loop_prints_each_value`), while `for i := 2147483647 to 2147483647 do print i`
  never ends (`loop_to_last_word_never_ends`).
-/

namespace ImpStack

open Machine

namespace CountingLoop

/-- The test on which a counting loop leaves: the counter past the bound. -/
def exitCondition (reverse : Bool) : Condition := if reverse then .lt else .gt

/-- The step of the counter. -/
def stepOp (reverse : Bool) : ArithOp := if reverse then .sub else .add

/-- A counting loop over the local `slot`, up (or down) to `bound`, with its head label `start`
and its exit label `stop`, around the code of its body. -/
def code (slot : Nat) (bound : Int) (reverse : Bool) (start stop : Label) (body : List Instr) :
    List Instr :=
  [.label start, .load slot .int, .push (.int bound),
      .compareBranch (exitCondition reverse) .int stop] ++
    body ++
    [.load slot .int, .push (.int 1), .arith (stepOp reverse) .int, .store slot .int, .jump start,
      .label stop]

/-! ## Counters -/

/-- The counter `c` has not passed the bound `e`. -/
def Within (reverse : Bool) (c e : Int) : Prop := if reverse then e ≤ c else c ≤ e

instance (reverse : Bool) (c e : Int) : Decidable (Within reverse c e) := by
  unfold Within
  infer_instance

/-- The counter one step on. -/
def next (reverse : Bool) (c : Int) : Int := if reverse then c - 1 else c + 1

/-- The last word in the direction of counting. -/
def last (reverse : Bool) : Int := if reverse then -2147483648 else 2147483647

/-- The counter when the loop leaves: one step past the bound, or where it started when it
started past it. -/
def final (reverse : Bool) (c e : Int) : Int := if Within reverse c e then next reverse e else c

/-- How many more times the loop runs its body. -/
def remaining (reverse : Bool) (c e : Int) : Nat := (if reverse then c - e + 1 else e - c + 1).toNat

/-- The counter values the body still runs for, in order. -/
def values (reverse : Bool) (c e : Int) : List Int :=
  (List.range (remaining reverse c e)).map fun (k : Nat) => if reverse then c - k else c + k

/-- On words, the machine's exit test is the counter being past the bound. -/
theorem exit_test {reverse : Bool} {c e : Int} (hc : IsWord c) (he : IsWord e) :
    intHolds (exitCondition reverse) (Int32.ofInt c) (Int32.ofInt e) =
      !decide (Within reverse c e) := by
  rw [intHolds_ofInt _ hc he]
  cases reverse <;> by_cases hlt : c < e <;> by_cases heq : c = e <;>
    simp +decide [exitCondition, Within, holds, hlt, heq] <;> omega

/-- The machine steps the counter by one, wrapping at 32 bits. -/
theorem step_value (reverse : Bool) (c : Int) :
    intArith (stepOp reverse) (Int32.ofInt c) (Int32.ofInt 1) =
      .ok (Int32.ofInt (next reverse c)) := by
  cases reverse <;> simp [stepOp, next, intArith, Int32.ofInt_add, Int32.ofInt_sub]

theorem next_word {reverse : Bool} {c e : Int} (hw : Within reverse c e) (hc : IsWord c)
    (he : IsWord e) (hlast : e ≠ last reverse) : IsWord (next reverse c) := by
  unfold IsWord at *
  cases reverse <;> simp only [Within, next, last, Bool.false_eq_true, ↓reduceIte] at * <;> omega

/-- Within the bound, the body runs once more than from the next counter value. -/
theorem remaining_within {reverse : Bool} {c e : Int} (hw : Within reverse c e) :
    remaining reverse c e = remaining reverse (next reverse c) e + 1 := by
  cases reverse <;> simp only [remaining, Within, next, Bool.false_eq_true, ↓reduceIte] at * <;>
    omega

theorem final_next {reverse : Bool} {c e : Int} (hw : Within reverse c e) :
    final reverse (next reverse c) e = final reverse c e := by
  cases reverse <;> simp only [final, Within, next, Bool.false_eq_true, ↓reduceIte] at * <;>
    split <;> omega

theorem final_past {reverse : Bool} {c e : Int} (hw : ¬ Within reverse c e) :
    final reverse c e = c := by
  simp [final, hw]

/-- Within the bound, the body runs for the counter and then for the values after it. -/
theorem values_within {reverse : Bool} {c e : Int} (hw : Within reverse c e) :
    values reverse c e = c :: values reverse (next reverse c) e := by
  rw [values, remaining_within hw, List.range_succ_eq_map, List.map_cons, List.map_map, values]
  congr 1
  · cases reverse <;> simp
  · apply List.map_congr_left
    intro k _
    cases reverse <;> simp [next] <;> omega

/-- When the loop leaves, no value is left. -/
theorem values_final (reverse : Bool) (c e : Int) : values reverse (final reverse c e) e = [] := by
  by_cases hw : Within reverse c e <;> cases reverse <;>
    simp only [values, final, remaining, Within, next, Bool.false_eq_true, ↓reduceIte] at * <;>
    simp <;> omega

/-- Every word is within the last word. -/
theorem within_last {reverse : Bool} {c : Int} (hc : IsWord c) :
    Within reverse c (last reverse) := by
  unfold IsWord at hc
  cases reverse <;> simp only [Within, last, Bool.false_eq_true, ↓reduceIte] <;> omega

theorem last_word (reverse : Bool) : IsWord (last reverse) := by
  cases reverse <;> decide

/-- The word a JVM `int` holds. -/
theorem word_toInt (a : Int32) : IsWord a.toInt :=
  ⟨a.le_toInt, a.toInt_le⟩

/-! ## The loop in a routine -/

/-- A counting loop sits at position `pos` of the code of a routine, and its labels lead to it:
the head label to its first instruction, the exit label to its last. -/
structure At (routine : List Instr) (pos slot : Nat) (bound : Int) (reverse : Bool)
    (start stop : Label) (body : List Instr) : Prop where
  placed : ∃ pre post, routine = pre ++ code slot bound reverse start stop body ++ post ∧
    pre.length = pos
  head : labelAt routine start = some pos
  exit : labelAt routine stop = some (pos + body.length + 9)

section Loop

variable {m : Module} {routine : List Instr} {pos slot : Nat} {bound : Int} {reverse : Bool}
  {start stop : Label} {body : List Instr}

theorem At.fetch (h : At routine pos slot bound reverse start stop body) {i : Nat}
    (hi : i < (code slot bound reverse start stop body).length) :
    routine[pos + i]? = (code slot bound reverse start stop body)[i]? := by
  obtain ⟨pre, post, rfl, rfl⟩ := h.placed
  rw [List.getElem?_append_left (by simpa using hi), List.getElem?_append_right (by omega),
    Nat.add_sub_cancel_left]

/-- The four instructions of the head. -/
theorem At.fetch_head (h : At routine pos slot bound reverse start stop body) {i : Nat}
    (hi : i < 4) :
    routine[pos + i]? = [.label start, .load slot .int, .push (.int bound),
      .compareBranch (exitCondition reverse) .int stop][i]? := by
  rw [h.fetch (by simp [code]; omega), code, List.append_assoc,
    List.getElem?_append_left (by simpa using hi)]

/-- The body. -/
theorem At.fetch_body (h : At routine pos slot bound reverse start stop body) {j : Nat}
    (hj : j < body.length) : routine[pos + 4 + j]? = body[j]? := by
  rw [Nat.add_assoc, h.fetch (by simp [code]; omega), code, List.append_assoc,
    List.getElem?_append_right (by simp), List.getElem?_append_left (by simpa using hj)]
  simp

/-- The six instructions after the body: the step, the jump back and the exit label. -/
theorem At.fetch_tail (h : At routine pos slot bound reverse start stop body) {j : Nat}
    (hj : j < 6) :
    routine[pos + 4 + body.length + j]? = [.load slot .int, .push (.int 1),
      .arith (stepOp reverse) .int, .store slot .int, .jump start, .label stop][j]? := by
  rw [Nat.add_assoc, Nat.add_assoc, h.fetch (by simp [code]; omega), code,
    List.getElem?_append_right (by simp; omega)]
  congr 1
  simp
  omega

/-- From the head, the counter and the bound are compared, the frame as it was underneath. -/
theorem At.test (h : At routine pos slot bound reverse start stop body) {c : Int}
    {stack : List Value} {locals : List (Nat × Value)} {s : Store}
    (counter : locals.lookup slot = some (.int (Int32.ofInt c))) :
    Reaches m routine ⟨pos, ⟨stack, locals⟩, s⟩
      ⟨pos + 3, ⟨.int (Int32.ofInt bound) :: .int (Int32.ofInt c) :: stack, locals⟩,
        s⟩ := by
  refine .head (.next (h.fetch_head (i := 0) (by omega)) rfl) ?_
  refine .head (.next (h.fetch_head (i := 1) (by omega)) (step_load _ counter)) ?_
  exact .single (.next (h.fetch_head (i := 2) (by omega)) (step_push _))

/-- From the head, a counter within the bound enters the body with the frame as it was. -/
theorem At.enter (h : At routine pos slot bound reverse start stop body) {c : Int}
    {f : Activation} {s : Store} (hc : IsWord c) (he : IsWord bound)
    (counter : f.locals.lookup slot = some (.int (Int32.ofInt c)))
    (within : Within reverse c bound) :
    Relation.TransGen (Moves m routine) ⟨pos, f, s⟩ ⟨pos + 4, f, s⟩ := by
  obtain ⟨stack, locals⟩ := f
  have stays : intHolds (exitCondition reverse) (Int32.ofInt c) (Int32.ofInt bound) = false := by
    simp [exit_test hc he, within]
  refine .tail' (h.test counter) (.next (h.fetch_head (i := 3) (by omega)) ?_)
  rw [step_compare_int, stays]
  rfl

/-- From the head, a counter past the bound leaves the loop with the frame as it was. -/
theorem At.leave (h : At routine pos slot bound reverse start stop body) {c : Int}
    {f : Activation} {s : Store} (hc : IsWord c) (he : IsWord bound)
    (counter : f.locals.lookup slot = some (.int (Int32.ofInt c)))
    (past : ¬ Within reverse c bound) :
    Reaches m routine ⟨pos, f, s⟩ ⟨pos + body.length + 10, f, s⟩ := by
  obtain ⟨stack, locals⟩ := f
  have leaves : intHolds (exitCondition reverse) (Int32.ofInt c) (Int32.ofInt bound) = true := by
    simp [exit_test hc he, past]
  have label : routine[pos + body.length + 9]? = some (.label stop) := by
    rw [show pos + body.length + 9 = pos + 4 + body.length + 5 by omega]
    exact h.fetch_tail (by omega)
  have branch : step m ⟨.int (Int32.ofInt bound) :: .int (Int32.ofInt c) :: stack, locals⟩ s
      (.compareBranch (exitCondition reverse) .int stop) = .goto stop ⟨stack, locals⟩ s := by
    rw [step_compare_int, leaves]
    rfl
  exact (h.test counter).trans
    (.head (.goto (h.fetch_head (i := 3) (by omega)) branch h.exit) (.single (.next label rfl)))

/-- From the end of the body, the counter steps and the loop goes back to its head. -/
theorem At.back (h : At routine pos slot bound reverse start stop body) {c : Int}
    {f : Activation} {s : Store} (counter : f.locals.lookup slot = some (.int (Int32.ofInt c))) :
    Relation.TransGen (Moves m routine) ⟨pos + 4 + body.length, f, s⟩
      ⟨pos, ⟨f.stack, (slot, .int (Int32.ofInt (next reverse c))) :: f.locals⟩, s⟩ := by
  refine .head' (.next (h.fetch_tail (j := 0) (by omega)) (step_load _ counter)) ?_
  refine .head (.next (h.fetch_tail (j := 1) (by omega)) (step_push _)) ?_
  refine .head (.next (h.fetch_tail (j := 2) (by omega)) (step_arith_int (step_value _ _))) ?_
  refine .head (.next (h.fetch_tail (j := 3) (by omega)) (step_store _ _ _)) ?_
  exact .single (.goto (h.fetch_tail (j := 4) (by omega)) rfl h.head)

/-- The loop rule. When the bound is a word other than the last one in the direction of
counting, the loop runs its body once for each counter value from `c` to the bound, in order,
and leaves. The invariant `Inv` holds at the head for the counter's value there; the body, run
from a counter within the bound, leaves the counter alone and brings the invariant to the next
value. The induction is on the number of tests still to come. -/
theorem At.runs (h : At routine pos slot bound reverse start stop body) (he : IsWord bound)
    (hlast : bound ≠ last reverse) (Inv : Int → Activation → Store → Prop)
    (hbody : ∀ c f s, IsWord c → Within reverse c bound → Inv c f s →
      f.locals.lookup slot = some (.int (Int32.ofInt c)) →
      ∃ f' s', Reaches m routine ⟨pos + 4, f, s⟩ ⟨pos + 4 + body.length, f', s'⟩ ∧
        f'.locals.lookup slot = some (.int (Int32.ofInt c)) ∧
        Inv (next reverse c)
          ⟨f'.stack, (slot, .int (Int32.ofInt (next reverse c))) :: f'.locals⟩ s')
    {c : Int} {f : Activation} {s : Store} (hc : IsWord c) (hinv : Inv c f s)
    (counter : f.locals.lookup slot = some (.int (Int32.ofInt c))) :
    ∃ f' s', Reaches m routine ⟨pos, f, s⟩ ⟨pos + body.length + 10, f', s'⟩ ∧
      Inv (final reverse c bound) f' s' := by
  generalize hn : remaining reverse c bound = n
  induction n using Nat.strongRecOn generalizing c f s with
  | ind n ih =>
    by_cases within : Within reverse c bound
    · obtain ⟨f₁, s₁, run, counter₁, inv₁⟩ := hbody c f s hc within hinv counter
      have counter₂ : List.lookup slot ((slot, Value.int (Int32.ofInt (next reverse c))) ::
          f₁.locals) = some (.int (Int32.ofInt (next reverse c))) := List.lookup_cons_self
      obtain ⟨f₂, s₂, rest, post⟩ := ih _ (by rw [← hn, remaining_within within]; omega)
        (next_word within hc he hlast) inv₁ counter₂ rfl
      refine ⟨f₂, s₂, ?_, final_next within ▸ post⟩
      -- head, body, step, and the rest of the loop from the next head
      exact (h.enter hc he counter within).to_reflTransGen.trans
        (run.trans ((h.back counter₁).to_reflTransGen.trans rest))
    · exact ⟨f, s, h.leave hc he counter within, (final_past within).symm ▸ hinv⟩

/-- A loop whose bound is the last word in the direction of counting never ends, whatever its
body, as long as the body always ends without changing the counter: every word is within that
bound, so the exit test never holds, and the counter wraps around instead of passing it. -/
theorem At.never_ends (h : At routine pos slot (last reverse) reverse start stop body)
    (hbody : ∀ c f s, f.locals.lookup slot = some (.int (Int32.ofInt c)) →
      ∃ f' s', Reaches m routine ⟨pos + 4, f, s⟩ ⟨pos + 4 + body.length, f', s'⟩ ∧
        f'.locals.lookup slot = some (.int (Int32.ofInt c)))
    (fuel : Nat) {c : Int} {f : Activation} {s : Store}
    (counter : f.locals.lookup slot = some (.int (Int32.ofInt c))) :
    (execFrom m routine fuel ⟨pos, f, s⟩).1.ranOut = true := by
  -- the head is a cut point the loop always comes back to
  refine exec_ranOut_of_recurrent
    (fun p => p.pc = pos ∧ ∃ c : Int, p.frame.locals.lookup slot = some (.int (Int32.ofInt c)))
    ?_ fuel _ ⟨rfl, c, counter⟩
  rintro ⟨pc, f, s⟩ ⟨hpc, c, counter⟩
  dsimp only at hpc counter
  subst hpc
  -- read the counter as the word it holds
  have word := word_toInt (Int32.ofInt c)
  rw [← Int32.ofInt_toInt (Int32.ofInt c)] at counter
  obtain ⟨f₁, s₁, run, counter₁⟩ := hbody _ f s counter
  refine ⟨⟨pc, ⟨f₁.stack, (slot, .int (Int32.ofInt (next reverse (Int32.ofInt c).toInt))) ::
    f₁.locals⟩, s₁⟩, ⟨rfl, next reverse (Int32.ofInt c).toInt, by simp⟩, ?_⟩
  exact ((h.enter word (last_word reverse) counter (within_last word)).trans_left run).trans
    (h.back counter₁)

/-- A body that prints the counter prints it and leaves the frame as it was. -/
theorem At.print_counter (h : At routine pos slot bound reverse start stop
      [.load slot .int, .print .int]) {c : Int} {stack : List Value}
    {locals : List (Nat × Value)} {s : Store}
    (counter : locals.lookup slot = some (.int (Int32.ofInt c))) :
    Reaches m routine ⟨pos + 4, ⟨stack, locals⟩, s⟩
      ⟨pos + 4 + 2, ⟨stack, locals⟩,
        { s with out := s.out ++ [.int (Int32.ofInt c)] }⟩ := by
  refine .head (.next (h.fetch_body (j := 0) (by simp)) (step_load _ counter)) ?_
  exact .single (.next (h.fetch_body (j := 1) (by simp)) rfl)

/-- A loop whose body prints its counter prints the counter values from the start to the
bound, in order, once each, and leaves: the invariant is that what was printed so far is the
values done. -/
theorem At.prints (h : At routine pos slot bound reverse start stop [.load slot .int, .print .int])
    (he : IsWord bound) (hlast : bound ≠ last reverse) {c : Int} {f : Activation} {s : Store}
    (hc : IsWord c) (counter : f.locals.lookup slot = some (.int (Int32.ofInt c))) :
    ∃ f' s', Reaches m routine ⟨pos, f, s⟩ ⟨pos + 12, f', s'⟩ ∧
      s'.out = s.out ++ (values reverse c bound).map fun k => .int (Int32.ofInt k) := by
  let Done (c' : Int) (_ : Activation) (s' : Store) : Prop :=
    ∃ done, values reverse c bound = done ++ values reverse c' bound ∧
      s'.out = s.out ++ done.map fun k => .int (Int32.ofInt k)
  have body : ∀ c' f s', IsWord c' → Within reverse c' bound → Done c' f s' →
      f.locals.lookup slot = some (.int (Int32.ofInt c')) →
      ∃ f'' s'', Reaches m routine ⟨pos + 4, f, s'⟩ ⟨pos + 4 + 2, f'', s''⟩ ∧
        f''.locals.lookup slot = some (.int (Int32.ofInt c')) ∧
        Done (next reverse c') ⟨f''.stack, (slot, .int (Int32.ofInt (next reverse c'))) ::
          f''.locals⟩ s'' := by
    rintro c' ⟨stack, locals⟩ s' - within ⟨done, split, out⟩ counter'
    refine ⟨_, _, h.print_counter counter', counter', done ++ [c'], ?_, ?_⟩
    · rw [split, values_within within, List.append_assoc, List.singleton_append]
    · simp [out]
  have nothing : Done c f s := ⟨[], by simp, by simp⟩
  obtain ⟨f', s', run, done, split, out⟩ := h.runs he hlast Done body hc nothing counter
  refine ⟨f', s', run, ?_⟩
  rw [values_final, List.append_nil] at split
  rw [out, ← split]

end Loop

end CountingLoop

namespace Lower

/-- A `for` loop with literal bounds lowers to its start stored in a fresh slot and a counting
loop over that slot, with two consecutive new labels, around what its body lowers to. -/
theorem forRange_emits (cx : LowerCtx) (v : String) (first bound : Int) (reverse : Bool)
    (b : List Stmt) (st : LowerState) :
    LSat (stmt cx (.forRange v (.int first) (.int bound) reverse b)) st fun _ st' =>
      ∃ slot start body, st'.em.code.toList = st.em.code.toList ++
        .push (.int first) :: .store slot .int ::
          CountingLoop.code slot bound reverse start (start + 1) body := by
  simp only [stmt, expr, lsat_bind, emit, lsat_modify, lsat_pure, enterScope, exitScope, newLabel,
    lsat_get, note]
  -- declaring the counter adds no code, and the body adds its own
  refine (Yields.declareLocal (Q := fun _ => False) cx.alignWide v .integer .int _).mono
    fun slot s₁ declared => ?_
  obtain ⟨⟨-, -, none, code₁, nothing⟩, -⟩ := declared
  have empty : none = [] := List.eq_nil_iff_forall_not_mem.mpr nothing
  refine (stmts_yields cx b _).mono fun _ s₂ lowered => ?_
  obtain ⟨⟨-, -, body, code₂, -⟩, -⟩ := lowered
  refine ⟨slot, s₁.labels, body, ?_⟩
  cases reverse <;>
    simp [code₂, code₁, empty, CountingLoop.code, CountingLoop.exitCondition,
      CountingLoop.stepOp]

end Lower

/-- A module whose initializer runs out of every budget of fuel never ends. -/
theorem Module.diverges_of_initializer {m : Module} {init : RoutineCode}
    (h : m.initializer = some init)
    (runs : ∀ fuel, (runRoutine m fuel init m.initialStore).1.ranOut = true) : m.Diverges := by
  intro fuel
  have out := runs fuel
  rcases hr : runRoutine m fuel init m.initialStore with ⟨r, s⟩
  rw [hr] at out
  cases r with
  | returned _ => simp [Finish.ranOut] at out
  | stopped o =>
    cases o <;> simp [Finish.ranOut] at out
    simp [Module.run, h, hr]

/-- A module whose initializer returns, and that has no entry routine, ends normally with what
the initializer printed. -/
theorem Module.finishes_of_initializer {m : Module} {init : RoutineCode} {fuel : Nat}
    {v : Option Value} {s : Store} (h : m.initializer = some init) (noMain : m.entry? = none)
    (returns : runRoutine m fuel init m.initialStore = (.returned v, s)) :
    m.Finishes .normal s.out :=
  ⟨by decide, fuel, by simp [Module.run, h, returns, noMain]⟩

/-- An initializer that declares the global `i` and then stores a loop's start in slot `0`
comes to the loop's head. -/
theorem counter_declared {m : Module} {code rest : List Instr} {first : Int} {s : Store}
    (hglobal : globalDefined m "i" .int = true)
    (hcode : code = [.push (.int 0), .putGlobal "i" .int, .push (.int first), .store 0 .int] ++
      rest) :
    Reaches m code ⟨0, ⟨[], []⟩, s⟩
      ⟨4, ⟨[], [(0, .int (Int32.ofInt first))]⟩,
        { s with globals := setGlobal s.globals "i" (.int 0) }⟩ := by
  subst hcode
  refine .head (.next rfl (step_push _)) ?_
  refine .head (.next rfl (step_putGlobal hglobal)) ?_
  refine .head (.next rfl (step_push _)) ?_
  exact .single (.next rfl (step_store _ _ _))

/-- `var i : integer; for i := 3 downto 1 do print i`: a loop counting down. -/
def countdownLoop : Program :=
  ⟨[.varDecl "i" (some .integer) none,
    .forRange "i" (.int 3) (.int 1) true [.print (.var "i")]]⟩

/-- Counting down from `3` to `1` prints `3`, `2`, `1` and ends: the loop rule on a compiled
program. -/
theorem countdown_loop_prints_each_value :
    ∃ m : Module, (compile {} countdownLoop).1 = .ok m ∧
      m.Finishes .normal [.int 3, .int 2, .int 1] := by
  obtain ⟨m, compiled, init, hinit, hcode, hglobal, noMain⟩ : ∃ m : Module,
      (compile {} countdownLoop).1 = .ok m ∧ ∃ init, m.initializer = some init ∧
        init.code = [.push (.int 0), .putGlobal "i" .int, .push (.int 3), .store 0 .int] ++
          CountingLoop.code 0 1 true 0 1 [.load 0 .int, .print .int] ++ [.ret .void] ∧
        globalDefined m "i" .int = true ∧ m.entry? = none :=
    ⟨_, rfl, _, rfl, rfl, rfl, rfl⟩
  have loop : CountingLoop.At init.code 4 0 1 true 0 1 [.load 0 .int, .print .int] := by
    rw [hcode]
    exact ⟨⟨_, [.ret .void], rfl, rfl⟩, rfl, rfl⟩
  have head := counter_declared (s := m.initialStore) hglobal
    (hcode.trans (List.append_assoc _ _ _))
  obtain ⟨f, s, run, out⟩ := loop.prints (m := m) (by decide) (by decide) (c := 3)
    (f := ⟨[], [(0, .int (Int32.ofInt 3))]⟩) (by decide) rfl
  -- the loop leaves onto the initializer's return
  have ret : execFrom m init.code 1 ⟨4 + 12, f, s⟩ = (.returned none, s) := by
    rw [hcode]
    rfl
  obtain ⟨n, finished⟩ := Reaches.exec_finished (head.trans run) (k := 1) (by rw [ret]; rfl)
  have printed : s.out = [.int 3, .int 2, .int 1] := by
    rw [out]
    rfl
  exact ⟨m, compiled,
    printed ▸ Module.finishes_of_initializer hinit noMain (finished.trans ret)⟩

/-- `var i : integer; for i := 2147483647 to 2147483647 do print i`: a loop up to the last
word. -/
def loopToLastWord : Program :=
  ⟨[.varDecl "i" (some .integer) none,
    .forRange "i" (.int 2147483647) (.int 2147483647) false [.print (.var "i")]]⟩

/-- A loop up to `2147483647` never ends. The program is accepted, its initializer stores the
global `i` and then runs a counting loop over a fresh slot, and the module runs out of every
budget of fuel: the loop prints `2147483647`, wraps to `-2147483648`, and goes on. -/
theorem loop_to_last_word_never_ends :
    (analyze {} loopToLastWord).diagnostics = [] ∧
    ∃ m : Module, (compile {} loopToLastWord).1 = .ok m ∧
      m.initializer.map RoutineCode.code = some
        ([.push (.int 0), .putGlobal "i" .int, .push (.int 2147483647), .store 0 .int] ++
          CountingLoop.code 0 2147483647 false 0 1 [.load 0 .int, .print .int] ++ [.ret .void]) ∧
      m.Diverges := by
  obtain ⟨m, compiled, init, hinit, hcode, hglobal⟩ : ∃ m : Module,
      (compile {} loopToLastWord).1 = .ok m ∧ ∃ init, m.initializer = some init ∧
        init.code = [.push (.int 0), .putGlobal "i" .int, .push (.int 2147483647), .store 0 .int] ++
          CountingLoop.code 0 2147483647 false 0 1 [.load 0 .int, .print .int] ++ [.ret .void] ∧
        globalDefined m "i" .int = true :=
    ⟨_, rfl, _, rfl, rfl, rfl⟩
  refine ⟨rfl, m, compiled, by rw [hinit, Option.map_some, hcode], ?_⟩
  refine Module.diverges_of_initializer hinit fun fuel => ?_
  have loop : CountingLoop.At init.code 4 0 (CountingLoop.last false) false 0 1
      [.load 0 .int, .print .int] := by
    rw [hcode]
    exact ⟨⟨_, [.ret .void], rfl, rfl⟩, rfl, rfl⟩
  have head := counter_declared (s := m.initialStore) hglobal
    (hcode.trans (List.append_assoc _ _ _))
  exact head.ranOut (fun fuel => loop.never_ends
    (fun _ ⟨_, _⟩ _ counter => ⟨_, _, loop.print_counter counter, counter⟩) fuel rfl) fuel

end ImpStack
