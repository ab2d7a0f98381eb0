import ImpStack.Proofs.Runs
import ImpStack.Proofs.ExprMeaning
import ImpStack.Proofs.Conversions

/-! # Index loops

  Lowering fills and copies arrays with an index loop (`IndexLoop.code`): the index, in a slot
  of its own, starts at `0`; at the loop's head it is compared with the size, and the loop
  leaves once it is not below it; otherwise the body runs, the index steps by one and the loop
  jumps back to the head.

  Code is reasoned about where it sits in a routine (`Placed`): at a position, in a routine
  whose labels are all different. Every label the code defines is then found where the code
  puts it (`Placed.labelAt`), and every part of the code is placed too (`Placed.split`), so
  what is proved of a fragment holds wherever lowering puts it.

  The loop rule (`IndexLoop.At.runs`) is the one of `CountingLoop.At.runs` with the index counted
  from `0`: an invariant at the head for the number of rounds done, carried by the body from
  one round to the next, holds when the loop leaves after `size` rounds. A size that is a word
  keeps the index a word, so its step never wraps.
-/

namespace ImpStack

open Machine

/-! ## Code placed in a routine -/

/-- Code sits at position `pos` of a routine whose labels are all different. -/
structure Placed (routine : List Instr) (pos : Nat) (code : List Instr) : Prop where
  fetch : ∀ j < code.length, routine[pos + j]? = code[j]?
  distinct : (labelsOf routine).Nodup

/-- In code whose labels are all different, a label is found where it is defined. The
induction is on the code: a first instruction that defined the label too would define it
twice. -/
theorem labelAt_of_nodup : ∀ {routine : List Instr} {p : Nat} {l : Label},
    (labelsOf routine).Nodup → routine[p]? = some (.label l) → labelAt routine l = some p
  | [], _, _, _, hp => by simp at hp
  | i :: rest, 0, l, _, hp => by
    simp only [List.getElem?_cons_zero, Option.some.injEq] at hp
    subst hp
    simp [labelAt, List.findIdx?_cons]
  | i :: rest, p + 1, l, hd, hp => by
    simp only [List.getElem?_cons_succ] at hp
    simp only [labelsOf_cons, List.nodup_append] at hd
    have later : l ∈ labelsOf rest :=
      List.mem_flatMap.mpr ⟨.label l, List.mem_of_getElem? hp, by simp [Instr.defines]⟩
    have rest_at := labelAt_of_nodup hd.2.1 hp
    simp only [labelAt] at rest_at ⊢
    rw [List.findIdx?_cons, rest_at, if_neg]
    · rfl
    · -- the first instruction is not that label, since the label comes again later
      cases i with
      | label l' =>
        have := hd.2.2 l' (by simp [Instr.defines]) l later
        simpa using this
      | _ => simp

namespace Placed

variable {routine : List Instr} {pos : Nat}

/-- The two parts of placed code are placed. -/
theorem split {a b : List Instr} (h : Placed routine pos (a ++ b)) :
    Placed routine pos a ∧ Placed routine (pos + a.length) b := by
  refine ⟨⟨fun j hj => ?_, h.distinct⟩, ⟨fun j hj => ?_, h.distinct⟩⟩
  · rw [h.fetch j (by simp; omega), List.getElem?_append_left hj]
  · rw [Nat.add_assoc, h.fetch (a.length + j) (by simp; omega),
      List.getElem?_append_right (by omega), Nat.add_sub_cancel_left]

theorem left {a b : List Instr} (h : Placed routine pos (a ++ b)) : Placed routine pos a :=
  h.split.1

theorem right {a b : List Instr} (h : Placed routine pos (a ++ b)) :
    Placed routine (pos + a.length) b :=
  h.split.2

/-- A label of placed code is found where the code defines it. -/
theorem labelAt {code : List Instr} (h : Placed routine pos code) {j : Nat} {l : Label}
    (hj : code[j]? = some (.label l)) : Machine.labelAt routine l = some (pos + j) := by
  have hlen : j < code.length := (List.getElem?_eq_some_iff.mp hj).1
  exact labelAt_of_nodup h.distinct ((h.fetch j hlen).trans hj)

/-- An instruction of placed code. -/
theorem instr {code : List Instr} (h : Placed routine pos code) {j : Nat} {i : Instr}
    (hj : code[j]? = some i) : routine[pos + j]? = some i :=
  (h.fetch j (List.getElem?_eq_some_iff.mp hj).1).trans hj

end Placed

/-! ## The loop -/

namespace IndexLoop

/-- An index loop sits at position `pos` of a routine whose labels are all different. -/
def At (routine : List Instr) (pos index : Nat) (size : Int) (start stop : Label)
    (body : List Instr) : Prop :=
  Placed routine pos (code index size start stop body)

section Loop

variable {m : Module} {routine : List Instr} {pos index : Nat} {size : Int} {start stop : Label}
  {body : List Instr}

/-- The index loop's own instructions before the body. -/
theorem At.fetch_head (h : At routine pos index size start stop body) {i : Nat}
    (hi : i < 6) :
    routine[pos + i]? = [.push (.int 0), .store index .int, .label start, .load index .int,
      .push (.int size), .compareBranch .ge .int stop][i]? := by
  rw [Placed.fetch h i (by simp [code]; omega), code, List.append_assoc,
    List.getElem?_append_left (by simpa using hi)]

/-- The body. -/
theorem At.placed_body (h : At routine pos index size start stop body) :
    Placed routine (pos + 6) body := by
  unfold At at h
  rw [code, List.append_assoc] at h
  exact h.right.left

/-- The six instructions after the body: the step, the jump back and the exit label. -/
theorem At.fetch_tail (h : At routine pos index size start stop body) {j : Nat}
    (hj : j < 6) :
    routine[pos + 6 + body.length + j]? = [.load index .int, .push (.int 1), .arith .add .int,
      .store index .int, .jump start, .label stop][j]? := by
  unfold At at h
  rw [code] at h
  have tail := h.right
  simp only [List.length_append, List.length_cons, List.length_nil] at tail
  rw [show pos + 6 + body.length + j = pos + (0 + 1 + 1 + 1 + 1 + 1 + 1 + body.length) + j by
    omega]
  exact tail.fetch j (by simpa using hj)

theorem At.head_label (h : At routine pos index size start stop body) :
    labelAt routine start = some (pos + 2) :=
  Placed.labelAt h (j := 2) (by simp [code])

theorem At.exit_label (h : At routine pos index size start stop body) :
    labelAt routine stop = some (pos + body.length + 11) := by
  have := Placed.labelAt h (j := body.length + 11) (l := stop) (by simp [code])
  rwa [← Nat.add_assoc] at this

/-- The index starts at `0`. -/
theorem At.begin (h : At routine pos index size start stop body) {stack : List Value}
    {locals : List (Nat × Value)} {s : Store} :
    Reaches m routine ⟨pos, ⟨stack, locals⟩, s⟩
      ⟨pos + 2, ⟨stack, (index, .int (Int32.ofInt ((0 : Nat) : Int))) :: locals⟩, s⟩ := by
  refine .head (.next (h.fetch_head (i := 0) (by omega)) (step_push _)) ?_
  exact .single (.next (h.fetch_head (i := 1) (by omega)) (step_store _ _ _))

/-- From the head, the index and the size are compared, the frame as it was underneath. -/
theorem At.test (h : At routine pos index size start stop body) {i : Nat}
    {stack : List Value} {locals : List (Nat × Value)} {s : Store}
    (hi : locals.lookup index = some (.int (Int32.ofInt i))) :
    Reaches m routine ⟨pos + 2, ⟨stack, locals⟩, s⟩
      ⟨pos + 5, ⟨.int (Int32.ofInt size) :: .int (Int32.ofInt i) :: stack, locals⟩, s⟩ := by
  refine .head (.next (h.fetch_head (i := 2) (by omega)) rfl) ?_
  refine .head (.next (h.fetch_head (i := 3) (by omega)) (step_load _ hi)) ?_
  exact .single (.next (h.fetch_head (i := 4) (by omega)) (step_push _))

/-- The machine's test on the index: it leaves exactly when the index is not below the size. -/
theorem leaves_iff {i : Nat} (hsize : IsWord size) (hi : (i : Int) ≤ max size 0) :
    intHolds .ge (Int32.ofInt i) (Int32.ofInt size) = decide (size ≤ i) := by
  have word : IsWord i := by unfold IsWord at hsize ⊢; omega
  rw [intHolds_ofInt _ word hsize]
  by_cases hlt : (i : Int) < size
  · simp [holds, hlt]
  · have past : size ≤ i := by omega
    simp only [holds, hlt, if_false, past, decide_true]
    split <;> rfl

/-- From the head, an index below the size enters the body with the frame as it was. -/
theorem At.enter (h : At routine pos index size start stop body) {i : Nat}
    {f : Activation} {s : Store} (hsize : IsWord size) (below : (i : Int) < size)
    (hi : f.locals.lookup index = some (.int (Int32.ofInt i))) :
    Relation.TransGen (Moves m routine) ⟨pos + 2, f, s⟩ ⟨pos + 6, f, s⟩ := by
  obtain ⟨stack, locals⟩ := f
  have stays : intHolds .ge (Int32.ofInt i) (Int32.ofInt size) = false := by
    rw [leaves_iff hsize (by omega)]
    simpa using below
  refine .tail' (h.test hi) (.next (h.fetch_head (i := 5) (by omega)) ?_)
  rw [step_compare_int, stays]
  rfl

/-- From the head, an index at the size leaves the loop with the frame as it was. -/
theorem At.leave (h : At routine pos index size start stop body) {i : Nat}
    {f : Activation} {s : Store} (hsize : IsWord size) (hi : (i : Int) ≤ max size 0)
    (past : size ≤ i) (counter : f.locals.lookup index = some (.int (Int32.ofInt i))) :
    Reaches m routine ⟨pos + 2, f, s⟩ ⟨pos + body.length + 12, f, s⟩ := by
  obtain ⟨stack, locals⟩ := f
  have leaves : intHolds .ge (Int32.ofInt i) (Int32.ofInt size) = true := by
    rw [leaves_iff hsize hi]
    simpa using past
  have label : routine[pos + body.length + 11]? = some (.label stop) := by
    rw [show pos + body.length + 11 = pos + 6 + body.length + 5 by omega]
    exact h.fetch_tail (by omega)
  have branch : step m ⟨.int (Int32.ofInt size) :: .int (Int32.ofInt i) :: stack, locals⟩ s
      (.compareBranch .ge .int stop) = .goto stop ⟨stack, locals⟩ s := by
    rw [step_compare_int, leaves]
    rfl
  exact (h.test counter).trans
    (.head (.goto (h.fetch_head (i := 5) (by omega)) branch h.exit_label)
      (.single (.next label rfl)))

/-- From the end of the body, the index steps and the loop goes back to its head. -/
theorem At.back (h : At routine pos index size start stop body) {i : Nat}
    {f : Activation} {s : Store} (hi : f.locals.lookup index = some (.int (Int32.ofInt i))) :
    Relation.TransGen (Moves m routine) ⟨pos + 6 + body.length, f, s⟩
      ⟨pos + 2, ⟨f.stack, (index, .int (Int32.ofInt ((i + 1 : Nat) : Int))) :: f.locals⟩, s⟩ := by
  have stepped : intArith .add (Int32.ofInt i) (Int32.ofInt 1) =
      .ok (Int32.ofInt ((i + 1 : Nat) : Int)) := by
    simp [intArith, Int32.ofInt_add]
  refine .head' (.next (h.fetch_tail (j := 0) (by omega)) (step_load _ hi)) ?_
  refine .head (.next (h.fetch_tail (j := 1) (by omega)) (step_push _)) ?_
  refine .head (.next (h.fetch_tail (j := 2) (by omega)) (step_arith_int stepped)) ?_
  refine .head (.next (h.fetch_tail (j := 3) (by omega)) (step_store _ _ _)) ?_
  exact .single (.goto (h.fetch_tail (j := 4) (by omega)) rfl h.head_label)

/-- The loop rule from the head, for an index `i` of rounds done. The induction is on the
rounds still to come. -/
theorem At.runs_from_head (h : At routine pos index size start stop body)
    (hsize : IsWord size) (Inv : Nat → Activation → Store → Prop)
    (hbody : ∀ (i : Nat) f s, (i : Int) < size → Inv i f s →
      f.locals.lookup index = some (.int (Int32.ofInt i)) →
      ∃ f' s', Reaches m routine ⟨pos + 6, f, s⟩ ⟨pos + 6 + body.length, f', s'⟩ ∧
        f'.locals.lookup index = some (.int (Int32.ofInt i)) ∧
        Inv (i + 1) ⟨f'.stack, (index, .int (Int32.ofInt ((i + 1 : Nat) : Int))) :: f'.locals⟩ s')
    {i : Nat} {f : Activation} {s : Store} (hi : (i : Int) ≤ max size 0) (hinv : Inv i f s)
    (counter : f.locals.lookup index = some (.int (Int32.ofInt i))) :
    ∃ f' s', Reaches m routine ⟨pos + 2, f, s⟩ ⟨pos + body.length + 12, f', s'⟩ ∧
      Inv size.toNat f' s' := by
  generalize hn : size.toNat - i = n
  induction n generalizing i f s with
  | zero =>
    -- no round is left: the index is the size
    have done : i = size.toNat := by omega
    subst done
    exact ⟨f, s, h.leave hsize hi (by omega) counter, hinv⟩
  | succ n ih =>
    have below : (i : Int) < size := by omega
    obtain ⟨f₁, s₁, run, counter₁, inv₁⟩ := hbody i f s below hinv counter
    obtain ⟨f₂, s₂, rest, post⟩ := ih (by omega) inv₁ List.lookup_cons_self (by omega)
    -- test, body, step, and the rest of the loop from the next head
    exact ⟨f₂, s₂, (h.enter hsize below counter).to_reflTransGen.trans
      (run.trans ((h.back counter₁).to_reflTransGen.trans rest)), post⟩

/-- The loop rule. When the size is a word, the loop runs its body for the indexes from `0`
below the size, in order, and leaves. The invariant `Inv` holds at the head for the number of
rounds done; the body, run from an index below the size, leaves the index alone and brings the
invariant to the next index. When the loop leaves, the invariant holds for `size` rounds (none
for a negative size). -/
theorem At.runs (h : At routine pos index size start stop body)
    (hsize : IsWord size) (Inv : Nat → Activation → Store → Prop)
    (hbody : ∀ (i : Nat) f s, (i : Int) < size → Inv i f s →
      f.locals.lookup index = some (.int (Int32.ofInt i)) →
      ∃ f' s', Reaches m routine ⟨pos + 6, f, s⟩ ⟨pos + 6 + body.length, f', s'⟩ ∧
        f'.locals.lookup index = some (.int (Int32.ofInt i)) ∧
        Inv (i + 1) ⟨f'.stack, (index, .int (Int32.ofInt ((i + 1 : Nat) : Int))) :: f'.locals⟩ s')
    {f : Activation} {s : Store}
    (hinv : Inv 0 ⟨f.stack, (index, .int (Int32.ofInt ((0 : Nat) : Int))) :: f.locals⟩ s) :
    ∃ f' s', Reaches m routine ⟨pos, f, s⟩ ⟨pos + body.length + 12, f', s'⟩ ∧
      Inv size.toNat f' s' := by
  obtain ⟨f', s', run, post⟩ := h.runs_from_head hsize Inv hbody (by omega) hinv
    List.lookup_cons_self
  exact ⟨f', s', h.begin.trans run, post⟩

end Loop

end IndexLoop

end ImpStack
