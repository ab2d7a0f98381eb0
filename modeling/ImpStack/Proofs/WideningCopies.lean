import ImpStack.Proofs.IndexLoops

/-! # Widening copies

  An array of integers stored where an array of reals is wanted is copied by the conversion
  code (`Converts`) into a new array, each element converted. This module says what that code
  does on the machine.

  Values are described on the heap by their type (`Value.Typed`): integers, reals, and
  references to arrays with exactly the type's number of elements. What the copy reads is
  weaker (`Value.Covers`): a source array needs at least the elements the *target* type has,
  since the copy at every level counts the elements by the target's size. The copy's result is
  `Widened`: integers made reals of the same value, arrays copied into new arrays of the
  target's size, each element the widened source element at the same index, every copy at an
  address the heap did not have before.

  Each case of the conversion code gets its run lemma: converting one integer, and copying an
  array by an index loop whose invariant (`WideningCopy.Filled`) says the rounds done have
  filled the new array's first elements; the element's own conversion, a nested copy with its
  own slots and labels, runs inside each round and leaves the filled part alone, as it only
  allocates above it. `Converts.runs` puts them together by induction on the code.

  On compatible types, whose array sizes agree level by level, the source has exactly the
  elements the copy reads, and the copy is a full one: `widening_copy_widens` says it of
  lowering itself. Where the sizes differ the copy takes the target's
  (`widened_element_takes_target_size`).
-/

namespace ImpStack

open Machine

/-! ## Array instructions -/

section Steps

variable {m : Module} {s : Store} {stack : List Value} {locals : List (Nat × Value)}

theorem step_dup (v : Value) :
    step m ⟨v :: stack, locals⟩ s .dup = .next ⟨v :: v :: stack, locals⟩ s := rfl

theorem step_intToReal (x : Int32) :
    step m ⟨.int x :: stack, locals⟩ s (.convert .intToReal) =
      .next ⟨.real (Binary64.ofInt x.toInt) :: stack, locals⟩ s := rfl

theorem step_newArray {e : ValueKind} {n : Int} (defined : classesDefined m e = true)
    (word : IsWord n) (size : 0 ≤ n) :
    step m ⟨.int (Int32.ofInt n) :: stack, locals⟩ s (.newArray e) =
      .next ⟨.ref s.heap.length :: stack, locals⟩
        { s with heap := s.heap ++ [.array (List.replicate n.toNat (Value.initial e))] } := by
  have hn : (Int32.ofInt n).toInt = n := toInt_ofInt_word word
  simp [step, defined, hn, Store.alloc, Step.push, Int.not_lt.mpr size]

theorem step_arrayLoad {k : ValueKind} {a i : Nat} {items : List Value} {v : Value}
    (found : s.heap[a]? = some (.array items)) (hv : items[i]? = some v) (word : IsWord i) :
    step m ⟨.int (Int32.ofInt i) :: .ref a :: stack, locals⟩ s (.arrayLoad k) =
      .next ⟨v :: stack, locals⟩ s := by
  have hi : (Int32.ofInt i).toInt = i := toInt_ofInt_word word
  simp [step, loadElement, Store.obj?, found, hi, hv, Step.push]

theorem step_arrayStore {k : ValueKind} {b i : Nat} {items : List Value} {v : Value}
    (found : s.heap[b]? = some (.array items)) (hi : i < items.length) (word : IsWord i) :
    step m ⟨v :: .int (Int32.ofInt i) :: .ref b :: stack, locals⟩ s (.arrayStore k) =
      .next ⟨stack, locals⟩ { s with heap := s.heap.set b (.array (items.set i v)) } := by
  have hi' : (Int32.ofInt i).toInt = i := toInt_ofInt_word word
  simp [step, storeElement, Store.obj?, found, hi', hi, Store.update]

end Steps

/-! ## Values on the heap -/

namespace Value

/-- A value of type `t` on a heap: an integer, a real, or a reference to an array with exactly
the type's number of elements, each a value of the element type. -/
inductive Typed (heap : List Obj) : Ty → Value → Prop
  | int (x : Int32) : Typed heap .integer (.int x)
  | real (x : Float) : Typed heap .real (.real x)
  | array {t : Ty} {n : Int} {a : Nat} {items : List Value}
      (found : heap[a]? = some (.array items)) (length : (items.length : Int) = n)
      (each : ∀ v ∈ items, Typed heap t v) : Typed heap (.array t n) (.ref a)

/-- A value holds enough to be widened to type `t`: an integer where a real is wanted, or a
reference to an array with at least the elements the array type `t` has, each holding enough
for the element type. -/
inductive Covers (heap : List Obj) : Ty → Value → Prop
  | int (x : Int32) : Covers heap .real (.int x)
  | array {t : Ty} {n : Int} {a : Nat} {items : List Value}
      (found : heap[a]? = some (.array items)) (size : 0 ≤ n) (enough : n ≤ items.length)
      (each : ∀ v ∈ items, Covers heap t v) : Covers heap (.array t n) (.ref a)

/-- A value of type `src` holds enough to be widened to a compatible type `dst` that needs
widening: compatible array types have the same sizes. -/
theorem Typed.covers {heap : List Obj} {src : Ty} {v : Value} (h : Typed heap src v) :
    ∀ {dst : Ty}, dst.compatible src = true → dst.needsWidening src = true →
      Covers heap dst v := by
  induction h with
  | int x =>
    intro dst hc hw
    cases dst with
    | prim p =>
      cases p <;> simp [Ty.needsWidening, Ty.implicitCoercion, Ty.isReal, Ty.asPrim?] at hw
      exact .int x
    | _ => simp [Ty.compatible, Ty.integer, Ty.recordName?] at hc
  | real x =>
    intro dst _ hw
    cases dst <;> simp [Ty.needsWidening, Ty.implicitCoercion, Ty.isReal, Ty.isInteger,
      Ty.asPrim?, Ty.real] at hw
  | @array t n a items found length each ih =>
    intro dst hc hw
    cases dst with
    | array t' n' =>
      simp only [Ty.compatible, Bool.and_eq_true, beq_iff_eq] at hc
      obtain ⟨rfl, hc⟩ := hc
      exact .array found (by omega) (by omega) fun v hv => ih v hv hc hw
    | _ => simp [Ty.compatible, Ty.recordName?] at hc

end Value

/-! ## Widened copies -/

/-- `w`, on the heap `new`, is the value `v` on the heap `old` widened to type `t`: an
integer made the real of the same value, or an array copied into an array of `new` at an
address from `lo` on, with the type's number of elements, each the widened element of the
source at the same index. -/
inductive Widened (old new : List Obj) (lo : Nat) : Ty → Value → Value → Prop
  | int (x : Int32) : Widened old new lo .real (.int x) (.real (Binary64.ofInt x.toInt))
  | array {t : Ty} {n : Int} {a b : Nat} {items copies : List Value}
      (source : old[a]? = some (.array items)) (copy : new[b]? = some (.array copies))
      (fresh : lo ≤ b) (length : (copies.length : Int) = n)
      (within : copies.length ≤ items.length)
      (each : ∀ (i : Nat) v w, items[i]? = some v → copies[i]? = some w →
        Widened old new lo t v w) :
      Widened old new lo (.array t n) (.ref a) (.ref b)

namespace Widened

variable {old new : List Obj} {lo : Nat}

/-- The copies all lie from `lo` on: objects below may change and objects may be added
without touching them. -/
theorem frame {new' : List Obj} (agree : ∀ b, lo ≤ b → b < new.length → new'[b]? = new[b]?)
    {t : Ty} {v w : Value} (h : Widened old new lo t v w) : Widened old new' lo t v w := by
  induction h with
  | int x => exact .int x
  | array source copy fresh length within _ ih =>
    have hb := (List.getElem?_eq_some_iff.mp copy).1
    exact .array source ((agree _ fresh hb).trans copy) fresh length within ih

theorem mono {lo' : Nat} (hle : lo' ≤ lo) {t : Ty} {v w : Value}
    (h : Widened old new lo t v w) : Widened old new lo' t v w := by
  induction h with
  | int x => exact .int x
  | array source copy fresh length within _ ih =>
    exact .array source copy (by omega) length within ih

/-- A widened value is a value of its type. -/
theorem typed {t : Ty} {v w : Value} (h : Widened old new lo t v w) : Value.Typed new t w := by
  induction h with
  | int x => exact .real _
  | @array t n a b items copies source copy fresh length within _ ih =>
    refine .array copy length fun w hw => ?_
    obtain ⟨i, hi⟩ := List.mem_iff_getElem?.mp hw
    have hlt : i < items.length := by
      have := (List.getElem?_eq_some_iff.mp hi).1
      omega
    obtain ⟨v, hv⟩ : ∃ v, items[i]? = some v := ⟨items[i], List.getElem?_eq_getElem hlt⟩
    exact ih i v w hv hi

end Widened

/-! ## Heaps that grow -/

theorem getElem?_of_grown {l h : List Obj} (grown : l <+: h) {i : Nat} {o : Obj}
    (found : l[i]? = some o) : h[i]? = some o := by
  obtain ⟨t, rfl⟩ := grown
  rw [List.getElem?_append_left (List.getElem?_eq_some_iff.mp found).1, found]

/-- Changing an object above a prefix keeps the prefix. -/
theorem grown_set {l h : List Obj} (grown : l <+: h) {b : Nat} (hb : l.length ≤ b) (o : Obj) :
    l <+: h.set b o := by
  obtain ⟨t, rfl⟩ := grown
  rw [List.set_append_right _ _ hb]
  exact List.prefix_append _ _

/-- The kind of a type that needs widening names no record class, so the arrays of a copy can
always be created. -/
theorem classesDefined_of_widening (m : Module) : ∀ {e a : Ty}, e.needsWidening a = true →
    ∀ {k : ValueKind}, ValueKind.ofResolved e = .ok k → classesDefined m k = true
  | .prim p, _, _, k, hk => by
    cases p <;> simp only [ValueKind.ofResolved, Except.ok.injEq] at hk <;> subst hk <;> rfl
  | .array e n, .array a _, hw, k, hk => by
    simp only [ValueKind.ofResolved] at hk
    cases he : ValueKind.ofResolved e with
    | error _ => simp [he, Functor.map, Except.map] at hk
    | ok k' =>
      simp only [he, Functor.map, Except.map, Except.ok.injEq] at hk
      subst hk
      simp only [classesDefined]
      exact classesDefined_of_widening m (e := e) (a := a) hw he
  | .array _ _, .prim _, hw, _, _ | .array _ _, .record .., hw, _, _
  | .array _ _, .named _, hw, _, _ | .record .., _, hw, _, _ => by
    simp [Ty.needsWidening, Ty.implicitCoercion, Ty.isReal, Ty.asPrim?] at hw
  | .named _, _, _, _, hk => by simp [ValueKind.ofResolved] at hk

/-- Storing a slot leaves the lookup of every other slot as it was. -/
theorem lookup_cons_of_ne {slot slot' : Nat} (h : slot ≠ slot') (v : Value)
    (locals : List (Nat × Value)) : ((slot', v) :: locals).lookup slot = locals.lookup slot := by
  simp [List.lookup_cons, beq_false_of_ne h]

/-! ## Conversion code on the machine -/

/-- Code placed at `pos`, of length `len`, widens a value to type `t`: from any state whose
heap extends `old` and whose top holds enough for `t` on `old`, it reaches its end with the
widened value on top and the rest of the stack as it was, every slot below `base` as it was,
and the store as it was but for new objects at its end, the copies among them. -/
def WidensAt (m : Module) (routine : List Instr) (pos len base : Nat) (old : List Obj)
    (t : Ty) : Prop :=
  ∀ (v : Value) rest locals (s : Store), Value.Covers old t v → old <+: s.heap →
    ∃ w extra locals', Reaches m routine ⟨pos, ⟨v :: rest, locals⟩, s⟩
        ⟨pos + len, ⟨w :: rest, locals'⟩, { s with heap := s.heap ++ extra }⟩ ∧
      Widened old (s.heap ++ extra) s.heap.length t v w ∧
      ∀ slot < base, locals'.lookup slot = locals.lookup slot

variable {m : Module} {routine : List Instr} {pos : Nat} {old : List Obj}

/-- An integer is converted to a real in one step. -/
theorem intToReal_widens (placed : Placed routine pos [.convert .intToReal]) (base : Nat) :
    WidensAt m routine pos 1 base old .real := by
  intro v rest locals s covers _
  cases covers with
  | int x =>
    refine ⟨.real (Binary64.ofInt x.toInt), [], locals, ?_, ?_, fun _ _ => rfl⟩
    · simp only [List.append_nil]
      exact .single (.next (placed.instr (j := 0) rfl) (step_intToReal x))
    · exact .int x

namespace WideningCopy

@[simp] theorem length_code (source : Nat) (src dst : ValueKind) (size : Int) (lo : Label)
    (inner : List Instr) : (code source src dst size lo inner).length = inner.length + 21 := by
  simp [code, IndexLoop.code]

/-- A copy's loop, placed three instructions in. -/
theorem loop_at {base : Nat} {ks kd : ValueKind} {n : Int} {lo : Label} {inner : List Instr}
    (placed : Placed routine pos (code base ks kd n lo inner)) :
    IndexLoop.At routine (pos + 3) (base + 1) n lo (lo + 1)
      ([.dup, .load (base + 1) .int, .load base (.array ks), .load (base + 1) .int,
          .arrayLoad ks] ++ inner ++ [.arrayStore kd]) :=
  placed.right

/-- The copy of the array `a` of `old`, with the elements `items`, into the new array `b`, for
a run that started from the stack `rest` under the source, the slots `locals` and the store
`s`: after `i` rounds, at the loop's head, the new array is on the stack over the rest, the
source is in its slot, the slots below are as they were, the store is as it was but for a
heap grown from `s`'s, and the new array's first `i` elements are the widened first elements
of the source, their copies all above the new array. -/
structure Filled (old : List Obj) (t : Ty) (items : List Value) (n : Int) (base a b : Nat)
    (rest : List Value) (locals : List (Nat × Value)) (s : Store) (i : Nat) (f : Activation)
    (s' : Store) : Prop where
  stack : f.stack = .ref b :: rest
  source : f.locals.lookup base = some (.ref a)
  below : ∀ slot < base, f.locals.lookup slot = locals.lookup slot
  globals : s'.globals = s.globals
  out : s'.out = s.out
  grown : s.heap <+: s'.heap
  copies : ∃ copies, s'.heap[b]? = some (.array copies) ∧ copies.length = n.toNat ∧
    ∀ j < i, ∃ v w, items[j]? = some v ∧ copies[j]? = some w ∧ Widened old s'.heap (b + 1) t v w

section Copy

variable {base : Nat} {ks kd : ValueKind} {n : Int} {lo : Label} {inner : List Instr}

/-- The source goes to its slot and the new array is made, at the heap's next address. -/
theorem setup (placed : Placed routine pos (code base ks kd n lo inner))
    (defined : classesDefined m kd = true) (word : IsWord n) (size : 0 ≤ n) {a : Nat}
    {rest : List Value} {locals : List (Nat × Value)} {s : Store} :
    Reaches m routine ⟨pos, ⟨.ref a :: rest, locals⟩, s⟩
      ⟨pos + 3, ⟨.ref s.heap.length :: rest, (base, .ref a) :: locals⟩,
        { s with heap := s.heap ++ [.array (List.replicate n.toNat (Value.initial kd))] }⟩ := by
  refine .head (.next (placed.instr (j := 0) (by simp [code])) (step_store base (.array ks) _)) ?_
  refine .head (.next (placed.instr (j := 1) (by simp [code])) (step_push (.int n))) ?_
  exact .single (.next (placed.instr (j := 2) (by simp [code])) (step_newArray defined word size))

/-- Before the first round: the new array, fresh at the heap's next address, holds no copy
yet, the source is in its slot and the index in the next. -/
theorem Filled.start {t : Ty} {items : List Value} {a : Nat} {rest : List Value}
    {locals : List (Nat × Value)} {s : Store} (fill : Value) :
    Filled old t items n base a s.heap.length rest locals s 0
      ⟨.ref s.heap.length :: rest, (base + 1, .int (Int32.ofInt ((0 : Nat) : Int))) ::
        (base, .ref a) :: locals⟩
      { s with heap := s.heap ++ [.array (List.replicate n.toNat fill)] } := by
  refine ⟨rfl, ?_, fun slot hs => ?_, rfl, rfl, List.prefix_append _ _,
    List.replicate n.toNat fill, ?_, by simp, fun j hj => absurd hj (Nat.not_lt_zero _)⟩
  · rw [lookup_cons_of_ne (by omega), List.lookup_cons_self]
  · rw [lookup_cons_of_ne (by omega), lookup_cons_of_ne (by omega)]
  · simp

/-- A round's store makes one more round done: the `i`-th element, widened on a heap grown by
`extra`, goes into the new array, and the copies of the rounds before stay as they were, since
the new array lies below everything the element's conversion allocated. -/
theorem Filled.next {t : Ty} {items : List Value} {a : Nat} {rest : List Value}
    {locals : List (Nat × Value)} {s : Store} {i : Nat} {L L' : List (Nat × Value)}
    {s' : Store} {copies : List Value} {v w : Value} {extra : List Obj}
    (filled : Filled old t items n base a s.heap.length rest locals s i
      ⟨.ref s.heap.length :: rest, L⟩ s')
    (below : (i : Int) < n) (hb : s'.heap[s.heap.length]? = some (.array copies))
    (hv : items[i]? = some v) (widened : Widened old (s'.heap ++ extra) s'.heap.length t v w)
    (kept : ∀ slot < base + 2, L'.lookup slot = L.lookup slot) :
    Filled old t items n base a s.heap.length rest locals s (i + 1)
      ⟨.ref s.heap.length :: rest, (base + 1, .int (Int32.ofInt ((i + 1 : Nat) : Int))) :: L'⟩
      { s' with heap := (s'.heap ++ extra).set s.heap.length (.array (copies.set i w)) } := by
  obtain ⟨-, hsource, hbelow, hglobals, hout, hgrown, copies', hb', hlen, hdone⟩ := filled
  dsimp only at hsource hbelow
  rw [hb] at hb'
  cases hb'
  have hbs : s.heap.length < s'.heap.length := (List.getElem?_eq_some_iff.mp hb).1
  have hcopies : i < copies.length := by omega
  refine ⟨rfl, ?_, fun slot hs => ?_, hglobals, hout, ?_, ⟨copies.set i w, ?_, ?_, ?_⟩⟩
  · rw [lookup_cons_of_ne (by omega), kept _ (by omega), hsource]
  · rw [lookup_cons_of_ne (by omega), kept _ (by omega), hbelow _ hs]
  · exact grown_set (hgrown.trans (List.prefix_append _ _)) (Nat.le_refl _) _
  · exact List.getElem?_set_self (by simp; omega)
  · simpa using hlen
  · intro j hj
    have untouched : ∀ c, s.heap.length + 1 ≤ c → c < s'.heap.length →
        ((s'.heap ++ extra).set s.heap.length (.array (copies.set i w)))[c]? = s'.heap[c]? := by
      intro c hc hc'
      rw [List.getElem?_set_ne (by omega), List.getElem?_append_left hc']
    rcases Nat.lt_succ_iff_lt_or_eq.mp hj with hj | rfl
    · -- an earlier round's copy, framed past the store and the new objects
      obtain ⟨v', w', hv', hw', hwid⟩ := hdone j hj
      refine ⟨v', w', hv', ?_, hwid.frame untouched⟩
      rw [List.getElem?_set_ne (by omega), hw']
    · -- this round's copy, whose objects all lie above the new array
      refine ⟨v, w, hv, List.getElem?_set_self hcopies, ?_⟩
      refine (widened.mono (by omega)).frame fun c hc hc' => ?_
      rw [List.getElem?_set_ne (by omega)]

/-- One round of the copy, from the head of its body: the element at the index is loaded from
the source, widened by `inner`, and stored into the new array, one more round done. The
element's own conversion keeps the slots of the source and the index, which lie below its own,
and allocates only above the new array, so the copies already made stay as they were. -/
theorem round {t : Ty} {items : List Value} {a : Nat} {rest : List Value}
    {locals : List (Nat × Value)} {s : Store}
    (placed : Placed routine pos (code base ks kd n lo inner)) (word : IsWord n)
    (found : old[a]? = some (.array items)) (enough : n ≤ items.length)
    (each : ∀ v ∈ items, Value.Covers old t v) (older : old <+: s.heap)
    (inner_widens : WidensAt m routine (pos + 14) inner.length (base + 2) old t)
    {i : Nat} {f : Activation} {s' : Store} (below : (i : Int) < n)
    (filled : Filled old t items n base a s.heap.length rest locals s i f s')
    (counter : f.locals.lookup (base + 1) = some (.int (Int32.ofInt i))) :
    ∃ f' s'', Reaches m routine ⟨pos + 3 + 6, f, s'⟩
        ⟨pos + 3 + 6 + ([Instr.dup, .load (base + 1) .int, .load base (.array ks),
          .load (base + 1) .int, .arrayLoad ks] ++ inner ++ [Instr.arrayStore kd]).length, f', s''⟩ ∧
      f'.locals.lookup (base + 1) = some (.int (Int32.ofInt i)) ∧
      Filled old t items n base a s.heap.length rest locals s (i + 1)
        ⟨f'.stack, (base + 1, .int (Int32.ofInt ((i + 1 : Nat) : Int))) :: f'.locals⟩ s'' := by
  obtain ⟨stack, L⟩ := f
  have hstack : stack = .ref s.heap.length :: rest := filled.stack
  have hsource : L.lookup base = some (.ref a) := filled.source
  subst hstack
  obtain ⟨copies, hb, hlen, -⟩ := filled.copies
  dsimp only at counter
  have word_i : IsWord i := by unfold IsWord at word ⊢; omega
  have hi : i < items.length := by omega
  obtain ⟨v, hv⟩ : ∃ v, items[i]? = some v := ⟨items[i], List.getElem?_eq_getElem hi⟩
  have older' : old <+: s'.heap := older.trans filled.grown
  have body := (loop_at placed).placed_body
  -- the new array twice, the index, and the element read from the source, which the heap
  -- still holds as it was
  have load : Reaches m routine ⟨pos + 3 + 6, ⟨.ref s.heap.length :: rest, L⟩, s'⟩
      ⟨pos + 14, ⟨v :: .int (Int32.ofInt i) :: .ref s.heap.length :: .ref s.heap.length :: rest,
        L⟩, s'⟩ := by
    refine .head (.next (body.instr (j := 0) rfl) (step_dup _)) ?_
    refine .head (.next (body.instr (j := 1) rfl) (step_load _ counter)) ?_
    refine .head (.next (body.instr (j := 2) rfl) (step_load _ hsource)) ?_
    refine .head (.next (body.instr (j := 3) rfl) (step_load _ counter)) ?_
    exact .single (.next (body.instr (j := 4) rfl)
      (step_arrayLoad (getElem?_of_grown older' found) hv word_i))
  -- the element widened
  obtain ⟨w, extra, L', widen, widened, kept⟩ := inner_widens v
    (.int (Int32.ofInt i) :: .ref s.heap.length :: .ref s.heap.length :: rest) L s'
    (each v (List.mem_of_getElem? hv)) older'
  -- and stored into the new array, which the heap still holds after the element's copies
  have hb₁ : (s'.heap ++ extra)[s.heap.length]? = some (.array copies) :=
    getElem?_of_grown (List.prefix_append _ _) hb
  have hcopies : i < copies.length := by omega
  have fetch_store : routine[pos + 14 + inner.length]? = some (.arrayStore kd) := by
    have := body.instr (j := 5 + inner.length) (i := .arrayStore kd)
      (by rw [List.getElem?_append_right (by simp; omega)]; simp +arith)
    rwa [show pos + 3 + 6 + (5 + inner.length) = pos + 14 + inner.length by omega] at this
  have store : Reaches m routine
      ⟨pos + 14 + inner.length, ⟨w :: .int (Int32.ofInt i) :: .ref s.heap.length ::
        .ref s.heap.length :: rest, L'⟩, { s' with heap := s'.heap ++ extra }⟩
      ⟨pos + 14 + inner.length + 1, ⟨.ref s.heap.length :: rest, L'⟩,
        { s' with heap := (s'.heap ++ extra).set s.heap.length (.array (copies.set i w)) }⟩ :=
    .single (.next fetch_store (step_arrayStore hb₁ hcopies word_i))
  refine ⟨⟨.ref s.heap.length :: rest, L'⟩,
    { s' with heap := (s'.heap ++ extra).set s.heap.length (.array (copies.set i w)) }, ?_, ?_,
    filled.next below hb hv widened kept⟩
  · rw [show pos + 3 + 6 + ([Instr.dup, .load (base + 1) .int, .load base (.array ks),
        .load (base + 1) .int, .arrayLoad ks] ++ inner ++ [Instr.arrayStore kd]).length =
        pos + 14 + inner.length + 1 by simp; omega]
    exact load.trans (widen.trans store)
  · rw [kept _ (by omega), counter]

/-- The copy of an array, given that `inner` widens one element: the source, holding enough
for the target type, is replaced on the stack by a new array of the target's size whose
elements are the widened elements of the source. -/
theorem widens {t : Ty} (placed : Placed routine pos (code base ks kd n lo inner))
    (defined : classesDefined m kd = true) (word : IsWord n)
    (inner_widens : WidensAt m routine (pos + 14) inner.length (base + 2) old t) :
    WidensAt m routine pos (inner.length + 21) base old (.array t n) := by
  intro v rest locals s covers older
  cases covers with
  | @array _ _ a items found size enough each =>
  obtain ⟨f', s', run, filled⟩ := (loop_at placed).runs word
    (f := ⟨.ref s.heap.length :: rest, (base, .ref a) :: locals⟩)
    (s := { s with heap := s.heap ++ [.array (List.replicate n.toNat (Value.initial kd))] })
    (Filled old t items n base a s.heap.length rest locals s)
    (fun i f s' below filled counter =>
      round placed word found enough each older inner_widens below filled counter)
    (Filled.start _)
  -- after the last round the new array is the whole copy
  obtain ⟨hstack, -, hbelow, hglobals, hout, ⟨extra, hextra⟩, copies, hb, hlen, hdone⟩ := filled
  obtain ⟨stack', L'⟩ := f'
  obtain ⟨globals', heap', out'⟩ := s'
  dsimp only at hstack hbelow hglobals hout hextra hb hdone
  subst hstack hglobals hout hextra
  refine ⟨.ref s.heap.length, extra, L', ?_, ?_, hbelow⟩
  · rw [show pos + (inner.length + 21) = pos + 3 + ([Instr.dup, .load (base + 1) .int,
        .load base (.array ks), .load (base + 1) .int, .arrayLoad ks] ++ inner ++
        [Instr.arrayStore kd]).length + 12 by simp; omega]
    exact (setup placed defined word size).trans run
  · refine .array found hb (Nat.le_refl _) (by omega) (by omega) fun j v' w' hv' hw' => ?_
    have hj : j < n.toNat := hlen ▸ (List.getElem?_eq_some_iff.mp hw').1
    obtain ⟨v'', w'', hv'', hw'', hwid⟩ := hdone j hj
    rw [hv'] at hv''
    rw [hw'] at hw''
    cases hv''
    cases hw''
    exact hwid.mono (by omega)

end Copy

end WideningCopy

/-! ## Conversions on the machine -/

namespace Converts

variable {env : TypeEnv}

/-- Conversion code defines each of its labels once. -/
theorem labels_nodup {lo base : Nat} {e a : Ty} {code : List Instr}
    (h : Converts env lo base e a code) : (labelsOf code).Nodup := by
  induction h with
  | keep => simp
  | intToReal => simp [Instr.defines]
  | @copy lo base dst src n n' inner ks kd _ _ _ element ih =>
    -- the loop's two labels, and the element's, which all come after them
    have later : ∀ l ∈ labelsOf inner, lo + 2 ≤ l := fun l hl =>
      element.labels_ge l (List.mem_append_left _ hl)
    rw [WideningCopy.labelsOf_code, List.nodup_append, List.nodup_cons]
    refine ⟨⟨fun hl => ?_, ih⟩, by simp, fun l hl l' hl' => ?_⟩
    · have := later lo hl; omega
    · simp only [List.mem_singleton] at hl'
      rcases List.mem_cons.mp hl with rfl | hl
      · omega
      · have := later l hl; omega

/-- Conversion code that widens, placed in a routine, widens on the machine: an integer to a
real, and an array, holding enough for the target type, into a new array of the target's
size. The induction is on the code, one lemma for each case. -/
theorem runs {lo base : Nat} {dst src : Ty} {code : List Instr}
    (h : Converts env lo base dst src code) (widens : dst.needsWidening src = true)
    (hdst : dst.Resolved) (fits : dst.SizesFit) (placed : Placed routine pos code) :
    WidensAt m routine pos code.length base old dst := by
  induction h generalizing pos with
  | keep same => simp [same] at widens
  | intToReal => exact intToReal_widens placed _
  | @copy lo base dst src n n' inner ks kd hw hks hkd element ih =>
    have hdst' : dst.Resolved := hdst
    have defined : classesDefined m kd = true :=
      classesDefined_of_widening m hw (by rwa [ValueKind.of_resolved hdst'] at hkd)
    have inner_placed : Placed routine (pos + 14) inner :=
      (WideningCopy.loop_at placed).placed_body.left.right
    rw [WideningCopy.length_code]
    exact WideningCopy.widens placed defined fits.1 (ih hw hdst' fits.2 inner_placed)

end Converts

/-! ## Widening copies of lowered programs -/

/-- Storing an array of type `array[n] src` where the compatible type `array[n] dst` is
wanted, element types that need widening and sizes that fit a word: lowering the conversion
succeeds, and the code it appends, placed anywhere in a routine whose labels are all
different and run on a stack whose top refers to an array of type `array[n] src`, replaces that
reference with one to a new array of type `array[n] dst` whose elements are the source's,
widened level by level into new arrays. The heap keeps every object it had, the source and
its elements among them, and every copy is at an address it did not have; the globals, the
output, the rest of the stack and every slot below the slot counter are as they were. -/
theorem widening_copy_widens (cx : LowerCtx) {dst src : Ty} {n : Int} (hdst : dst.Resolved)
    (hsrc : src.Resolved) (widens : dst.needsWidening src = true)
    (hc : dst.compatible src = true) (fits : (Ty.array dst n).SizesFit) (st : LowerState) :
    Lower.Sat (Lower.coerce cx (.array dst n) (.array src n)) st (fun _ st' => ∃ code,
      st'.em.code.toList = st.em.code.toList ++ code ∧
      ∀ (m : Module) (routine : List Instr) (pos : Nat), Placed routine pos code →
      ∀ (a : Nat) (rest : List Value) (locals : List (Nat × Value)) (s : Store),
        Value.Typed s.heap (.array src n) (.ref a) →
        ∃ b extra locals', Reaches m routine ⟨pos, ⟨.ref a :: rest, locals⟩, s⟩
            ⟨pos + code.length, ⟨.ref b :: rest, locals'⟩, { s with heap := s.heap ++ extra }⟩ ∧
          Widened s.heap (s.heap ++ extra) s.heap.length (.array dst n) (.ref a) (.ref b) ∧
          Value.Typed (s.heap ++ extra) (.array dst n) (.ref b) ∧
          ∀ slot < st.em.next, locals'.lookup slot = locals.lookup slot)
      (fun _ => False) := by
  have hE : (Ty.array dst n).Resolved := (Ty.resolved_array dst n).2 hdst
  have hA : (Ty.array src n).Resolved := (Ty.resolved_array src n).2 hsrc
  have widens' : (Ty.array dst n).needsWidening (.array src n) = true := by
    simpa [Ty.needsWidening] using widens
  refine (Lower.coerce_converts cx _ _ hE hA st).mono (fun _ st' emitted => ?_) fun _ h => h
  obtain ⟨code, hcode, hconv⟩ := emitted
  refine ⟨code, hcode, fun m routine pos placed a rest locals s typed => ?_⟩
  -- compatible sizes: the source has exactly the elements the copy reads
  have covers : Value.Covers s.heap (.array dst n) (.ref a) :=
    typed.covers (by simp [Ty.compatible, hc]) widens'
  obtain ⟨w, extra, locals', run, widened, kept⟩ :=
    hconv.runs widens' hE fits placed (.ref a) rest locals s covers (List.prefix_refl _)
  cases widened with
  | @array _ _ _ b _ _ source copy fresh length within each =>
  exact ⟨b, extra, locals', run, .array source copy fresh length within each,
    (Widened.array source copy fresh length within each).typed, kept⟩

/-- An array of two integers stored where an array of two reals is wanted is copied as the
rule says. -/
theorem integer_pair_widened :
    Ty.real.Resolved ∧ Ty.integer.Resolved ∧ Ty.real.needsWidening .integer = true ∧
    Ty.real.compatible .integer = true ∧ (Ty.array .real 2).SizesFit ∧
    Lower.Sat (Lower.coerce ⟨[], [], [], true⟩ (.array .real 2) (.array .integer 2)) default
      (fun _ st' => ∃ code,
        st'.em.code.toList = (default : LowerState).em.code.toList ++ code ∧
        ∀ (m : Module) (routine : List Instr) (pos : Nat), Placed routine pos code →
        ∀ (a : Nat) (rest : List Value) (locals : List (Nat × Value)) (s : Store),
          Value.Typed s.heap (.array .integer 2) (.ref a) →
          ∃ b extra locals', Reaches m routine ⟨pos, ⟨.ref a :: rest, locals⟩, s⟩
              ⟨pos + code.length, ⟨.ref b :: rest, locals'⟩, { s with heap := s.heap ++ extra }⟩ ∧
            Widened s.heap (s.heap ++ extra) s.heap.length (.array .real 2) (.ref a) (.ref b) ∧
            Value.Typed (s.heap ++ extra) (.array .real 2) (.ref b) ∧
            ∀ slot < (default : LowerState).em.next, locals'.lookup slot = locals.lookup slot)
      (fun _ => False) :=
  ⟨trivial, trivial, rfl, rfl, ⟨⟨by decide, by decide⟩, trivial⟩,
    @widening_copy_widens ⟨[], [], [], true⟩ .real .integer 2 trivial trivial rfl rfl
      ⟨⟨by decide, by decide⟩, trivial⟩ default⟩

/-- Stored where `array[1] array[2] real` is wanted, an array holding one array of five
integers is copied, in any context of lowering, into an array holding one array of *two*
reals: each level of the copy counts the elements by the target type's size, so the new
element is not a copy of the source's element. -/
theorem nested_copy_takes_target_size (cx : LowerCtx) (st : LowerState) :
    (Ty.array .real 2).needsWidening (.array .integer 5) = true ∧
    Lower.Sat (Lower.coerce cx (.array (.array .real 2) 1) (.array (.array .integer 5) 1)) st
      (fun _ st' => ∃ code, st'.em.code.toList = st.em.code.toList ++ code ∧
        ∀ (m : Module) (s : Store),
          s.heap = [.array [.ref 1], .array [.int 1, .int 2, .int 3, .int 4, .int 5]] →
          ∃ b c copies extra locals, Reaches m code ⟨0, ⟨[.ref 0], []⟩, s⟩
              ⟨code.length, ⟨[.ref b], locals⟩, { s with heap := s.heap ++ extra }⟩ ∧
            (s.heap ++ extra)[b]? = some (.array [.ref c]) ∧
            (s.heap ++ extra)[c]? = some (.array copies) ∧ copies.length = 2)
      (fun _ => False) := by
  refine ⟨rfl, (Lower.coerce_converts cx (.array (.array .real 2) 1)
    (.array (.array .integer 5) 1) trivial trivial st).mono (fun _ st' emitted => ?_) fun _ h => h⟩
  obtain ⟨code, hcode, hconv⟩ := emitted
  refine ⟨code, hcode, fun m s hs => ?_⟩
  have placed : Placed code 0 code := ⟨fun j _ => by simp, hconv.labels_nodup⟩
  -- every level of the source holds at least what the target type counts
  have covers : Value.Covers s.heap (.array (.array .real 2) 1) (.ref 0) := by
    rw [hs]
    refine .array rfl (by decide) (by decide) fun v hv => ?_
    simp only [List.mem_singleton] at hv
    subst hv
    refine .array rfl (by decide) (by decide) fun v hv => ?_
    simp only [List.mem_cons, List.not_mem_nil, or_false] at hv
    rcases hv with rfl | rfl | rfl | rfl | rfl <;> exact .int _
  obtain ⟨w, extra, locals, run, widened, -⟩ := hconv.runs (m := m) rfl trivial
    ⟨⟨by decide, by decide⟩, ⟨by decide, by decide⟩, trivial⟩ placed (.ref 0) [] [] s covers
    (List.prefix_refl _)
  rw [Nat.zero_add] at run
  -- the copy holds one element, itself a copy of two elements
  cases widened with
  | @array _ _ _ b items copies source copy _ length _ each =>
  obtain ⟨element, rfl⟩ : ∃ element, copies = [element] :=
    List.length_eq_one_iff.mp (by omega)
  rw [hs] at source
  cases source
  have inner := each 0 (.ref 1) element rfl rfl
  cases inner with
  | @array _ _ _ c _ copies' _ copy' _ length' _ _ =>
  exact ⟨b, c, copies', extra, locals, run, copy, copy', by omega⟩

/-- The same copy lowered from the start, with no declarations: the element made for
`array[5] integer` has two reals. -/
theorem widened_element_takes_target_size :
    (Ty.array .real 2).needsWidening (.array .integer 5) = true ∧
    Lower.Sat (Lower.coerce ⟨[], [], [], true⟩ (.array (.array .real 2) 1)
        (.array (.array .integer 5) 1)) default
      (fun _ st' => ∃ code, st'.em.code.toList = (default : LowerState).em.code.toList ++ code ∧
        ∀ (m : Module) (s : Store),
          s.heap = [.array [.ref 1], .array [.int 1, .int 2, .int 3, .int 4, .int 5]] →
          ∃ b c copies extra locals, Reaches m code ⟨0, ⟨[.ref 0], []⟩, s⟩
              ⟨code.length, ⟨[.ref b], locals⟩, { s with heap := s.heap ++ extra }⟩ ∧
            (s.heap ++ extra)[b]? = some (.array [.ref c]) ∧
            (s.heap ++ extra)[c]? = some (.array copies) ∧ copies.length = 2)
      (fun _ => False) :=
  nested_copy_takes_target_size ⟨[], [], [], true⟩ default

end ImpStack
