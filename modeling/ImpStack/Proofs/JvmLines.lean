import ImpStack.Proofs.JvmInstructions
import ImpStack.Proofs.Linking

/-! # The assembly of an instruction does what the instruction does

  An activation of the stack machine is a JVM frame as it stands: integers and booleans are
  `int`s, a real is a double, strings, arrays and records are references, and slot `s` is
  local `s`. The JVM lines the assembler writes for an instruction, run on that frame, lead
  where the instruction leads: the same operand stack and locals, the same heap, globals and
  printed lines, the same branch, the same call and the same trap (`run_jvmOps`, and the
  same for the lines as text at the end).

  That holds when the frame has the kinds the instruction names, as the verifier checks
  them (`Instr.Fits`): the values it pops and the local it loads are of its kinds, `dup`
  copies a one-slot value, and a return gives the method's result kind. A boolean is `0` or
  `1` (`Value.OfKind`): the JVM narrows a boolean stored in a static or instance field, an
  array or a method result to its lowest bit, where the machine keeps the `int` (the last
  theorem shows it for a static field). Names resolve on the JVM by descriptor and in the machine by
  kind, so the instruction's global, method and field are taken to be defined
  (`Instr.Links`, `Instr.FieldLinks`); record classes resolve by name on both.
-/

namespace ImpStack

/-- A value of kind `k`, as the JVM holds one: an `int` for an integer, `0` or `1` for a
boolean, a double for a real, a string or no object for a string, a reference or no object
for an array or a record. Void has no values. -/
inductive Value.OfKind : ValueKind → Value → Prop
  | int (a : Int32) : OfKind .int (.int a)
  | bool (b : Bool) : OfKind .bool (Value.ofBool b)
  | real (x : Float) : OfKind .real (.real x)
  | str (s : String) : OfKind .str (.str s)
  | strNull : OfKind .str .null
  | array (e : ValueKind) (a : Nat) : OfKind (.array e) (.ref a)
  | arrayNull (e : ValueKind) : OfKind (.array e) .null
  | record (n : String) (a : Nat) : OfKind (.record n) (.ref a)
  | recordNull (n : String) : OfKind (.record n) .null

/-- The operand stack starts with values of these kinds, the first topmost; where it is
shorter the instruction fails on both machines alike. -/
def Tops : List ValueKind → List Value → Prop
  | k :: ks, v :: vs => v.OfKind k ∧ Tops ks vs
  | _, _ => True

/-- The frame has the kinds the instruction names, in a method whose result has kind `r`. -/
def Instr.Fits (r : ValueKind) (f : Activation) : Instr → Prop
  | .load slot k => ∀ v, f.locals.lookup slot = some v → v.OfKind k
  | .store _ k | .putGlobal _ k | .neg k | .print k => Tops [k] f.stack
  | .arith _ k | .compareBranch _ k _ => Tops [k, k] f.stack
  | .convert .intToReal | .branchZero _ _ | .newArray _ => Tops [.int] f.stack
  | .convert .realToInt => Tops [.real] f.stack
  | .call _ ps _ => Tops ps.reverse f.stack
  | .ret k => k = r ∧ (k = .void ∨ Tops [k] f.stack)
  | .getField rc _ _ => Tops [.record rc] f.stack
  | .putField rc _ k => Tops [k, .record rc] f.stack
  | .arrayLoad k => Tops [.int, .array k] f.stack
  | .arrayStore k => Tops [k, .int, .array k] f.stack
  | .pop k => k = .void ∨ Tops [k] f.stack
  | .dup => ∀ x rest, f.stack ≠ .real x :: rest
  | .push _ | .getGlobal _ _ | .jump _ | .label _ | .newRecord _ => True

/-- The field an instruction reads or writes is defined with its kind. -/
def Instr.FieldLinks (m : Module) : Instr → Prop
  | .getField rc fd k | .putField rc fd k => Machine.fieldDefined m rc fd k = true
  | _ => True

/-- An activation as a JVM frame. -/
def Activation.jvm (f : Activation) : Jvm.Frame := ⟨f.stack.map .val, f.locals⟩

@[simp] theorem Activation.jvm_stack (f : Activation) : f.jvm.stack = f.stack.map .val := rfl

@[simp] theorem Activation.jvm_locals (f : Activation) : f.jvm.locals = f.locals := rfl

/-- Where an instruction of the machine leads, as the JVM would go there: a call is an
invocation of the routine's method by its name and descriptor, a trap its exception, and an
invalid step one the verifier rejects. -/
def Machine.Step.jvm : Machine.Step → Jvm.Effect
  | .next f s => .next f.jvm s
  | .goto l f s => .goto l f.jvm s
  | .call rc args f s => .invoke rc.name (Jvm.methodDescriptor rc.params rc.ret) args f.jvm s
  | .done v s => .done v s
  | .stop (.trap t) s => .throw t s
  | .stop _ _ => .reject

namespace Machine.Step

variable (f : Activation) (s : Store)

@[simp] theorem jvm_next : (next f s).jvm = .next f.jvm s := rfl

@[simp] theorem jvm_goto (l : Label) : (goto l f s).jvm = .goto l f.jvm s := rfl

@[simp] theorem jvm_call (rc : RoutineCode) (args : List Value) :
    (call rc args f s).jvm = .invoke rc.name (Jvm.methodDescriptor rc.params rc.ret) args f.jvm s :=
  rfl

@[simp] theorem jvm_done (v : Option Value) : (done v s).jvm = .done v s := rfl

@[simp] theorem jvm_trap (t : Trap) : (stop (.trap t) s).jvm = .throw t s := rfl

@[simp] theorem jvm_invalid : (stop .invalid s).jvm = .reject := rfl

@[simp] theorem jvm_branch (jump : Bool) (t : Label) :
    (branch jump t f s).jvm = Jvm.Effect.branch jump t f.jvm s := by
  cases jump <;> rfl

end Machine.Step

/-! ## Values of a kind on the JVM -/

namespace Value.OfKind

variable {k : ValueKind} {v : Value}

theorem ne_void (h : v.OfKind k) : k ≠ .void := by
  cases h <;> simp

/-- A value of a kind has the type of the kind's letter. -/
theorem admits (h : v.OfKind k) {t : Jvm.Letter} (ht : Jvm.Letter.ofKind k = some t) :
    t.admits v = true := by
  cases h <;> simp only [Jvm.Letter.ofKind, Option.some.injEq] at ht <;> subst ht <;> rfl

theorem any_admits (h : v.OfKind k) : (Jvm.Letter.ofKind k).any (·.admits v) = true := by
  cases h <;> rfl

/-- Assigning a value of a kind to a variable of the kind keeps it: a boolean that is `0` or
`1` is its own lowest bit. -/
theorem assign_eq (h : v.OfKind k) : Jvm.assign k v = some v := by
  cases h with
  | bool b => cases b <;> rfl
  | _ => rfl

theorem element_eq (h : v.OfKind k) {t : Jvm.Letter} (ht : Jvm.Letter.ofElement k = some t) :
    Jvm.element t v = some v := by
  cases h with
  | bool b =>
    simp only [Jvm.Letter.ofElement, Option.some.injEq] at ht
    subst ht
    cases b <;> rfl
  | _ =>
    simp only [Jvm.Letter.ofElement, Jvm.Letter.ofKind, Option.some.injEq] at ht
    subst ht
    rfl

/-- Only a real takes two words. -/
theorem wide_eq (h : v.OfKind k) : (Jvm.Entry.val v).wide = (k == .real) := by
  cases h <;> rfl

end Value.OfKind

@[simp] theorem tops_cons (k : ValueKind) (ks : List ValueKind) (v : Value) (vs : List Value) :
    Tops (k :: ks) (v :: vs) ↔ v.OfKind k ∧ Tops ks vs := Iff.rfl

/-- The arguments of a call come off the JVM stack as the machine takes them. -/
theorem takeArgs_tops : ∀ {ks : List ValueKind} {vs : List Value}, Tops ks vs →
    Jvm.takeArgs ks (vs.map .val) =
      if ks.length ≤ vs.length then some (vs.take ks.length, (vs.drop ks.length).map .val)
      else none
  | [], vs, _ => by simp [Jvm.takeArgs]
  | k :: ks, [], _ => by simp [Jvm.takeArgs]
  | k :: ks, v :: vs, h => by
    obtain ⟨hv, hs⟩ := (tops_cons k ks v vs).mp h
    simp only [List.map_cons, Jvm.takeArgs, hv.any_admits, if_true, takeArgs_tops hs,
      List.length_cons, Nat.add_le_add_iff_right, List.take_succ_cons, List.drop_succ_cons]
    split <;> rfl

/-! ## Constants and comparisons -/

namespace Jvm

/-- `bipush` sign-extends its byte: a value in a byte's range is pushed exactly. -/
theorem bipush_exact {v : Int} (lo : -128 ≤ v) (hi : v ≤ 127) :
    (Int8.ofInt v).toInt32 = Int32.ofInt v := by
  apply Int32.toInt_inj.mp
  rw [Int8.toInt_toInt32, Int8.toInt_ofInt, Int32.toInt_ofInt, Int.bmod_eq_of_le, Int.bmod_eq_of_le]
  all_goals simp only [Int8.size, Int32.size]; omega

/-- `sipush` sign-extends its short: a value in a short's range is pushed exactly. -/
theorem sipush_exact {v : Int} (lo : -32768 ≤ v) (hi : v ≤ 32767) :
    (Int16.ofInt v).toInt32 = Int32.ofInt v := by
  apply Int32.toInt_inj.mp
  rw [Int16.toInt_toInt32, Int16.toInt_ofInt, Int32.toInt_ofInt, Int.bmod_eq_of_le, Int.bmod_eq_of_le]
  all_goals simp only [Int16.size, Int32.size]; omega

/-- The push the assembler picks for an integer, with the range that picks it. -/
theorem pushOp_int_cases {v : Int} {op : Op} (h : pushOp (.int v) = .ok op) :
    -2147483648 ≤ v ∧ v ≤ 2147483647 ∧
      (op = .iconst v ∧ -1 ≤ v ∧ v ≤ 5 ∨ op = .bipush v ∧ -128 ≤ v ∧ v ≤ 127 ∨
        op = .sipush v ∧ -32768 ≤ v ∧ v ≤ 32767 ∨ op = .ldc v) := by
  simp only [pushOp] at h
  split at h
  · cases h
  · rename_i hw
    simp only [Bool.or_eq_true, decide_eq_true_eq, not_or, Int.not_lt] at hw
    refine ⟨hw.1, hw.2, ?_⟩
    -- each branch of the choice names its op; the ranges come from the tests that chose it,
    -- and only `0 ≤ v` for `iconst` needs arithmetic to give `-1 ≤ v`
    repeat' split at h
    all_goals cases h
    all_goals simp_all
    omega

/-- Whichever push the assembler picks for a constant, it pushes the constant's value. -/
theorem pushOp_exec (m : Module) (r : ValueKind) {c : Constant} {op : Op} (h : pushOp c = .ok op)
    (F : Frame) (s : Store) : op.exec m r F s = .next (F.push (Value.ofConstant c)) s := by
  cases c with
  | int v =>
    obtain ⟨lo, hi, hop⟩ := pushOp_int_cases h
    rcases hop with ⟨rfl, l, u⟩ | ⟨rfl, l, u⟩ | ⟨rfl, l, u⟩ | rfl
    · simp [Op.exec, l, u, Value.ofConstant]
    · simp [Op.exec, bipush_exact l u, Value.ofConstant]
    · simp [Op.exec, sipush_exact l u, Value.ofConstant]
    · simp [Op.exec, lo, hi, Value.ofConstant]
  | real x =>
    simp only [pushOp] at h
    split at h
    · cases h
      rfl
    · cases h
  | bool b =>
    cases h
    cases b <;> simp [Op.exec, Value.ofConstant, Value.ofBool]
  | str t =>
    cases h
    rfl

theorem compareFor_eq (c : Condition) : compareFor c = .dcmp (c == .lt || c == .le) := by
  cases c <;> rfl

theorem intHolds_signs (c : Condition) :
    Machine.intHolds c (-1) 0 = Machine.holds c .lt ∧ Machine.intHolds c 0 0 = Machine.holds c .eq ∧
      Machine.intHolds c 1 0 = Machine.holds c .gt := by
  cases c <;> decide

/-- `dcmpg` before `iflt` and `ifle`, `dcmpl` before the others, decide a condition on two
doubles as IEEE comparison does: a NaN makes every condition false but `≠`. -/
theorem compare_then_branch (c : Condition) (a b : Float) :
    Machine.intHolds c (compareDoubles (c == .lt || c == .le) a b) 0 = Machine.realHolds c a b := by
  obtain ⟨below, same, above⟩ := intHolds_signs c
  unfold compareDoubles Machine.realHolds
  split
  · -- a NaN: `dcmpg` gives 1 where the condition is `<` or `≤`, `dcmpl` gives -1 elsewhere
    cases c <;> decide
  · split
    · exact below
    · split
      · exact same
      · exact above

end Jvm

/-! ## Instruction by instruction -/

theorem staticResolves_of_defined {m : Module} {n : String} {k : ValueKind}
    (h : Machine.globalDefined m n k = true) : Jvm.staticResolves m m.name n k = true := by
  obtain ⟨g, hg, e⟩ := List.any_eq_true.mp h
  simp only [Bool.and_eq_true, beq_iff_eq] at e
  simp only [Jvm.staticResolves, beq_self_eq_true, Bool.true_and]
  exact List.any_eq_true.mpr ⟨g, hg, by simp [e.1, e.2]⟩

theorem methodResolves_of_found {m : Module} {n : String} {ps : List ValueKind} {k : ValueKind}
    {rc : RoutineCode} (h : Machine.method? m n ps k = some rc) :
    Jvm.methodResolves m m.name n ps k = true ∧ rc.name = n ∧ rc.params = ps ∧ rc.ret = k := by
  have e := List.find?_some h
  simp only [Bool.and_eq_true, beq_iff_eq] at e
  obtain ⟨⟨e₁, e₂⟩, e₃⟩ := e
  refine ⟨?_, e₁, e₂, e₃⟩
  simp only [Jvm.methodResolves, beq_self_eq_true, Bool.true_and]
  exact List.any_eq_true.mpr ⟨rc, List.mem_of_find?_eq_some h, by simp [e₁, e₂, e₃]⟩

theorem fieldResolves_of_defined {m : Module} {rc fd : String} {k : ValueKind}
    (h : Machine.fieldDefined m rc fd k = true) : Jvm.fieldResolves m rc fd k = true := by
  unfold Machine.fieldDefined at h
  unfold Jvm.fieldResolves
  cases ht : m.typeDef? rc with
  | none => rw [ht] at h; cases h
  | some t =>
    rw [ht] at h
    have hl : t.fields.lookup fd = some k := by simpa using h
    exact List.any_eq_true.mpr ⟨(fd, k), mem_of_lookup hl, by simp⟩

section

variable {m : Module} {r : ValueKind} {f : Activation} {s : Store}

theorem run_push {c : Constant} {ops : List Jvm.Op} (h : (Instr.push c).jvmOps m.name = .ok ops) :
    Jvm.run m r ops f.jvm s = (Machine.step m f s (.push c)).jvm := by
  simp only [Instr.jvmOps] at h
  cases hc : Jvm.pushOp c with
  | error e => rw [hc] at h; cases h
  | ok op =>
    rw [hc] at h
    cases h
    rw [Jvm.run_single, Jvm.pushOp_exec m r hc]
    rfl

theorem run_load {slot : Nat} {k : ValueKind} {ops : List Jvm.Op}
    (h : (Instr.load slot k).jvmOps m.name = .ok ops)
    (fits : ∀ v, f.locals.lookup slot = some v → v.OfKind k) :
    Jvm.run m r ops f.jvm s = (Machine.step m f s (.load slot k)).jvm := by
  simp only [Instr.jvmOps] at h
  obtain ⟨t, ht, rfl⟩ := Jvm.letterOf_map_ok h
  rw [Jvm.run_single]
  cases hv : f.locals.lookup slot with
  | none => simp [Jvm.Op.exec, Machine.step, hv]
  | some v =>
    simp [Jvm.Op.exec, Machine.step, hv, (fits v hv).admits ht, Machine.Step.push,
      Jvm.Frame.push, Activation.jvm]

theorem run_store {slot : Nat} {k : ValueKind} {ops : List Jvm.Op}
    (h : (Instr.store slot k).jvmOps m.name = .ok ops) (fits : Tops [k] f.stack) :
    Jvm.run m r ops f.jvm s = (Machine.step m f s (.store slot k)).jvm := by
  simp only [Instr.jvmOps] at h
  obtain ⟨t, ht, rfl⟩ := Jvm.letterOf_map_ok h
  rw [Jvm.run_single]
  obtain ⟨stack, locals⟩ := f
  cases stack with
  | nil => rfl
  | cons v rest => simp [Jvm.Op.exec, Machine.step, fits.1.admits ht, Activation.jvm]

theorem run_getGlobal {n : String} {k : ValueKind} {ops : List Jvm.Op}
    (h : (Instr.getGlobal n k).jvmOps m.name = .ok ops) (links : (Instr.getGlobal n k).Links m) :
    Jvm.run m r ops f.jvm s = (Machine.step m f s (.getGlobal n k)).jvm := by
  cases h
  have links : Machine.globalDefined m n k = true := links
  rw [Jvm.run_single]
  simp only [Jvm.Op.exec, staticResolves_of_defined links, if_true, Machine.step, links,
    Bool.not_true, Bool.false_eq_true, if_false]
  cases s.globals.lookup n <;> rfl

theorem run_putGlobal {n : String} {k : ValueKind} {ops : List Jvm.Op}
    (h : (Instr.putGlobal n k).jvmOps m.name = .ok ops) (links : (Instr.putGlobal n k).Links m)
    (fits : Tops [k] f.stack) :
    Jvm.run m r ops f.jvm s = (Machine.step m f s (.putGlobal n k)).jvm := by
  cases h
  have links : Machine.globalDefined m n k = true := links
  rw [Jvm.run_single]
  obtain ⟨stack, locals⟩ := f
  cases stack with
  | nil => simp [Jvm.Op.exec, staticResolves_of_defined links, Machine.step, links, Machine.Step.jvm]
  | cons v rest =>
    simp [Jvm.Op.exec, staticResolves_of_defined links, Machine.step, links, fits.1.assign_eq,
      Machine.Step.jvm, Activation.jvm]

theorem run_arith {op : ArithOp} {k : ValueKind} {ops : List Jvm.Op}
    (h : (Instr.arith op k).jvmOps m.name = .ok ops) (fits : Tops [k, k] f.stack) :
    Jvm.run m r ops f.jvm s = (Machine.step m f s (.arith op k)).jvm := by
  obtain ⟨stack, locals⟩ := f
  match stack, fits with
  | [], _ => cases op <;> cases k <;> cases h <;> rfl
  | [_], ⟨hb, _⟩ => cases hb <;> cases op <;> cases h <;> rfl
  | _ :: _ :: rest, ⟨hb, ha, _⟩ =>
    cases hb with
    | int y =>
      cases ha with
      | int x =>
        cases op <;> cases h <;>
          simp only [Jvm.run_single, Jvm.Op.exec, Machine.step, Activation.jvm, List.map_cons] <;> split
        all_goals simp_all [Machine.Step.push, Machine.Step.jvm, Activation.jvm]
    | real y =>
      cases ha with
      | real x =>
        cases op <;> cases h <;>
          simp only [Jvm.run_single, Jvm.Op.exec, Machine.step, Activation.jvm, List.map_cons] <;> split
        all_goals simp_all [Machine.Step.push, Machine.Step.jvm, Activation.jvm]
    | bool y =>
      cases ha with
      | bool x =>
        -- only the exclusive or of booleans is assembled
        cases op <;> cases h
        simp [Jvm.run_single, Jvm.Op.exec, Machine.step, Machine.intArith, Value.ofBool,
          Machine.Step.push, Machine.Step.jvm, Activation.jvm]
    | _ => cases op <;> cases h

theorem run_neg {k : ValueKind} {ops : List Jvm.Op} (h : (Instr.neg k).jvmOps m.name = .ok ops)
    (fits : Tops [k] f.stack) :
    Jvm.run m r ops f.jvm s = (Machine.step m f s (.neg k)).jvm := by
  obtain ⟨stack, locals⟩ := f
  match stack, fits with
  | [], _ => cases k <;> cases h <;> rfl
  | _ :: _, ⟨hv, _⟩ => cases hv <;> cases h <;> rfl

theorem run_convert {c : Conversion} {ops : List Jvm.Op}
    (h : (Instr.convert c).jvmOps m.name = .ok ops) :
    Jvm.run m r ops f.jvm s = (Machine.step m f s (.convert c)).jvm := by
  obtain ⟨stack, locals⟩ := f
  cases c <;> cases h <;> rcases stack with _ | ⟨v, rest⟩
  all_goals first
    | rfl
    | cases v <;> rfl

theorem run_compareDoubles (c : Condition) (t : Label) (a b : Float) (rest : List Jvm.Entry)
    (locals : List (Nat × Value)) :
    Jvm.run m r [Jvm.compareFor c, .ifZero c t] ⟨.val (.real b) :: .val (.real a) :: rest, locals⟩ s =
      Jvm.Effect.branch (Machine.realHolds c a b) t ⟨rest, locals⟩ s := by
  rw [Jvm.compareFor_eq, ← Jvm.compare_then_branch, Jvm.run_cons_of_next m r rfl, Jvm.run_single]
  rfl

theorem run_compareBranch {c : Condition} {k : ValueKind} {t : Label} {ops : List Jvm.Op}
    (h : (Instr.compareBranch c k t).jvmOps m.name = .ok ops) (fits : Tops [k, k] f.stack) :
    Jvm.run m r ops f.jvm s = (Machine.step m f s (.compareBranch c k t)).jvm := by
  obtain ⟨stack, locals⟩ := f
  match stack, fits with
  | [], _ => cases k <;> cases c <;> cases h <;> rfl
  | [_], ⟨hb, _⟩ => cases hb <;> cases c <;> cases h <;> rfl
  | _ :: _ :: rest, ⟨hb, ha, _⟩ =>
    cases k with
    | int =>
      cases hb; cases ha; cases h
      simp [Jvm.run_single, Jvm.Op.exec, Machine.step, Activation.jvm]
    | bool =>
      cases hb; cases ha; cases h
      simp [Jvm.run_single, Jvm.Op.exec, Machine.step, Activation.jvm, Value.ofBool]
    | real =>
      cases hb; cases ha; cases h
      simp [Activation.jvm, run_compareDoubles, Machine.step]
    | void => exact absurd rfl hb.ne_void
    | str | array _ | record _ =>
      cases c <;> cases h <;>
        simp [Jvm.run_single, Jvm.Op.exec, Machine.step, Activation.jvm, hb.admits rfl, ha.admits rfl]

theorem run_branchZero {c : Condition} {t : Label} {ops : List Jvm.Op}
    (h : (Instr.branchZero c t).jvmOps m.name = .ok ops) :
    Jvm.run m r ops f.jvm s = (Machine.step m f s (.branchZero c t)).jvm := by
  cases h
  obtain ⟨stack, locals⟩ := f
  rw [Jvm.run_single]
  rcases stack with _ | ⟨v, rest⟩
  · rfl
  · cases v <;> simp [Jvm.Op.exec, Machine.step, Activation.jvm]

theorem run_jump {t : Label} {ops : List Jvm.Op} (h : (Instr.jump t).jvmOps m.name = .ok ops) :
    Jvm.run m r ops f.jvm s = (Machine.step m f s (.jump t)).jvm := by
  cases h
  rfl

theorem run_label {l : Label} {ops : List Jvm.Op} (h : (Instr.label l).jvmOps m.name = .ok ops) :
    Jvm.run m r ops f.jvm s = (Machine.step m f s (.label l)).jvm := by
  cases h
  rfl

theorem run_call {n : String} {ps : List ValueKind} {k : ValueKind} {ops : List Jvm.Op}
    (h : (Instr.call n ps k).jvmOps m.name = .ok ops) (links : (Instr.call n ps k).Links m)
    (fits : Tops ps.reverse f.stack) :
    Jvm.run m r ops f.jvm s = (Machine.step m f s (.call n ps k)).jvm := by
  cases h
  obtain ⟨rc, hrc⟩ := Option.isSome_iff_exists.mp links
  obtain ⟨hres, hn, hps, hk⟩ := methodResolves_of_found hrc
  rw [Jvm.run_single]
  by_cases hl : ps.length ≤ f.stack.length
  · simp [Jvm.Op.exec, hres, Machine.step, hrc, takeArgs_tops fits, hl, hn, hps, hk, Activation.jvm,
      List.map_drop]
  · simp [Jvm.Op.exec, hres, Machine.step, hrc, takeArgs_tops fits, hl]

theorem run_ret {k : ValueKind} {ops : List Jvm.Op} (h : (Instr.ret k).jvmOps m.name = .ok ops)
    (fits : k = r ∧ (k = .void ∨ Tops [k] f.stack)) :
    Jvm.run m r ops f.jvm s = (Machine.step m f s (.ret k)).jvm := by
  obtain ⟨rfl, hk⟩ := fits
  obtain ⟨stack, locals⟩ := f
  cases k
  case void =>
    cases h
    simp [Jvm.run_single, Jvm.Op.exec, Machine.step]
  all_goals
    cases h
    rcases hk with hk | hk
    · cases hk
    · rcases stack with _ | ⟨v, rest⟩
      · rfl
      · simp [Jvm.run_single, Jvm.Op.exec, Machine.step, hk.1.assign_eq, Jvm.Letter.ofKind]

theorem run_newRecord {n : String} {ops : List Jvm.Op}
    (h : (Instr.newRecord n).jvmOps m.name = .ok ops) :
    Jvm.run m r ops f.jvm s = (Machine.step m f s (.newRecord n)).jvm := by
  cases h
  cases ht : m.typeDef? n with
  | none => simp [Jvm.run, Jvm.Op.exec, ht, Machine.step]
  | some t =>
    simp [Jvm.run, Jvm.Op.exec, ht, Machine.step, Store.alloc, Jvm.Frame.push, Jvm.Entry.wide,
      Machine.Step.push, Activation.jvm]

theorem run_getField {rc fd : String} {k : ValueKind} {ops : List Jvm.Op}
    (h : (Instr.getField rc fd k).jvmOps m.name = .ok ops) (fields : (Instr.getField rc fd k).FieldLinks m)
    (fits : Tops [.record rc] f.stack) :
    Jvm.run m r ops f.jvm s = (Machine.step m f s (.getField rc fd k)).jvm := by
  cases h
  have fields : Machine.fieldDefined m rc fd k = true := fields
  obtain ⟨stack, locals⟩ := f
  rw [Jvm.run_single]
  match stack, fits with
  | [], _ => simp [Jvm.Op.exec, fieldResolves_of_defined fields, Machine.step, fields]
  | _ :: rest, ⟨hv, _⟩ =>
    cases hv with
    | recordNull => simp [Jvm.Op.exec, fieldResolves_of_defined fields, Machine.step, fields]
    | record _ a =>
      simp only [Jvm.Op.exec, fieldResolves_of_defined fields, Machine.step, fields, if_true,
        Bool.not_true, Bool.false_eq_true, if_false, Activation.jvm, List.map_cons]
      rcases s.obj? a with _ | _ | ⟨_, fs⟩
      · rfl
      · rfl
      · dsimp only
        cases fs.lookup fd <;> rfl

theorem run_putField {rc fd : String} {k : ValueKind} {ops : List Jvm.Op}
    (h : (Instr.putField rc fd k).jvmOps m.name = .ok ops) (fields : (Instr.putField rc fd k).FieldLinks m)
    (fits : Tops [k, .record rc] f.stack) :
    Jvm.run m r ops f.jvm s = (Machine.step m f s (.putField rc fd k)).jvm := by
  cases h
  have fields : Machine.fieldDefined m rc fd k = true := fields
  obtain ⟨stack, locals⟩ := f
  rw [Jvm.run_single]
  match stack, fits with
  | [], _ => simp [Jvm.Op.exec, fieldResolves_of_defined fields, Machine.step, fields]
  | [_], _ => simp [Jvm.Op.exec, fieldResolves_of_defined fields, Machine.step, fields]
  | _ :: _ :: rest, ⟨hv, ho, _⟩ =>
    cases ho with
    | recordNull =>
      simp [Jvm.Op.exec, fieldResolves_of_defined fields, Machine.step, fields, hv.assign_eq]
    | record _ a =>
      simp only [Jvm.Op.exec, fieldResolves_of_defined fields, Machine.step, fields, if_true,
        Bool.not_true, Bool.false_eq_true, if_false, Activation.jvm, List.map_cons, hv.assign_eq]
      rcases s.obj? a with _ | _ | ⟨_, fs⟩ <;> rfl

theorem run_newArray {e : ValueKind} {ops : List Jvm.Op}
    (h : (Instr.newArray e).jvmOps m.name = .ok ops) :
    Jvm.run m r ops f.jvm s = (Machine.step m f s (.newArray e)).jvm := by
  have hops : ops = [.newarray e] := by
    cases e <;> cases h <;> rfl
  subst hops
  obtain ⟨stack, locals⟩ := f
  rw [Jvm.run_single]
  by_cases hc : Machine.classesDefined m e = true
  · rcases stack with _ | ⟨v, rest⟩
    · simp [Jvm.Op.exec, Machine.step, hc]
    · cases v with
      | int n =>
        by_cases hn : n.toInt < 0
        · simp [Jvm.Op.exec, Machine.step, hc, hn]
        · simp [Jvm.Op.exec, Machine.step, hc, hn, Store.alloc, Machine.Step.push, Activation.jvm]
      | _ => simp [Jvm.Op.exec, Machine.step, hc]
  · simp [Jvm.Op.exec, Machine.step, hc]

theorem run_arrayLoad {k : ValueKind} {ops : List Jvm.Op}
    (h : (Instr.arrayLoad k).jvmOps m.name = .ok ops) (fits : Tops [.int, .array k] f.stack) :
    Jvm.run m r ops f.jvm s = (Machine.step m f s (.arrayLoad k)).jvm := by
  simp only [Instr.jvmOps] at h
  obtain ⟨t, -, rfl⟩ := Jvm.elementLetterOf_map_ok h
  obtain ⟨stack, locals⟩ := f
  rw [Jvm.run_single]
  rcases stack with _ | ⟨_, _ | ⟨_, rest⟩⟩
  · rfl
  · obtain ⟨hi, _⟩ := fits
    cases hi
    rfl
  · obtain ⟨hi, ho, _⟩ := fits
    cases hi with
    | int i =>
      cases ho with
      | arrayNull => rfl
      | array _ a =>
        simp only [Jvm.Op.exec, Machine.step, Machine.loadElement, Activation.jvm, List.map_cons]
        rcases s.obj? a with _ | ⟨items⟩ | _
        · rfl
        · dsimp only
          cases items[i.toInt.toNat]? with
          | none => rfl
          | some v => by_cases hi : 0 ≤ i.toInt <;> simp [hi, Machine.Step.push, Activation.jvm]
        · rfl

theorem run_arrayStore {k : ValueKind} {ops : List Jvm.Op}
    (h : (Instr.arrayStore k).jvmOps m.name = .ok ops) (fits : Tops [k, .int, .array k] f.stack) :
    Jvm.run m r ops f.jvm s = (Machine.step m f s (.arrayStore k)).jvm := by
  simp only [Instr.jvmOps] at h
  obtain ⟨t, ht, rfl⟩ := Jvm.elementLetterOf_map_ok h
  obtain ⟨stack, locals⟩ := f
  rw [Jvm.run_single]
  rcases stack with _ | ⟨_, _ | ⟨_, _ | ⟨_, rest⟩⟩⟩
  · rfl
  · rfl
  · obtain ⟨_, hi, _⟩ := fits
    cases hi
    rfl
  · obtain ⟨hv, hi, ho, _⟩ := fits
    cases hi with
    | int i =>
      cases ho with
      | arrayNull => simp [Jvm.Op.exec, Machine.step, Machine.storeElement, hv.element_eq ht]
      | array _ a =>
        simp only [Jvm.Op.exec, Machine.step, Machine.storeElement, Activation.jvm, List.map_cons,
          hv.element_eq ht]
        rcases s.obj? a with _ | ⟨items⟩ | _
        · rfl
        · dsimp only
          split <;> rfl
        · rfl

theorem run_print {k : ValueKind} {ops : List Jvm.Op} (h : (Instr.print k).jvmOps m.name = .ok ops)
    (fits : Tops [k] f.stack) :
    Jvm.run m r ops f.jvm s = (Machine.step m f s (.print k)).jvm := by
  obtain ⟨stack, locals⟩ := f
  match stack, fits with
  | [], _ => cases k <;> cases h <;> rfl
  | v :: rest, ⟨hv, _⟩ =>
    -- the stream goes under a one-word value by `swap`, under a double by `dup_x2` and `pop`
    cases hv <;> cases h <;>
      simp [Jvm.run, Jvm.Op.exec, Machine.step, Machine.printed, Jvm.Entry.wide, Value.ofBool,
        Activation.jvm, ValueKind.isWide, ValueKind.width]

theorem run_dup {ops : List Jvm.Op} (h : Instr.dup.jvmOps m.name = .ok ops)
    (fits : ∀ x rest, f.stack ≠ .real x :: rest) :
    Jvm.run m r ops f.jvm s = (Machine.step m f s .dup).jvm := by
  cases h
  obtain ⟨stack, locals⟩ := f
  rw [Jvm.run_single]
  rcases stack with _ | ⟨v, rest⟩
  · rfl
  · cases v with
    | real x => exact absurd rfl (fits x rest)
    | _ => rfl

theorem run_pop {k : ValueKind} {ops : List Jvm.Op} (h : (Instr.pop k).jvmOps m.name = .ok ops)
    (fits : k = .void ∨ Tops [k] f.stack) :
    Jvm.run m r ops f.jvm s = (Machine.step m f s (.pop k)).jvm := by
  obtain ⟨stack, locals⟩ := f
  rcases fits with rfl | fits
  · cases h
    rfl
  · match stack, fits with
    | [], _ => cases k <;> cases h <;> rfl
    | _ :: rest, ⟨hv, _⟩ => cases hv <;> cases h <;> rfl

/-- The JVM instructions of a stack instruction, run on a frame that has the kinds the
instruction names, lead where the instruction leads. -/
theorem run_jvmOps {i : Instr} {ops : List Jvm.Op} (h : i.jvmOps m.name = .ok ops)
    (fits : i.Fits r f) (links : i.Links m) (fields : i.FieldLinks m) :
    Jvm.run m r ops f.jvm s = (Machine.step m f s i).jvm := by
  cases i with
  | push c => exact run_push h
  | load slot k => exact run_load h fits
  | store slot k => exact run_store h fits
  | getGlobal n k => exact run_getGlobal h links
  | putGlobal n k => exact run_putGlobal h links fits
  | arith op k => exact run_arith h fits
  | neg k => exact run_neg h fits
  | convert c => exact run_convert h
  | compareBranch c k t => exact run_compareBranch h fits
  | branchZero c t => exact run_branchZero h
  | jump t => exact run_jump h
  | label l => exact run_label h
  | call n ps k => exact run_call h links fits
  | ret k => exact run_ret h fits
  | newRecord n => exact run_newRecord h
  | getField rc fd k => exact run_getField h fields fits
  | putField rc fd k => exact run_putField h fields fits
  | newArray e => exact run_newArray h
  | arrayLoad k => exact run_arrayLoad h fits
  | arrayStore k => exact run_arrayStore h fits
  | print k => exact run_print h fits
  | dup => exact run_dup h fits
  | pop k => exact run_pop h fits

end

/-! ## The assembled lines -/

/-- The lines the assembler writes for an instruction of a method of the program class are
the text of JVM instructions that, run on any frame with the kinds the instruction names,
lead where the instruction leads: the same stack, locals, heap, globals and printed lines,
the same branch, call, result or trap. -/
theorem jvm_lines_run_as_step (m : Module) (r : ValueKind) {i : Instr} {text : String}
    (h : Jvm.instrLines m.name i = .ok text) :
    ∃ ops, text = Jvm.linesOf ops ∧ ∀ (f : Activation) (s : Store), i.Fits r f → i.Links m →
      i.FieldLinks m → Jvm.run m r ops f.jvm s = (Machine.step m f s i).jvm := by
  rw [Jvm.instrLines_eq] at h
  cases hops : i.jvmOps m.name with
  | error e => rw [hops] at h; cases h
  | ok ops =>
    rw [hops] at h
    cases h
    exact ⟨ops, rfl, fun f s fits links fields => run_jvmOps hops fits links fields⟩

/-- Printing a real: the stream goes under the double by `dup_x2` and `pop`. -/
theorem real_print_lines_run :
    Jvm.instrLines "Main" (.print .real) =
        .ok (Jvm.linesOf [.getOut, .dupX2, .pop, .println .real]) ∧
      ∃ ops, Jvm.linesOf [.getOut, .dupX2, .pop, .println .real] = Jvm.linesOf ops ∧
        ∀ (f : Activation) (s : Store), (Instr.print .real).Fits .void f →
          (Instr.print .real).Links ⟨"Main", [], [], [], none⟩ →
          (Instr.print .real).FieldLinks ⟨"Main", [], [], [], none⟩ →
          Jvm.run ⟨"Main", [], [], [], none⟩ .void ops f.jvm s =
            (Machine.step ⟨"Main", [], [], [], none⟩ f s (.print .real)).jvm :=
  ⟨rfl, jvm_lines_run_as_step ⟨"Main", [], [], [], none⟩ .void rfl⟩

/-- A boolean that is an `int` other than `0` and `1` is stored differently: `putstatic` of a
boolean field keeps the lowest bit, the machine the whole `int`, so the JVM stores `0` where
the machine stores `2`. -/
theorem boolean_static_narrowed :
    Jvm.instrLines "Main" (.putGlobal "b" .bool) = .ok (Jvm.linesOf [.putstatic "Main" "b" .bool]) ∧
      Jvm.run ⟨"Main", [⟨"b", .bool⟩], [], [], none⟩ .void [.putstatic "Main" "b" .bool]
          (⟨[.int 2], []⟩ : Activation).jvm ⟨[("b", .int 0)], [], []⟩ =
        .next ⟨[], []⟩ ⟨[("b", .int 0)], [], []⟩ ∧
      (Machine.step ⟨"Main", [⟨"b", .bool⟩], [], [], none⟩ ⟨[.int 2], []⟩ ⟨[("b", .int 0)], [], []⟩
          (.putGlobal "b" .bool)).jvm =
        .next ⟨[], []⟩ ⟨[("b", .int 2)], [], []⟩ :=
  ⟨rfl, rfl, rfl⟩

end ImpStack
