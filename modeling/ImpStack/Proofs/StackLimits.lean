import ImpStack.Proofs.DeadDeclarations
import ImpStack.Proofs.StmtStack
import ImpStack.Proofs.JvmInstructions

/-! # The stack limits of the assembled methods

  The assembly of every method declares an operand-stack limit of its code's bound `maxStack`,
  the linear scan of its instructions, plus `Jvm.stackHeadroom` (`Jvm.method`). Two facts make
  that limit hold, whatever the options the program was compiled with:

  * every path through the code keeps the stack within `maxStack` before and after every
    instruction (`compile_stacks`). With dead declarations kept this is
    `compile_stacks_unpruned`. With them removed the program is still accepted, in scopes with
    the analyzer's types and routines (`analyze_accepts_pruned`), and lowering reads nothing
    else of the scopes (`lowerProgram_congr`);
  * the JVM instructions the assembler writes for one stack instruction add at most
    `stackHeadroom` words to the operand stack before they are done (`Jvm.jvmOps_headroom`).
    A double takes two words. Printing pushes the output stream and, under a double, a copy of
    it; creating a record pushes the new reference and its copy for the constructor.
-/

namespace ImpStack

/-! ## Lowering reads only the types and routines of the scopes -/

theorem Lower.module_congr {sc₁ sc₂ : Scopes} (henv : sc₁.env = sc₂.env)
    (hr : sc₁.routines = sc₂.routines) (opts : LowerOptions) (p : Program) :
    Lower.module sc₁ opts p = Lower.module sc₂ opts p := by
  unfold Lower.module
  rw [henv, hr]

theorem lowerProgram_congr {sc₁ sc₂ : Scopes} (henv : sc₁.env = sc₂.env)
    (hr : sc₁.routines = sc₂.routines) (opts : LowerOptions) (p : Program) :
    lowerProgram sc₁ opts p = lowerProgram sc₂ opts p := by
  unfold lowerProgram
  rw [Lower.module_congr henv hr]

/-- Every routine and the initializer of a compiled module keep every path's operand stack
within the bound the module records, whatever the options. -/
theorem compile_stacks (opts : CompileOptions) (p : Program) (m : Module)
    (h : (compile opts p).1 = .ok m) :
    ∀ rc ∈ m.routines ++ m.initializer.toList, StackSafe rc.code rc.maxStack := by
  cases keep : opts.check.removeUnused
  · exact compile_stacks_unpruned opts p m keep h
  · unfold compile at h
    dsimp only at h
    split at h
    · rename_i quiet
      obtain ⟨empty, top⟩ := Check.declared_no_variables p.statements
      obtain ⟨sc₁, acc, henv, hr⟩ := analyze_accepts_pruned keep p (List.isEmpty_iff.mp quiet)
      -- the pruned program is lowered in the analyzer's scopes, which lowering reads as `sc₁`
      rw [lowerProgram_congr henv.symm hr.symm] at h
      exact lowerProgram_stacks acc empty top ((analyze_routinesFrom opts.check p).congr hr) h
    · cases h

/-! ## The words of the JVM operand stack -/

namespace Jvm

/-- The words an entry takes on the operand stack: two for a double, one for any other value
and for the output stream. -/
def Entry.words : Entry → Nat
  | .val (.real _) => 2
  | _ => 1

/-- The words of an operand stack. -/
def words : List Entry → Nat
  | [] => 0
  | e :: st => e.words + words st

@[simp] theorem words_nil : words [] = 0 := rfl

@[simp] theorem words_cons (e : Entry) (st : List Entry) : words (e :: st) = e.words + words st :=
  rfl

theorem Entry.words_le (e : Entry) : e.words ≤ 2 := by
  unfold Entry.words
  split <;> omega

theorem Entry.words_of_narrow {e : Entry} (h : ¬e.wide = true) : e.words = 1 := by
  unfold Entry.words Entry.wide at *
  split <;> simp_all

/-- The most words an instruction adds to the operand stack when it goes on to the next: a
push of a double, of a local double or of a static field two, a push of anything else, a
copy of a one-word entry, a widening to a double and a field's read one, any other none. -/
def Op.rise : Op → Nat
  | .ldc2w _ | .load .d _ | .getstatic .. => 2
  | .iconst _ | .bipush _ | .sipush _ | .ldc _ | .ldcString _ | .load _ _ | .new _ | .getOut
  | .dup | .dupX2 | .i2d | .getfield .. => 1
  | _ => 0

theorem Op.rise_le (op : Op) : op.rise ≤ stackHeadroom := by
  unfold Op.rise stackHeadroom
  split <;> omega

/-- The most words a sequence of instructions adds, each adding at most its rise. -/
def Op.rises : List Op → Nat
  | [] => 0
  | op :: ops => op.rise + rises ops

@[simp] theorem Op.rises_nil : rises [] = 0 := rfl

@[simp] theorem Op.rises_cons (op : Op) (ops : List Op) : rises (op :: ops) = op.rise + rises ops :=
  rfl

/-- The first instructions of a sequence rise by no more than all of them. -/
theorem Op.rises_take_le : ∀ (ops : List Op) (k : Nat), rises (ops.take k) ≤ rises ops
  | [], _ => by simp
  | _ :: _, 0 => Nat.zero_le _
  | op :: ops, k + 1 => by
    have rest := rises_take_le ops k
    simp only [List.take_succ_cons, rises_cons]
    omega

section Run

variable (m : Module) (r : ValueKind)

/-- An instruction that goes on adds at most its rise to the operand stack. The loads, the
static and field reads and the array loads push a value of either width; the copies duplicate
an entry of one word. -/
theorem Op.exec_rise {op : Op} {f f' : Frame} {s s' : Store} (h : op.exec m r f s = .next f' s') :
    words f'.stack ≤ words f.stack + op.rise := by
  cases op with
  | load t slot =>
    simp only [Op.exec] at h
    split at h
    · rename_i v _
      split at h
      · cases h
        cases t <;> cases v <;> simp_all [Frame.push, Letter.admits, Entry.words, Op.rise] <;> omega
      · cases h
    · cases h
  | getstatic c n k =>
    simp only [Op.exec] at h
    split at h
    · split at h
      · rename_i v _
        cases h
        have := Entry.words_le (.val v)
        simp only [Frame.push, words_cons, Op.rise]
        omega
      · cases h
    · cases h
  | getfield c n k =>
    simp only [Op.exec] at h
    (repeat' split at h) <;> (try cases h)
    rename_i v _
    have := Entry.words_le (.val v)
    simp_all only [words_cons, Op.rise]
    simp only [Entry.words] at *
    omega
  | arrayLoad t =>
    simp only [Op.exec] at h
    (repeat' split at h) <;> (try cases h)
    rename_i v _ _
    have := Entry.words_le (.val v)
    simp_all only [words_cons, Op.rise]
    simp only [Entry.words] at *
    omega
  | dup | dupX2 =>
    simp only [Op.exec] at h
    (repeat' split at h) <;> (try cases h) <;> simp_all [Op.rise, Entry.words_of_narrow] <;> omega
  | _ =>
    -- every other instruction pushes a constant's entry or only takes entries off
    simp only [Op.exec, Effect.branch] at h
    (repeat' split at h) <;> (try cases h) <;>
      simp_all [Frame.push, Entry.words, Op.rise, Store.alloc] <;> omega

/-- Instructions that each go on add at most their rises to the operand stack. -/
theorem run_rise : ∀ {ops : List Op} {f f' : Frame} {s s' : Store}, run m r ops f s = .next f' s' →
    words f'.stack ≤ words f.stack + Op.rises ops
  | [], _, _, _, _, h => by cases h; simp
  | op :: ops, f, f', s, s', h => by
    cases hop : op.exec m r f s with
    | next f₁ s₁ =>
      rw [run_cons_of_next m r hop] at h
      have step := Op.exec_rise m r hop
      have rest := run_rise h
      simp only [Op.rises_cons]
      omega
    | _ => simp only [run, hop, reduceCtorEq] at h

end Run

/-- An expansion written through a letter or a constant's push is one instruction. -/
theorem single_of_map {α : Type} {x : Except Error α} {g : α → Op} {ops : List Op}
    (h : (fun a => [g a]) <$> x = .ok ops) : ∃ op, ops = [op] := by
  cases x with
  | error e => cases h
  | ok a =>
    cases h
    exact ⟨g a, rfl⟩

theorem rise_single (op : Op) : Op.rises [op] ≤ stackHeadroom := by
  simpa using op.rise_le

/-- The instructions the assembler writes for one stack instruction rise by at most the
headroom together. -/
theorem jvmOps_rise (cls : String) {i : Instr} {ops : List Op} (h : i.jvmOps cls = .ok ops) :
    Op.rises ops ≤ stackHeadroom := by
  -- all but three instructions expand to at most one JVM instruction
  have one : ∀ {α : Type} {x : Except Error α} {g : α → Op}, (fun a => [g a]) <$> x = .ok ops →
      Op.rises ops ≤ stackHeadroom := fun h => by
    obtain ⟨op, rfl⟩ := single_of_map h
    exact rise_single op
  cases i with
  | push c => exact one h
  | load _ k | store _ k | arrayLoad k | arrayStore k => exact one h
  | getGlobal | putGlobal | branchZero | jump | label | call | getField | putField | dup =>
    cases h
    exact rise_single _
  | arith o k =>
    simp only [Instr.jvmOps] at h
    split at h <;> first | exact one h | (cases h <;> exact rise_single _)
  | neg k | convert k | ret k | newArray k =>
    cases k <;> simp only [Instr.jvmOps] at h <;> first | exact one h | (cases h <;> exact rise_single _)
  | pop k =>
    simp only [Instr.jvmOps] at h
    cases h
    split
    · exact rise_single _
    · split <;> simp [Op.rise, stackHeadroom]
  | compareBranch c k t =>
    -- a comparison of doubles compares, then branches on the result: neither adds a word
    simp only [Instr.jvmOps] at h
    split at h
    · cases h
      exact rise_single _
    · cases h
      exact rise_single _
    · cases h
      cases c <;> simp [compareFor, Op.rise, stackHeadroom]
    · split at h <;> (cases h <;> exact rise_single _)
  | newRecord n =>
    -- the new reference and its copy for the constructor
    cases h
    simp [Op.rise, stackHeadroom]
  | print k =>
    -- the output stream, and under a double a copy of it
    simp only [Instr.jvmOps] at h
    split at h <;> cases h <;> split <;> simp [Op.rise, stackHeadroom]

/-- While the JVM runs the instructions the assembler writes for one stack instruction, the
operand stack holds at most `stackHeadroom` words beyond what it held before them. -/
theorem jvmOps_headroom (m : Module) (r : ValueKind) (cls : String) {i : Instr} {ops : List Op}
    (h : i.jvmOps cls = .ok ops) (k : Nat) {f f' : Frame} {s s' : Store}
    (hrun : run m r (ops.take k) f s = .next f' s') : words f'.stack ≤ words f.stack + stackHeadroom := by
  have part := Op.rises_take_le ops k
  have rises := run_rise m r hrun
  have whole := jvmOps_rise cls h
  omega

end Jvm

/-! ## The limit of each method -/

/-- Every method of a compiled module keeps its operand stack within the limit its assembly
declares, whatever the options. On every path through its code, across labels and back edges,
the stack holds at most `maxStack` slots before and after every instruction, and every
instruction finds the slots it takes. While the JVM runs the instructions the assembler writes
for an instruction of a path, from a stack of the words the path holds there, the stack never
holds more than `maxStack + stackHeadroom` words. -/
theorem compiled_stacks_within_limits (opts : CompileOptions) (p : Program) (m : Module)
    (h : (compile opts p).1 = .ok m) :
    ∀ rc ∈ m.routines ++ m.initializer.toList, StackSafe rc.code rc.maxStack ∧
      ∀ pc d i ops, DepthAt rc.code pc d → rc.code[pc]? = some i → i.jvmOps m.name = .ok ops →
        ∀ k (f f' : Jvm.Frame) (s s' : Store), Jvm.words f.stack = d →
          Jvm.run m rc.ret (ops.take k) f s = .next f' s' →
            Jvm.words f'.stack ≤ rc.maxStack + Jvm.stackHeadroom := by
  intro rc hrc
  have safe := compile_stacks opts p m h rc hrc
  refine ⟨safe, fun pc d i ops reach _ hops k f f' s s' hf hrun => ?_⟩
  have before : d ≤ rc.maxStack := (safe pc d reach).1
  have within := Jvm.jvmOps_headroom m rc.ret m.name hops k hrun
  omega

/-- A program with a declaration nothing reads, compiled with the default options, which drop
it: its initializer stays within its limits. -/
theorem unread_declaration_within_limits :
    let p : Program := ⟨[.varDecl "unread" (some .integer) (some (.int 7)),
      .varDecl "n" (some .integer) (some (.int 2)), .print (.var "n")]⟩
    ∃ m, (compile {} p).1 = .ok m ∧
      ∀ rc ∈ m.routines ++ m.initializer.toList, StackSafe rc.code rc.maxStack ∧
        ∀ pc d i ops, DepthAt rc.code pc d → rc.code[pc]? = some i → i.jvmOps m.name = .ok ops →
          ∀ k (f f' : Jvm.Frame) (s s' : Store), Jvm.words f.stack = d →
            Jvm.run m rc.ret (ops.take k) f s = .next f' s' →
              Jvm.words f'.stack ≤ rc.maxStack + Jvm.stackHeadroom := by
  intro p
  exact ⟨_, rfl, compiled_stacks_within_limits {} p _ rfl⟩

end ImpStack
