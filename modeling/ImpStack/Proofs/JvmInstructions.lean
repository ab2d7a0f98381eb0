import ImpStack.Proofs.Rendering
import ImpStack.Stack.Machine

/-! # The JVM instructions of the assembly

  The JVM instructions the assembler writes for a method of the program class, each with its
  line of Jasmin text and what the JVM does when it runs it (The Java Virtual Machine
  Specification, chapter 6), over the machine's own values, locals, globals and heap:

  * the operand stack holds values and, while a print is under way, the output stream; a
    double is one entry of the second category, which `pop2`, `dup_x2` and the other stack
    instructions count as two words and `dup`, `swap` and `pop` refuse; a local double is
    addressed by its first slot;
  * a typed instruction checks the type its letter names, as the verifier does, and is
    rejected otherwise; an `int` stored where the field, the array or the method's result is
    `boolean` is narrowed to its lowest bit;
  * static fields, methods and instance fields are resolved by name and descriptor, classes
    by name; the elements of an array and the fields of an object have their declared types,
    which the verifier guarantees and the loads do not check again;
  * `dcmpg` and `dcmpl` give `-1`, `0` or `1` and differ only when a double is NaN, where the
    first gives `1` and the second `-1`;
  * `bipush` and `sipush` take a byte and a short and sign-extend them; `ldc2_w` and a string
    `ldc` take the constant their text is written from.

  `Instr.jvmOps` picks the instructions of one stack instruction, and the assembly of that
  instruction is their text, line by line (`instrLines_eq`).
-/

namespace ImpStack

namespace Jvm

/-- An entry of the operand stack: a value, or the standard output stream. -/
inductive Entry where
  | val (v : Value)
  | out

/-- A double is the one entry of the second category, two words wide. -/
def Entry.wide : Entry → Bool
  | .val (.real _) => true
  | _ => false

/-- A method's frame: its operand stack, top first, and its locals. -/
structure Frame where
  stack : List Entry
  locals : List (Nat × Value)

/-- Pushes a value. -/
def Frame.push (f : Frame) (v : Value) : Frame := { f with stack := .val v :: f.stack }

/-- The letter that starts the name of a typed instruction: `i` for an `int`, `d` for a
double, `a` for a reference and `b` for an element of a boolean array. -/
inductive Letter where
  | i
  | d
  | a
  | b
  deriving DecidableEq, Repr

namespace Letter

def text : Letter → String
  | .i => "i"
  | .d => "d"
  | .a => "a"
  | .b => "b"

/-- Whether a value has the type the letter names; strings are references. -/
def admits : Letter → Value → Bool
  | .i, .int _ | .b, .int _ => true
  | .d, .real _ => true
  | .a, .str _ | .a, .ref _ | .a, .null => true
  | _, _ => false

/-- The letter of values of a kind; a void value has none. -/
def ofKind : ValueKind → Option Letter
  | .int | .bool => some .i
  | .real => some .d
  | .str | .array _ | .record _ => some .a
  | .void => none

/-- The letter of array elements of a kind: booleans are stored as bytes. -/
def ofElement : ValueKind → Option Letter
  | .bool => some .b
  | k => ofKind k

end Letter

/-- An `int` narrowed to a `boolean`: its lowest bit. -/
def narrowBool : Value → Value
  | .int v => .int (v &&& 1)
  | v => v

/-- The value a static field, an instance field or a method result of kind `k` takes from
`v`: `v` must have the kind's type, and a boolean is narrowed. -/
def assign (k : ValueKind) (v : Value) : Option Value :=
  match Letter.ofKind k with
  | some t => if t.admits v then some (if k = .bool then narrowBool v else v) else none
  | none => none

/-- The element an array of letter `t` takes from `v`; `bastore` narrows to a boolean. -/
def element (t : Letter) (v : Value) : Option Value :=
  if t.admits v then some (if t = .b then narrowBool v else v) else none

/-- What `dcmpg` (`g`) or `dcmpl` pushes for two doubles: `-1`, `0` or `1` as the first is
below, equal to or above the second, and for a NaN `1` or `-1`. -/
def compareDoubles (g : Bool) (a b : Float) : Int32 :=
  if a.isNaN || b.isNaN then (if g then 1 else -1)
  else if a < b then -1 else if a == b then 0 else 1

/-- The class `anewarray` names for elements of a kind: the string class, a record class, or
an array class by its descriptor. -/
def elementClass : ValueKind → String
  | .str => "java/lang/String"
  | .record n => n
  | k => descriptor k

/-- A JVM instruction as the assembler writes it. -/
inductive Op where
  /-- `iconst_m1` up to `iconst_5`. -/
  | iconst (v : Int)
  | bipush (v : Int)
  | sipush (v : Int)
  /-- `ldc` of an `int`. -/
  | ldc (v : Int)
  /-- `ldc` of a string. -/
  | ldcString (s : String)
  | ldc2w (x : Float)
  | load (t : Letter) (slot : Nat)
  | store (t : Letter) (slot : Nat)
  | getstatic (cls name : String) (k : ValueKind)
  | putstatic (cls name : String) (k : ValueKind)
  | arith (t : Letter) (op : ArithOp)
  | neg (t : Letter)
  | i2d
  | d2i
  /-- `dcmpg` when `g`, else `dcmpl`. -/
  | dcmp (g : Bool)
  | ifIcmp (c : Condition) (target : Label)
  | ifAcmp (c : Condition) (target : Label)
  /-- `if<c>`: compares an `int` with zero. -/
  | ifZero (c : Condition) (target : Label)
  | goto (target : Label)
  | label (l : Label)
  | invokestatic (cls name : String) (params : List ValueKind) (ret : ValueKind)
  /-- `return`, or with a letter `ireturn`, `dreturn` or `areturn`. -/
  | ret (t : Option Letter)
  | new (cls : String)
  /-- `invokespecial cls/<init>()V`: the constructor of a record class. -/
  | construct (cls : String)
  | getfield (cls name : String) (k : ValueKind)
  | putfield (cls name : String) (k : ValueKind)
  /-- `newarray` of `int`, `boolean` or `double` elements, `anewarray` of references. -/
  | newarray (k : ValueKind)
  | arrayLoad (t : Letter)
  | arrayStore (t : Letter)
  /-- `getstatic java/lang/System/out`. -/
  | getOut
  /-- `invokevirtual java/io/PrintStream/println`. -/
  | println (k : ValueKind)
  | dup
  | dupX2
  | swap
  | pop
  | pop2

namespace Op

/-- The text of an instruction. -/
def text : Op → String
  | .iconst v => if v = -1 then "iconst_m1" else "iconst_" ++ toString v
  | .bipush v => "bipush " ++ toString v
  | .sipush v => "sipush " ++ toString v
  | .ldc v => "ldc " ++ toString v
  | .ldcString s => "ldc \"" ++ Quote.assembly s ++ "\""
  | .ldc2w x => "ldc2_w " ++ Decimal.listingStyle.render x
  | .load t slot => t.text ++ "load " ++ toString slot
  | .store t slot => t.text ++ "store " ++ toString slot
  | .getstatic c n k => "getstatic " ++ c ++ "/" ++ n ++ " " ++ descriptor k
  | .putstatic c n k => "putstatic " ++ c ++ "/" ++ n ++ " " ++ descriptor k
  | .arith t op => t.text ++ op.display
  | .neg t => t.text ++ "neg"
  | .i2d => "i2d"
  | .d2i => "d2i"
  | .dcmp g => if g then "dcmpg" else "dcmpl"
  | .ifIcmp c l => "if_icmp" ++ c.display ++ " " ++ labelText l
  | .ifAcmp c l => "if_acmp" ++ c.display ++ " " ++ labelText l
  | .ifZero c l => "if" ++ c.display ++ " " ++ labelText l
  | .goto l => "goto " ++ labelText l
  | .label l => labelText l ++ ":"
  | .invokestatic c n ps r => "invokestatic " ++ c ++ "/" ++ n ++ methodDescriptor ps r
  | .ret none => "return"
  | .ret (some t) => t.text ++ "return"
  | .new c => "new " ++ c
  | .construct c => "invokespecial " ++ c ++ "/<init>()V"
  | .getfield c n k => "getfield " ++ c ++ "/" ++ n ++ " " ++ descriptor k
  | .putfield c n k => "putfield " ++ c ++ "/" ++ n ++ " " ++ descriptor k
  | .newarray .int => "newarray int"
  | .newarray .bool => "newarray boolean"
  | .newarray .real => "newarray double"
  | .newarray k => "anewarray " ++ elementClass k
  | .arrayLoad t => t.text ++ "aload"
  | .arrayStore t => t.text ++ "astore"
  | .getOut => "getstatic java/lang/System/out L" ++ printStream ++ ";"
  | .println k => "invokevirtual " ++ printStream ++ "/println(" ++ descriptor k ++ ")V"
  | .dup => "dup"
  | .dupX2 => "dup_x2"
  | .swap => "swap"
  | .pop => "pop"
  | .pop2 => "pop2"

/-- The line of an instruction in a method body: a label at the margin, the rest indented. -/
def line : Op → String
  | .label l => labelText l ++ ":\n"
  | op => Jvm.line op.text

end Op

/-- The lines of a run of instructions. -/
def linesOf : List Op → String
  | [] => ""
  | op :: ops => ops.foldl (fun text o => text ++ o.line) op.line

/-! ## What an instruction does -/

/-- What running an instruction leads to. -/
inductive Effect where
  | next (f : Frame) (s : Store)
  | goto (target : Label) (f : Frame) (s : Store)
  /-- Calls the static method of that name and descriptor with these arguments. -/
  | invoke (name desc : String) (args : List Value) (f : Frame) (s : Store)
  | done (result : Option Value) (s : Store)
  /-- Throws the exception of a trap: an arithmetic, index, null pointer or negative size
  exception, or a linkage error. -/
  | throw (t : Trap) (s : Store)
  /-- The verifier rejects the instruction in this frame. -/
  | reject

/-- Goes to `target` when `jump` holds, else on. -/
def Effect.branch (jump : Bool) (target : Label) (f : Frame) (s : Store) : Effect :=
  if jump then .goto target f s else .next f s

/-- Takes the arguments of a call off the operand stack, topmost first, each of its
parameter's type; `ks` lists the parameters last first. -/
def takeArgs : List ValueKind → List Entry → Option (List Value × List Entry)
  | [], st => some ([], st)
  | k :: ks, .val v :: st =>
    if (Letter.ofKind k).any (·.admits v) then
      (takeArgs ks st).map fun (vs, rest) => (v :: vs, rest)
    else none
  | _ :: _, _ => none

section

variable (m : Module) (r : ValueKind)

/-- The static field of the program class with that name and descriptor is declared. -/
def staticResolves (c n : String) (k : ValueKind) : Bool :=
  c == m.name && m.globals.any fun g => g.name == n && descriptor g.kind == descriptor k

/-- The static method of the program class with that name and descriptor is declared. -/
def methodResolves (c n : String) (ps : List ValueKind) (k : ValueKind) : Bool :=
  c == m.name && m.routines.any fun rc =>
    rc.name == n && methodDescriptor rc.params rc.ret == methodDescriptor ps k

/-- The instance field of the record class with that name and descriptor is declared. -/
def fieldResolves (c n : String) (k : ValueKind) : Bool :=
  match m.typeDef? c with
  | some t => t.fields.any fun fd => fd.1 == n && descriptor fd.2 == descriptor k
  | none => false

/-- What an instruction does in a method of the program class of `m` whose result has kind
`r`. -/
def Op.exec (f : Frame) (s : Store) : Op → Effect
  | .iconst v => if -1 ≤ v ∧ v ≤ 5 then .next (f.push (.int (Int32.ofInt v))) s else .reject
  | .bipush v => .next (f.push (.int (Int8.ofInt v).toInt32)) s
  | .sipush v => .next (f.push (.int (Int16.ofInt v).toInt32)) s
  | .ldc v =>
    if -2147483648 ≤ v ∧ v ≤ 2147483647 then .next (f.push (.int (Int32.ofInt v))) s else .reject
  | .ldcString str => .next (f.push (.str str)) s
  | .ldc2w x => .next (f.push (.real x)) s
  | .load t slot =>
    match f.locals.lookup slot with
    | some v => if t.admits v then .next (f.push v) s else .reject
    | none => .reject
  | .store t slot =>
    match f.stack with
    | .val v :: rest => if t.admits v then .next ⟨rest, (slot, v) :: f.locals⟩ s else .reject
    | _ => .reject
  | .getstatic c n k =>
    if staticResolves m c n k then
      match s.globals.lookup n with
      | some v => .next (f.push v) s
      | none => .reject
    else .throw .linkage s
  | .putstatic c n k =>
    if staticResolves m c n k then
      match f.stack with
      | .val v :: rest =>
        match assign k v with
        | some v' => .next ⟨rest, f.locals⟩ { s with globals := Machine.setGlobal s.globals n v' }
        | none => .reject
      | _ => .reject
    else .throw .linkage s
  | .arith t op =>
    match t, f.stack with
    | .i, .val (.int b) :: .val (.int a) :: rest =>
      match Machine.intArith op a b with
      | .ok v => .next ⟨.val (.int v) :: rest, f.locals⟩ s
      | .error e => .throw e s
    | .d, .val (.real b) :: .val (.real a) :: rest =>
      match Machine.realArith op a b with
      | some x => .next ⟨.val (.real x) :: rest, f.locals⟩ s
      | none => .reject
    | _, _ => .reject
  | .neg t =>
    match t, f.stack with
    | .i, .val (.int a) :: rest => .next ⟨.val (.int (-a)) :: rest, f.locals⟩ s
    | .d, .val (.real x) :: rest => .next ⟨.val (.real (-x)) :: rest, f.locals⟩ s
    | _, _ => .reject
  | .i2d =>
    match f.stack with
    | .val (.int a) :: rest => .next ⟨.val (.real (Binary64.ofInt a.toInt)) :: rest, f.locals⟩ s
    | _ => .reject
  | .d2i =>
    match f.stack with
    | .val (.real x) :: rest => .next ⟨.val (.int (Machine.realToInt x)) :: rest, f.locals⟩ s
    | _ => .reject
  | .dcmp g =>
    match f.stack with
    | .val (.real b) :: .val (.real a) :: rest =>
      .next ⟨.val (.int (compareDoubles g a b)) :: rest, f.locals⟩ s
    | _ => .reject
  | .ifIcmp c l =>
    match f.stack with
    | .val (.int b) :: .val (.int a) :: rest => .branch (Machine.intHolds c a b) l ⟨rest, f.locals⟩ s
    | _ => .reject
  | .ifAcmp c l =>
    match f.stack with
    | .val b :: .val a :: rest =>
      if Letter.a.admits a && Letter.a.admits b then
        match c with
        | .eq => .branch (a.sameObject b) l ⟨rest, f.locals⟩ s
        | .ne => .branch (!a.sameObject b) l ⟨rest, f.locals⟩ s
        | _ => .reject
      else .reject
    | _ => .reject
  | .ifZero c l =>
    match f.stack with
    | .val (.int a) :: rest => .branch (Machine.intHolds c a 0) l ⟨rest, f.locals⟩ s
    | _ => .reject
  | .goto l => .goto l f s
  | .label _ => .next f s
  | .invokestatic c n ps k =>
    if methodResolves m c n ps k then
      match takeArgs ps.reverse f.stack with
      | some (args, rest) => .invoke n (methodDescriptor ps k) args.reverse ⟨rest, f.locals⟩ s
      | none => .reject
    else .throw .linkage s
  | .ret none => if r = .void then .done none s else .reject
  | .ret (some t) =>
    match f.stack with
    | .val v :: _ =>
      if Letter.ofKind r = some t then
        match assign r v with
        | some v' => .done (some v') s
        | none => .reject
      else .reject
    | _ => .reject
  | .new c =>
    match m.typeDef? c with
    | some t =>
      let (v, s') := s.alloc (.record c (t.fields.map fun (fd, k) => (fd, Value.initial k)))
      .next (f.push v) s'
    | none => .throw .linkage s
  | .construct c =>
    match m.typeDef? c, f.stack with
    | some _, .val (.ref _) :: rest => .next ⟨rest, f.locals⟩ s
    | some _, _ => .reject
    | none, _ => .throw .linkage s
  | .getfield c n k =>
    if fieldResolves m c n k then
      match f.stack with
      | .val .null :: _ => .throw .nullPointer s
      | .val (.ref a) :: rest =>
        match s.obj? a with
        | some (.record _ fields) =>
          match fields.lookup n with
          | some v => .next ⟨.val v :: rest, f.locals⟩ s
          | none => .reject
        | _ => .reject
      | _ => .reject
    else .throw .linkage s
  | .putfield c n k =>
    if fieldResolves m c n k then
      match f.stack with
      | .val v :: .val o :: rest =>
        match assign k v, o with
        | some _, .null => .throw .nullPointer s
        | some v', .ref a =>
          match s.obj? a with
          | some (.record name fields) =>
            .next ⟨rest, f.locals⟩ (s.update a (.record name (Machine.setGlobal fields n v')))
          | _ => .reject
        | _, _ => .reject
      | _ => .reject
    else .throw .linkage s
  | .newarray k =>
    if Machine.classesDefined m k then
      match f.stack with
      | .val (.int n) :: rest =>
        if n.toInt < 0 then .throw .negativeSize s
        else
          let (v, s') := s.alloc (.array (List.replicate n.toInt.toNat (Value.initial k)))
          .next ⟨.val v :: rest, f.locals⟩ s'
      | _ => .reject
    else .throw .linkage s
  | .arrayLoad _ =>
    match f.stack with
    | .val (.int _) :: .val .null :: _ => .throw .nullPointer s
    | .val (.int i) :: .val (.ref a) :: rest =>
      match s.obj? a with
      | some (.array items) =>
        match items[i.toInt.toNat]? with
        | some v => if 0 ≤ i.toInt then .next ⟨.val v :: rest, f.locals⟩ s else .throw .indexOutOfBounds s
        | none => .throw .indexOutOfBounds s
      | _ => .reject
    | _ => .reject
  | .arrayStore t =>
    match f.stack with
    | .val v :: .val (.int i) :: .val o :: rest =>
      match element t v, o with
      | some _, .null => .throw .nullPointer s
      | some v', .ref a =>
        match s.obj? a with
        | some (.array items) =>
          if 0 ≤ i.toInt ∧ i.toInt.toNat < items.length then
            .next ⟨rest, f.locals⟩ (s.update a (.array (items.set i.toInt.toNat v')))
          else .throw .indexOutOfBounds s
        | _ => .reject
      | _, _ => .reject
    | _ => .reject
  | .getOut => .next { f with stack := .out :: f.stack } s
  | .println k =>
    match f.stack with
    | .val v :: .out :: rest =>
      match Machine.printed k v with
      | some p => .next ⟨rest, f.locals⟩ { s with out := s.out ++ [p] }
      | none => .reject
    | _ => .reject
  | .dup =>
    match f.stack with
    | e :: rest => if e.wide then .reject else .next ⟨e :: e :: rest, f.locals⟩ s
    | [] => .reject
  | .dupX2 =>
    match f.stack with
    | e₁ :: e₂ :: rest =>
      if e₁.wide then .reject
      else if e₂.wide then .next ⟨e₁ :: e₂ :: e₁ :: rest, f.locals⟩ s
      else
        match rest with
        | e₃ :: rest' =>
          if e₃.wide then .reject else .next ⟨e₁ :: e₂ :: e₃ :: e₁ :: rest', f.locals⟩ s
        | [] => .reject
    | _ => .reject
  | .swap =>
    match f.stack with
    | e₁ :: e₂ :: rest =>
      if e₁.wide || e₂.wide then .reject else .next ⟨e₂ :: e₁ :: rest, f.locals⟩ s
    | _ => .reject
  | .pop =>
    match f.stack with
    | e :: rest => if e.wide then .reject else .next ⟨rest, f.locals⟩ s
    | [] => .reject
  | .pop2 =>
    match f.stack with
    | e :: rest =>
      if e.wide then .next ⟨rest, f.locals⟩ s
      else
        match rest with
        | e₂ :: rest' => if e₂.wide then .reject else .next ⟨rest', f.locals⟩ s
        | [] => .reject
    | [] => .reject

/-- Runs instructions one after another while each goes on to the next. -/
def run : List Op → Frame → Store → Effect
  | [], f, s => .next f s
  | op :: ops, f, s =>
    match op.exec m r f s with
    | .next f' s' => run ops f' s'
    | e => e

@[simp] theorem run_nil (f : Frame) (s : Store) : run m r [] f s = .next f s := rfl

theorem run_cons_of_next {op : Op} {ops : List Op} {f f' : Frame} {s s' : Store}
    (h : op.exec m r f s = .next f' s') : run m r (op :: ops) f s = run m r ops f' s' := by
  simp only [run, h]

theorem run_single (op : Op) (f : Frame) (s : Store) : run m r [op] f s = op.exec m r f s := by
  simp only [run]
  split <;> simp_all

end

/-! ## The instructions of a stack instruction -/

/-- The letter of typed instructions on values of a kind, or the assembler's error. -/
def letterOf (k : ValueKind) : Except Error Letter :=
  match Letter.ofKind k with
  | some t => .ok t
  | none => .error (.unsupportedOperation "a value of kind void")

/-- The letter of array element instructions on a kind, or the assembler's error. -/
def elementLetterOf (k : ValueKind) : Except Error Letter :=
  match Letter.ofElement k with
  | some t => .ok t
  | none => .error (.unsupportedOperation "a value of kind void")

theorem letterOf_map_ok {α : Type} {g : Letter → α} {k : ValueKind} {a : α}
    (h : g <$> letterOf k = .ok a) : ∃ t, Letter.ofKind k = some t ∧ a = g t := by
  unfold letterOf at h
  cases ht : Letter.ofKind k with
  | none => rw [ht] at h; cases h
  | some t => rw [ht] at h; cases h; exact ⟨t, rfl, rfl⟩

theorem elementLetterOf_map_ok {α : Type} {g : Letter → α} {k : ValueKind} {a : α}
    (h : g <$> elementLetterOf k = .ok a) : ∃ t, Letter.ofElement k = some t ∧ a = g t := by
  unfold elementLetterOf at h
  cases ht : Letter.ofElement k with
  | none => rw [ht] at h; cases h
  | some t => rw [ht] at h; cases h; exact ⟨t, rfl, rfl⟩

theorem typePrefix_eq (k : ValueKind) : typePrefix k = Letter.text <$> letterOf k := by
  cases k <;> rfl

theorem arrayPrefix_eq (k : ValueKind) : arrayPrefix k = Letter.text <$> elementLetterOf k := by
  cases k <;> rfl

/-- The push of a constant: the shortest for an integer in 32 bits. -/
def pushOp : Constant → Except Error Op
  | .int v =>
    if v < -2147483648 || v > 2147483647 then
      .error (.unsupportedOperation ("integer constant " ++ toString v ++ " does not fit in 32 bits"))
    else if v == -1 then .ok (.iconst v)
    else if 0 ≤ v && v ≤ 5 then .ok (.iconst v)
    else if -128 ≤ v && v ≤ 127 then .ok (.bipush v)
    else if -32768 ≤ v && v ≤ 32767 then .ok (.sipush v)
    else .ok (.ldc v)
  | .real x =>
    if x.isFinite then .ok (.ldc2w x)
    else .error (.unsupportedOperation ("real constant " ++ Decimal.listingStyle.render x))
  | .bool b => .ok (.iconst (if b then 1 else 0))
  | .str s => .ok (.ldcString s)

/-- The comparison of two doubles before a branch on condition `c`: `dcmpg` for `<` and `≤`,
so that a NaN makes them false, and `dcmpl` for the others. -/
def compareFor : Condition → Op
  | .lt | .le => .dcmp true
  | _ => .dcmp false

end Jvm

open Jvm in
/-- The JVM instructions of a stack instruction in a method of class `cls`, or the
assembler's error. -/
def Instr.jvmOps (cls : String) : Instr → Except Error (List Op)
  | .push c => (fun op => [op]) <$> pushOp c
  | .load s k => (fun t => [.load t s]) <$> letterOf k
  | .store s k => (fun t => [.store t s]) <$> letterOf k
  | .getGlobal n k => .ok [.getstatic cls n k]
  | .putGlobal n k => .ok [.putstatic cls n k]
  | .arith op k =>
    match op, k with
    | .xor, .int | .xor, .bool => .ok [.arith .i .xor]
    | .xor, _ => .error (.unsupportedOperation ("xor on " ++ k.display))
    | _, .int | _, .real => (fun t => [.arith t op]) <$> letterOf k
    | _, _ => .error (.unsupportedOperation (op.display ++ " on " ++ k.display))
  | .neg .int => .ok [.neg .i]
  | .neg .real => .ok [.neg .d]
  | .neg k => .error (.unsupportedOperation ("negation of " ++ k.display))
  | .convert .intToReal => .ok [.i2d]
  | .convert .realToInt => .ok [.d2i]
  | .compareBranch c k t =>
    match k with
    | .int | .bool => .ok [.ifIcmp c t]
    | .real => .ok [compareFor c, .ifZero c t]
    | _ =>
      match c with
      | .eq | .ne => .ok [.ifAcmp c t]
      | _ => .error (.unsupportedOperation (c.display ++ " comparison on " ++ k.display))
  | .branchZero c t => .ok [.ifZero c t]
  | .jump t => .ok [.goto t]
  | .label l => .ok [.label l]
  | .call n ps r => .ok [.invokestatic cls n ps r]
  | .ret .void => .ok [.ret none]
  | .ret k => (fun t => [.ret (some t)]) <$> letterOf k
  | .newRecord n => .ok [.new n, .dup, .construct n]
  | .getField r f k => .ok [.getfield r f k]
  | .putField r f k => .ok [.putfield r f k]
  | .newArray .void => .error (.unsupportedOperation "array of void")
  | .newArray e => .ok [.newarray e]
  | .arrayLoad k => (fun t => [.arrayLoad t]) <$> elementLetterOf k
  | .arrayStore k => (fun t => [.arrayStore t]) <$> elementLetterOf k
  | .print k =>
    match k with
    | .int | .bool | .real | .str =>
      .ok (.getOut :: (if k.isWide then [.dupX2, .pop] else [.swap]) ++ [.println k])
    | _ => .error (.unsupportedOperation ("printing " ++ k.display))
  | .dup => .ok [.dup]
  | .pop k => .ok (if k.isWide then [.pop2] else if k == .void then [] else [.pop])

namespace Jvm

/-- The assembly of an instruction is the text of its JVM instructions, one line each. -/
theorem instrLines_eq (cls : String) (i : Instr) : instrLines cls i = linesOf <$> i.jvmOps cls := by
  cases i with
  | push c =>
    cases c with
    | int v =>
      simp only [instrLines, pushConstant, pushInt, Instr.jvmOps, pushOp]
      split
      · rfl
      · split
        · rename_i h
          rw [beq_iff_eq] at h
          subst h
          rfl
        · rename_i h
          split
          · show Except.ok _ = Except.ok (line (if v = -1 then _ else _))
            rw [if_neg (by simpa using h)]
          · split
            · rfl
            · split <;> rfl
    | real x =>
      simp only [instrLines, pushConstant, Instr.jvmOps, pushOp]
      split <;> rfl
    | bool b => cases b <;> rfl
    | str s => rfl
  | load s k | store s k => cases k <;> rfl
  | arrayLoad k | arrayStore k => cases k <;> rfl
  | arith op k => cases op <;> cases k <;> rfl
  | neg k | newArray k | pop k | ret k => cases k <;> rfl
  | print k =>
    cases k
    case real =>
      show Except.ok (_ ++ (_ ++ _) ++ _) = Except.ok (_ ++ _ ++ _ ++ _)
      rw [← String.append_assoc]
      rfl
    all_goals rfl
  | compareBranch c k t => cases k <;> cases c <;> rfl
  | convert c => cases c <;> rfl
  | _ => rfl

end Jvm

end ImpStack
