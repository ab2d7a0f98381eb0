import ImpStack.Stack.Code
import ImpStack.Number.Binary64

/-! # The target machine

What a module does when it runs on its target, the JVM, told at the granularity of the
module's own instructions. Each instruction does what the JVM instructions it is assembled to
do:

* integers and booleans are JVM `int`s (a boolean is `1` or `0`): arithmetic wraps at 32 bits,
  division and remainder truncate toward zero and a zero divisor traps; reals are doubles with
  their IEEE operations, a real remainder being the truncated one;
* converting a real to an integer gives `0` for NaN, saturates outside the 32-bit range and
  truncates toward zero otherwise; comparing a NaN holds only for `≠`;
* strings are values; arrays and records live on a heap and are reached through references;
  a fresh array, a fresh record's fields and the globals start from their kind's zero: `0`,
  `false`, `0.0` or no object;
* a call passes its arguments in the callee's first slots (a real takes two); a method, a
  global, a record class or a field is found by its name and kind, as the JVM resolves them.

A run stops early on a *trap*: a zero divisor, an index outside an array, a field or element
reached through no object, a negative array size, or a reference to a method, global, class or
field the module does not define. It is *invalid* when the code does something the JVM's
verifier rules out: it pops from an empty stack, finds an operand of the wrong kind, loads a
slot never stored, jumps to no label or runs off the end of its code. The machine counts fuel:
each instruction and each call spends one level of it, so a run that never ends runs out of
every fuel.

A module runs its initializer and then, when it has one without parameters, its routine
`main`. What it prints is kept as values; each prints as the JVM prints it, so equal values
print equal lines.
-/

namespace ImpStack

/-- A value the machine holds. -/
inductive Value where
  | int (v : Int32)
  | real (x : Float)
  | str (s : String)
  | ref (address : Nat)
  | null
  deriving Repr, Inhabited

namespace Value

/-- The first value of a variable, a field or an element of a kind. -/
def initial : ValueKind → Value
  | .int | .bool => .int 0
  | .real => .real 0.0
  | _ => .null

/-- The JVM `int` of a boolean. -/
def ofBool (b : Bool) : Value := .int (if b then 1 else 0)

/-- The value a constant pushes. -/
def ofConstant : Constant → Value
  | .int v => .int (Int32.ofInt v)
  | .real x => .real x
  | .bool b => ofBool b
  | .str s => .str s

/-- Reference equality, as `if_acmpeq` tests it; string constants are interned, so equal
strings are one object. -/
def sameObject : Value → Value → Bool
  | .ref a, .ref b => a == b
  | .null, .null => true
  | .str a, .str b => a == b
  | _, _ => false

end Value

/-- An object on the heap. -/
inductive Obj where
  | array (items : List Value)
  | record (name : String) (fields : List (String × Value))
  deriving Repr, Inhabited

/-- A printed line, as the value printed under the kind the print names; a string that is no
object prints as `null`. -/
inductive Printed where
  | int (v : Int32)
  | bool (b : Bool)
  | real (x : Float)
  | str (s : Option String)
  deriving Repr, Inhabited

/-- A runtime error that ends a run. -/
inductive Trap where
  | divisionByZero
  | indexOutOfBounds
  | nullPointer
  | negativeSize
  /-- A method, global, record class or field the module does not define. -/
  | linkage
  deriving DecidableEq, Repr, Inhabited

/-- How a run ends. -/
inductive Outcome where
  | normal
  | trap (t : Trap)
  /-- The code does something the verifier rules out. -/
  | invalid
  | outOfFuel
  deriving DecidableEq, Repr, Inhabited

/-- What all routines share: the globals, the heap and the lines printed so far. -/
structure Store where
  globals : List (String × Value)
  heap : List Obj
  out : List Printed
  deriving Inhabited

/-- The object at an address. -/
def Store.obj? (s : Store) (address : Nat) : Option Obj := s.heap[address]?

/-- Puts a new object on the heap; returns its reference. -/
def Store.alloc (s : Store) (o : Obj) : Value × Store :=
  (.ref s.heap.length, { s with heap := s.heap ++ [o] })

/-- Replaces the object at an address. -/
def Store.update (s : Store) (address : Nat) (o : Obj) : Store :=
  { s with heap := s.heap.set address o }

/-- The state of one routine's run: its operand stack, top first, and its local slots. -/
structure Activation where
  stack : List Value
  locals : List (Nat × Value)
  deriving Inhabited

/-- How a routine's run ends: it returns (a value, unless void), or the whole run stops. -/
inductive Finish where
  | returned (result : Option Value)
  | stopped (o : Outcome)
  deriving Inhabited

namespace Machine

/-- Integer arithmetic on JVM `int`s. -/
def intArith (op : ArithOp) (l r : Int32) : Except Trap Int32 :=
  match op with
  | .add => .ok (l + r)
  | .sub => .ok (l - r)
  | .mul => .ok (l * r)
  | .div => if r = 0 then .error .divisionByZero else .ok (l / r)
  | .rem => if r = 0 then .error .divisionByZero else .ok (l % r)
  | .xor => .ok (l ^^^ r)

/-- Arithmetic on doubles; there is no exclusive or of reals. -/
def realArith (op : ArithOp) (l r : Float) : Option Float :=
  match op with
  | .add => some (l + r)
  | .sub => some (l - r)
  | .mul => some (l * r)
  | .div => some (l / r)
  | .rem => some (Binary64.fmod l r)
  | .xor => none

/-- The integer nearest to a double toward zero, saturated to 32 bits; `0` for NaN. -/
def realToInt (x : Float) : Int32 :=
  match Binary64.parts? x with
  | none =>
    if x.isNaN then 0
    else if Binary64.signBit x then Int32.ofInt (-2147483648) else Int32.ofInt 2147483647
  | some p =>
    let magnitude : Nat :=
      if 0 ≤ p.exponent then p.significand <<< p.exponent.toNat
      else p.significand >>> (-p.exponent).toNat
    let v : Int := if p.negative then -(magnitude : Int) else magnitude
    if v < -2147483648 then Int32.ofInt (-2147483648)
    else if 2147483647 < v then Int32.ofInt 2147483647
    else Int32.ofInt v

/-- Whether a condition holds of an ordering. -/
def holds (c : Condition) (o : Ordering) : Bool :=
  match c with
  | .eq => o == .eq
  | .ne => o != .eq
  | .lt => o == .lt
  | .le => o != .gt
  | .gt => o == .gt
  | .ge => o != .lt

/-- A condition on two doubles; when either is NaN only `≠` holds. -/
def realHolds (c : Condition) (l r : Float) : Bool :=
  if l.isNaN || r.isNaN then c == .ne
  else holds c (if l < r then .lt else if l == r then .eq else .gt)

/-- A condition on two JVM `int`s. -/
def intHolds (c : Condition) (l r : Int32) : Bool :=
  holds c (if l < r then .lt else if l = r then .eq else .gt)

/-- The position of the first definition of a label. -/
def labelAt (code : List Instr) (l : Label) : Option Nat :=
  code.findIdx? fun i => match i with
    | .label l' => l' == l
    | _ => false

/-- The local slots of a callee: its arguments from slot 0 on, a real taking two slots. -/
def paramSlots : List ValueKind → List Value → Nat → List (Nat × Value)
  | k :: ks, v :: vs, slot => (slot, v) :: paramSlots ks vs (slot + k.width)
  | _, _, _ => []

/-- The stack after a call returns: the result goes on top unless the routine is void. -/
def resultStack (ret : ValueKind) (result : Option Value) (stack : List Value) :
    Option (List Value) :=
  match ret, result with
  | .void, none => some stack
  | .void, some _ => none
  | _, some v => some (v :: stack)
  | _, none => none

/-- Sets a global. -/
def setGlobal (globals : List (String × Value)) (name : String) (v : Value) :
    List (String × Value) :=
  globals.map fun g => if g.1 == name then (name, v) else g

/-- Every record class a kind names is defined by the module. -/
def classesDefined (m : Module) : ValueKind → Bool
  | .array e => classesDefined m e
  | .record n => (m.typeDef? n).isSome
  | _ => true

/-- The field of a record class, found by name and kind. -/
def fieldDefined (m : Module) (record field : String) (k : ValueKind) : Bool :=
  match m.typeDef? record with
  | some t => t.fields.lookup field == some k
  | none => false

/-- The routine a call names, found by name, parameter kinds and result kind. -/
def method? (m : Module) (name : String) (params : List ValueKind) (ret : ValueKind) :
    Option RoutineCode :=
  m.routines.find? fun r => r.name == name && r.params == params && r.ret == ret

/-- Whether the module has a global of that name and kind. -/
def globalDefined (m : Module) (name : String) (k : ValueKind) : Bool :=
  m.globals.any fun g => g.name == name && g.kind == k

/-- What one instruction does. -/
inductive Step where
  | next (f : Activation) (s : Store)
  | goto (target : Label) (f : Activation) (s : Store)
  /-- A call of `routine` with `args`, leaving `f` to go on from when it returns. -/
  | call (routine : RoutineCode) (args : List Value) (f : Activation) (s : Store)
  | done (result : Option Value) (s : Store)
  | stop (o : Outcome) (s : Store)
  deriving Inhabited

/-- Pushes a value and goes on. -/
def Step.push (v : Value) (rest : List Value) (f : Activation) (s : Store) : Step :=
  .next { f with stack := v :: rest } s

/-- Goes to `target` when `jump` holds, else on. -/
def Step.branch (jump : Bool) (target : Label) (f : Activation) (s : Store) : Step :=
  if jump then .goto target f s else .next f s

/-- Reads the element of an array object. -/
def loadElement (s : Store) (obj : Value) (index : Int32) (rest : List Value) (f : Activation) : Step :=
  match obj with
  | .null => .stop (.trap .nullPointer) s
  | .ref a =>
    match s.obj? a with
    | some (.array items) =>
      match items[index.toInt.toNat]? with
      | some v => if 0 ≤ index.toInt then Step.push v rest f s else .stop (.trap .indexOutOfBounds) s
      | none => .stop (.trap .indexOutOfBounds) s
    | _ => .stop .invalid s
  | _ => .stop .invalid s

/-- Writes the element of an array object. -/
def storeElement (s : Store) (obj : Value) (index : Int32) (v : Value) (rest : List Value)
    (f : Activation) : Step :=
  match obj with
  | .null => .stop (.trap .nullPointer) s
  | .ref a =>
    match s.obj? a with
    | some (.array items) =>
      if 0 ≤ index.toInt ∧ index.toInt.toNat < items.length then
        .next { f with stack := rest } (s.update a (.array (items.set index.toInt.toNat v)))
      else .stop (.trap .indexOutOfBounds) s
    | _ => .stop .invalid s
  | _ => .stop .invalid s

/-- The line a print of a value under a kind writes. -/
def printed : ValueKind → Value → Option Printed
  | .int, .int v => some (.int v)
  | .bool, .int v => some (.bool (v != 0))
  | .real, .real x => some (.real x)
  | .str, .str s => some (.str (some s))
  | .str, .null => some (.str none)
  | _, _ => none

/-- What an instruction does in a frame and a store. -/
def step (m : Module) (f : Activation) (s : Store) : Instr → Step
  | .push c => Step.push (Value.ofConstant c) f.stack f s
  | .load slot _ =>
    match f.locals.lookup slot with
    | some v => Step.push v f.stack f s
    | none => .stop .invalid s
  | .store slot _ =>
    match f.stack with
    | v :: rest => .next ⟨rest, (slot, v) :: f.locals⟩ s
    | [] => .stop .invalid s
  | .getGlobal n k =>
    if !globalDefined m n k then .stop (.trap .linkage) s
    else match s.globals.lookup n with
      | some v => Step.push v f.stack f s
      | none => .stop .invalid s
  | .putGlobal n k =>
    if !globalDefined m n k then .stop (.trap .linkage) s
    else match f.stack with
      | v :: rest => .next { f with stack := rest } { s with globals := setGlobal s.globals n v }
      | [] => .stop .invalid s
  | .arith op k =>
    match f.stack with
    | r :: l :: rest =>
      match k, l, r with
      | .real, .real a, .real b =>
        match realArith op a b with
        | some x => Step.push (.real x) rest f s
        | none => .stop .invalid s
      | .int, .int a, .int b =>
        match intArith op a b with
        | .ok v => Step.push (.int v) rest f s
        | .error t => .stop (.trap t) s
      | .bool, .int a, .int b =>
        if op == .xor then Step.push (.int (a ^^^ b)) rest f s else .stop .invalid s
      | _, _, _ => .stop .invalid s
    | _ => .stop .invalid s
  | .neg k =>
    match k, f.stack with
    | .int, .int a :: rest => Step.push (.int (-a)) rest f s
    | .real, .real x :: rest => Step.push (.real (-x)) rest f s
    | _, _ => .stop .invalid s
  | .convert .intToReal =>
    match f.stack with
    | .int a :: rest => Step.push (.real (Binary64.ofInt a.toInt)) rest f s
    | _ => .stop .invalid s
  | .convert .realToInt =>
    match f.stack with
    | .real x :: rest => Step.push (.int (realToInt x)) rest f s
    | _ => .stop .invalid s
  | .compareBranch c k t =>
    match f.stack with
    | r :: l :: rest =>
      let f' := { f with stack := rest }
      match k, l, r with
      | .real, .real a, .real b => Step.branch (realHolds c a b) t f' s
      | .int, .int a, .int b | .bool, .int a, .int b => Step.branch (intHolds c a b) t f' s
      | .str, l, r | .array _, l, r | .record _, l, r =>
        match c with
        | .eq => Step.branch (l.sameObject r) t f' s
        | .ne => Step.branch (!l.sameObject r) t f' s
        | _ => .stop .invalid s
      | _, _, _ => .stop .invalid s
    | _ => .stop .invalid s
  | .branchZero c t =>
    match f.stack with
    | .int a :: rest => Step.branch (intHolds c a 0) t { f with stack := rest } s
    | _ => .stop .invalid s
  | .jump t => .goto t f s
  | .label _ => .next f s
  | .call n ps r =>
    match method? m n ps r with
    | none => .stop (.trap .linkage) s
    | some routine =>
      if ps.length ≤ f.stack.length then
        .call routine (f.stack.take ps.length).reverse { f with stack := f.stack.drop ps.length } s
      else .stop .invalid s
  | .ret .void => .done none s
  | .ret _ =>
    match f.stack with
    | v :: _ => .done (some v) s
    | [] => .stop .invalid s
  | .newRecord n =>
    match m.typeDef? n with
    | none => .stop (.trap .linkage) s
    | some t =>
      let (v, s') := s.alloc (.record n (t.fields.map fun (fd, k) => (fd, Value.initial k)))
      Step.push v f.stack f s'
  | .getField r fd k =>
    if !fieldDefined m r fd k then .stop (.trap .linkage) s
    else match f.stack with
      | .null :: _ => .stop (.trap .nullPointer) s
      | .ref a :: rest =>
        match s.obj? a with
        | some (.record _ fields) =>
          match fields.lookup fd with
          | some v => Step.push v rest f s
          | none => .stop .invalid s
        | _ => .stop .invalid s
      | _ => .stop .invalid s
  | .putField r fd k =>
    if !fieldDefined m r fd k then .stop (.trap .linkage) s
    else match f.stack with
      | _ :: .null :: _ => .stop (.trap .nullPointer) s
      | v :: .ref a :: rest =>
        match s.obj? a with
        | some (.record name fields) =>
          .next { f with stack := rest }
            (s.update a (.record name (setGlobal fields fd v)))
        | _ => .stop .invalid s
      | _ => .stop .invalid s
  | .newArray e =>
    if !classesDefined m e then .stop (.trap .linkage) s
    else match f.stack with
      | .int size :: rest =>
        if size.toInt < 0 then .stop (.trap .negativeSize) s
        else
          let (v, s') := s.alloc (.array (List.replicate size.toInt.toNat (Value.initial e)))
          Step.push v rest f s'
      | _ => .stop .invalid s
  | .arrayLoad _ =>
    match f.stack with
    | .int i :: obj :: rest => loadElement s obj i rest f
    | _ => .stop .invalid s
  | .arrayStore _ =>
    match f.stack with
    | v :: .int i :: obj :: rest => storeElement s obj i v rest f
    | _ => .stop .invalid s
  | .print k =>
    match f.stack with
    | v :: rest =>
      match printed k v with
      | some line => .next { f with stack := rest } { s with out := s.out ++ [line] }
      | none => .stop .invalid s
    | [] => .stop .invalid s
  | .dup =>
    match f.stack with
    | v :: rest => Step.push v (v :: rest) f s
    | [] => .stop .invalid s
  | .pop .void => .next f s
  | .pop _ =>
    match f.stack with
    | _ :: rest => .next { f with stack := rest } s
    | [] => .stop .invalid s

/-- Runs code from position `pc` until the routine returns or the run stops. A call runs the
callee to its end before the caller goes on; both spend from the same level of fuel. -/
def exec (m : Module) : Nat → List Instr → Nat → Activation → Store → Finish × Store
  | 0, _, _, _, s => (.stopped .outOfFuel, s)
  | fuel + 1, code, pc, f, s =>
    match code[pc]? with
    | none => (.stopped .invalid, s)
    | some i =>
      match step m f s i with
      | .next f' s' => exec m fuel code (pc + 1) f' s'
      | .goto l f' s' =>
        match labelAt code l with
        | some j => exec m fuel code j f' s'
        | none => (.stopped .invalid, s')
      | .call r args f' s' =>
        match exec m fuel r.code 0 ⟨[], paramSlots r.params args 0⟩ s' with
        | (.returned v, s'') =>
          match resultStack r.ret v f'.stack with
          | some stack => exec m fuel code (pc + 1) { f' with stack } s''
          | none => (.stopped .invalid, s'')
        | (.stopped o, s'') => (.stopped o, s'')
      | .done v s' => (.returned v, s')
      | .stop o s' => (.stopped o, s')

/-- Runs a routine without arguments from the start of its code. -/
def runRoutine (m : Module) (fuel : Nat) (r : RoutineCode) (s : Store) : Finish × Store :=
  exec m fuel r.code 0 ⟨[], []⟩ s

end Machine

namespace Module

open Machine

/-- The store a module starts from: every global at its kind's first value. -/
def initialStore (m : Module) : Store :=
  ⟨m.globals.map fun g => (g.name, Value.initial g.kind), [], []⟩

/-- The routine the program starts at after its initializer: `main`, when it has no
parameters. -/
def entry? (m : Module) : Option RoutineCode :=
  match m.routine? "main" with
  | some r => if r.params.isEmpty then some r else none
  | none => none

/-- Runs a module with the given fuel: the initializer, then the entry routine; returns how
the run ended and what it printed. -/
def run (m : Module) (fuel : Nat) : Outcome × List Printed :=
  let (r, s₁) := match m.initializer with
    | some init => runRoutine m fuel init m.initialStore
    | none => (.returned none, m.initialStore)
  match r with
  | .stopped o => (o, s₁.out)
  | .returned _ =>
    match m.entry? with
    | some main =>
      match runRoutine m fuel main s₁ with
      | (.returned _, s₂) => (.normal, s₂.out)
      | (.stopped o, s₂) => (o, s₂.out)
    | none => (.normal, s₁.out)

/-- The run of a module ends, as `o`, having printed `out`: some fuel suffices. -/
def Finishes (m : Module) (o : Outcome) (out : List Printed) : Prop :=
  o ≠ .outOfFuel ∧ ∃ fuel, m.run fuel = (o, out)

/-- The run of a module never ends: every fuel runs out. -/
def Diverges (m : Module) : Prop :=
  ∀ fuel, (m.run fuel).1 = .outOfFuel

end Module

end ImpStack
