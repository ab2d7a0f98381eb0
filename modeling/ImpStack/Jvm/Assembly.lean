import ImpStack.Stack.Code
import ImpStack.Log

/-! # JVM assembly

Renders a module as Jasmin assembly: one class for the program, whose static fields are the
globals, whose static methods are the routines and whose class initializer is the module
initializer, and one class per record layout with public instance fields. When there is a
routine `main` without parameters, the program class also gets the JVM entry point, which
calls it and drops its result.

Each method's stack limit is the code's stack bound plus two: printing pushes the output
stream and creating a record pushes the new reference twice, neither of which the code's
bound counts. Integer constants pick the shortest push for their range and must fit 32 bits;
reals are pushed by their shortest round-trip text; string constants keep printable ASCII
and write every other character as UTF-16 escapes.
-/

namespace ImpStack

/-- A generated file. -/
structure Artifact where
  fileName : String
  contents : String
  deriving Repr, Inhabited

namespace Jvm

/-- The name the backend goes by. -/
def backendName : String := "Jasmin"

/-- The stream printing goes to. -/
def printStream : String := "java/io/PrintStream"

/-- Stack room a method needs beyond its code's bound. -/
def stackHeadroom : Nat := 2

/-- The field descriptor of a kind. -/
def descriptor : ValueKind → String
  | .int => "I"
  | .bool => "Z"
  | .real => "D"
  | .str => "Ljava/lang/String;"
  | .array e => "[" ++ descriptor e
  | .record name => "L" ++ name ++ ";"
  | .void => "V"

/-- The descriptor of a method. -/
def methodDescriptor (params : List ValueKind) (ret : ValueKind) : String :=
  "(" ++ String.join (params.map descriptor) ++ ")" ++ descriptor ret

/-- The type letter of typed instructions such as `iload` or `areturn`. -/
def typePrefix : ValueKind → Except Error String
  | .int | .bool => .ok "i"
  | .real => .ok "d"
  | .str | .array _ | .record _ => .ok "a"
  | .void => .error (.unsupportedOperation "a value of kind void")

/-- The type letter of array element instructions such as `baload`. -/
def arrayPrefix : ValueKind → Except Error String
  | .bool => .ok "b"
  | k => typePrefix k

/-- The shortest push of an integer constant. -/
def pushInt (v : Int) : Except Error String :=
  if v < -2147483648 || v > 2147483647 then
    .error (.unsupportedOperation ("integer constant " ++ toString v ++ " does not fit in 32 bits"))
  else if v == -1 then .ok "iconst_m1"
  else if 0 ≤ v && v ≤ 5 then .ok ("iconst_" ++ toString v)
  else if -128 ≤ v && v ≤ 127 then .ok ("bipush " ++ toString v)
  else if -32768 ≤ v && v ≤ 32767 then .ok ("sipush " ++ toString v)
  else .ok ("ldc " ++ toString v)

/-- The push of a constant. -/
def pushConstant : Constant → Except Error String
  | .int v => pushInt v
  | .real x =>
    if x.isFinite then .ok ("ldc2_w " ++ Decimal.listingStyle.render x)
    else .error (.unsupportedOperation ("real constant " ++ Decimal.listingStyle.render x))
  | .bool b => .ok (if b then "iconst_1" else "iconst_0")
  | .str s => .ok ("ldc \"" ++ Quote.assembly s ++ "\"")

/-- A line of a method body, four spaces in. -/
def line (text : String) : String := "    " ++ text ++ "\n"

/-- The lines of one instruction of a method of class `cls`. -/
def instrLines (cls : String) : Instr → Except Error String
  | .push c => do pure (line (← pushConstant c))
  | .load s k => do pure (line ((← typePrefix k) ++ "load " ++ toString s))
  | .store s k => do pure (line ((← typePrefix k) ++ "store " ++ toString s))
  | .getGlobal n k => .ok (line ("getstatic " ++ cls ++ "/" ++ n ++ " " ++ descriptor k))
  | .putGlobal n k => .ok (line ("putstatic " ++ cls ++ "/" ++ n ++ " " ++ descriptor k))
  | .arith op k => do
    let p ← match op, k with
      | .xor, .int | .xor, .bool => pure "i"
      | .xor, _ => throw (.unsupportedOperation ("xor on " ++ k.display))
      | _, .int | _, .real => typePrefix k
      | _, _ => throw (.unsupportedOperation (op.display ++ " on " ++ k.display))
    pure (line (p ++ op.display))
  | .neg .int => .ok (line "ineg")
  | .neg .real => .ok (line "dneg")
  | .neg k => .error (.unsupportedOperation ("negation of " ++ k.display))
  | .convert .intToReal => .ok (line "i2d")
  | .convert .realToInt => .ok (line "d2i")
  | .compareBranch c k t =>
    match k with
    | .int | .bool => .ok (line ("if_icmp" ++ c.display ++ " " ++ labelText t))
    | .real =>
      let cmp := match c with
        | .lt | .le => "dcmpg"
        | _ => "dcmpl"
      .ok (line cmp ++ line ("if" ++ c.display ++ " " ++ labelText t))
    | _ =>
      match c with
      | .eq | .ne => .ok (line ("if_acmp" ++ c.display ++ " " ++ labelText t))
      | _ => .error (.unsupportedOperation (c.display ++ " comparison on " ++ k.display))
  | .branchZero c t => .ok (line ("if" ++ c.display ++ " " ++ labelText t))
  | .jump t => .ok (line ("goto " ++ labelText t))
  | .label l => .ok (labelText l ++ ":\n")
  | .call n ps r => .ok (line ("invokestatic " ++ cls ++ "/" ++ n ++ methodDescriptor ps r))
  | .ret .void => .ok (line "return")
  | .ret k => do pure (line ((← typePrefix k) ++ "return"))
  | .newRecord n => .ok (line ("new " ++ n) ++ line "dup" ++ line ("invokespecial " ++ n ++ "/<init>()V"))
  | .getField r f k => .ok (line ("getfield " ++ r ++ "/" ++ f ++ " " ++ descriptor k))
  | .putField r f k => .ok (line ("putfield " ++ r ++ "/" ++ f ++ " " ++ descriptor k))
  | .newArray e =>
    match e with
    | .int => .ok (line "newarray int")
    | .bool => .ok (line "newarray boolean")
    | .real => .ok (line "newarray double")
    | .str => .ok (line "anewarray java/lang/String")
    | .record n => .ok (line ("anewarray " ++ n))
    | .array _ => .ok (line ("anewarray " ++ descriptor e))
    | .void => .error (.unsupportedOperation "array of void")
  | .arrayLoad k => do pure (line ((← arrayPrefix k) ++ "aload"))
  | .arrayStore k => do pure (line ((← arrayPrefix k) ++ "astore"))
  | .print k =>
    match k with
    | .int | .bool | .real | .str =>
      .ok (line ("getstatic java/lang/System/out L" ++ printStream ++ ";") ++
        (if k.isWide then line "dup_x2" ++ line "pop" else line "swap") ++
        line ("invokevirtual " ++ printStream ++ "/println(" ++ descriptor k ++ ")V"))
    | _ => .error (.unsupportedOperation ("printing " ++ k.display))
  | .dup => .ok (line "dup")
  | .pop k => .ok (if k.isWide then line "pop2" else if k == .void then "" else line "pop")

/-- The lines of a run of instructions, up to the first that cannot be rendered. -/
def codeLines (cls : String) : List Instr → Except Error String
  | [] => .ok ""
  | i :: rest => do pure ((← instrLines cls i) ++ (← codeLines cls rest))

/-- A method: its header, limits, code and end. -/
def method (cls header : String) (r : RoutineCode) : Except Error String := do
  let body ← codeLines cls r.code
  pure (header ++ "\n" ++ line (".limit stack " ++ toString (r.maxStack + stackHeadroom)) ++
    line (".limit locals " ++ toString r.maxLocals) ++ body ++ ".end method\n\n")

/-- The default constructor. -/
def constructor : String :=
  ".method public <init>()V\n" ++ line "aload_0" ++
    line "invokespecial java/lang/Object/<init>()V" ++ line "return" ++ ".end method\n\n"

/-- The JVM entry point, calling a parameterless `main`. -/
def entryPoint (cls : String) (main : RoutineCode) : String :=
  ".method public static main([Ljava/lang/String;)V\n" ++
    line (".limit stack " ++ toString main.ret.width) ++ line ".limit locals 1" ++
    line ("invokestatic " ++ cls ++ "/main" ++ methodDescriptor [] main.ret) ++
    (match main.ret.width with
      | 0 => ""
      | 1 => line "pop"
      | _ => line "pop2") ++
    line "return" ++ ".end method\n\n"

/-- The log line for a method about to be rendered. -/
def emitting (r : RoutineCode) : LogLine := ⟨.debug, .assembler, "emitting method " ++ r.name⟩

/-- The methods of the program class, in order, each logged before it is rendered; stops at
the first that cannot be rendered. -/
def methods (cls : String) : List (String × RoutineCode) → List LogLine × Except Error String
  | [] => ([], .ok "")
  | (header, r) :: rest =>
    match method cls header r with
    | .error e => ([emitting r], .error e)
    | .ok text =>
      let (log, more) := methods cls rest
      (emitting r :: log, more.map (text ++ ·))

/-- The program class. -/
def programClass (m : Module) : List LogLine × Except Error String :=
  let cls := m.name
  let fields := String.join (m.globals.map fun g =>
    ".field public static " ++ g.name ++ " " ++ descriptor g.kind ++ "\n")
  let headed := m.initializer.toList.map (fun r => (".method static <clinit>()V", r)) ++
    m.routines.map fun r =>
      (".method public static " ++ r.name ++ methodDescriptor r.params r.ret, r)
  let entry := match m.routine? "main" with
    | some main => if main.params.isEmpty then entryPoint cls main else ""
    | none => ""
  let (log, body) := methods cls headed
  (log, body.map fun text =>
    ".class public " ++ cls ++ "\n.super java/lang/Object\n\n" ++ fields ++
      (if m.globals.isEmpty then "" else "\n") ++ constructor ++ text ++ entry)

/-- The class of a record layout. -/
def recordClass (t : TypeDef) : String :=
  ".class public " ++ t.name ++ "\n.super java/lang/Object\n\n" ++
    String.join (t.fields.map fun (f, k) => ".field public " ++ f ++ " " ++ descriptor k ++ "\n") ++
    (if t.fields.isEmpty then "" else "\n") ++ constructor

end Jvm

/-- The assembly files of a module: the program class, then one class per record layout. -/
def assemble (m : Module) : List LogLine × Except Error (List Artifact) :=
  let (log, source) := Jvm.programClass m
  (log, source.map fun text =>
    ⟨m.name ++ ".j", text⟩ :: m.types.map fun t => ⟨t.name ++ ".j", Jvm.recordClass t⟩)

end ImpStack
