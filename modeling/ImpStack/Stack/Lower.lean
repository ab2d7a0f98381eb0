import ImpStack.Stack.Code
import ImpStack.Check.Scope
import ImpStack.Lang.Syntax
import ImpStack.Log

/-! # Lowering programs to stack-machine code

Turns a checked program into a module: a record layout per record declaration, a global per
top-level variable or array declaration, one routine per routine declaration, and an
initializer that gives the globals their first values and runs the other top-level
statements in order (there is no initializer when it would be empty).

The scheme:

* local slots are handed out in order and never reused; parameters are packed from slot 0,
  and with wide alignment a two-slot value (a real) declared later starts on an even slot;
* labels are numbered across the whole module;
* a declaration without initializer starts from zero, `false`, the empty string, or a fresh
  record or array whose record and array parts are created too;
* `if` jumps past its `then` arm on zero and omits the jump and the end label when arms
  return; `while` tests at the top; `for` keeps its counter in a slot of its own and leaves
  when the counter passes the bound (below it when counting down);
* `and`/`or` short-circuit, comparisons branch to push `true` or `false`, `not` and
  conversions to boolean select `true` or `false` from an integer's comparison with zero;
* storing an integer where a real is wanted converts it, and an integer array stored where a
  real array is wanted is copied element by element into a new real array.

Lowering stops at the first error. Errors here are internal: a checked program never causes
one, but a program with diagnostics can.
-/

namespace ImpStack

/-- How to lower. -/
structure LowerOptions where
  /-- The module's name. -/
  className : String := "Main"
  /-- Start two-slot locals on even slots. -/
  alignWide : Bool := true
  deriving Repr, Inhabited

/-- A local variable or parameter. -/
structure Local where
  slot : Nat
  ty : Ty
  kind : ValueKind
  deriving Repr, Inhabited

/-- Where a variable lives. -/
inductive Place where
  | inSlot (l : Local)
  | inGlobal (name : String) (ty : Ty) (kind : ValueKind)
  deriving Repr, Inhabited

/-- The type of the variable in a place. -/
def Place.ty : Place → Ty
  | .inSlot l => l.ty
  | .inGlobal _ t _ => t

/-- Sets a key in an association list, replacing an earlier entry for it. -/
def assocSet {α : Type} (xs : List (String × α)) (k : String) (v : α) : List (String × α) :=
  if xs.any (·.1 == k) then xs.map fun e => if e.1 == k then (k, v) else e else xs ++ [(k, v)]

/-- The routine being lowered. -/
structure Emitter where
  name : String
  returnType : Ty
  /-- The next free slot. -/
  next : Nat
  /-- Local scopes, innermost first; there is always at least one. -/
  frames : List (List (String × Local))
  code : Array Instr
  deriving Inhabited

/-- A fresh routine. -/
def Emitter.start (name : String) (returnType : Ty) : Emitter := ⟨name, returnType, 0, [[]], #[]⟩

/-- The innermost local of a name. -/
def Emitter.lookup (em : Emitter) (name : String) : Option Local :=
  em.frames.findSome? (·.lookup name)

/-- What lowering keeps while it goes. -/
structure LowerState where
  /-- The next label. -/
  labels : Nat
  em : Emitter
  log : List LogLine
  deriving Inhabited

/-- Lowering: stops at the first error, keeping the state (and the log) reached. -/
abbrev LowerM := ExceptT Error (StateM LowerState)

/-- What lowering the statements of routines consults. -/
structure LowerCtx where
  env : TypeEnv
  routines : List (String × RoutineSig)
  /-- Globals with their resolved types and kinds. -/
  globals : List (String × (Ty × ValueKind))
  alignWide : Bool

namespace Lower

/-- Fails with the error of a failed computation. -/
def orFail {α : Type} : Except Error α → LowerM α
  | .ok a => pure a
  | .error e => throw e

/-- Records a log line. -/
def note (level : Level) (message : String) : LowerM Unit :=
  modify fun s => { s with log := s.log ++ [⟨level, .lowering, message⟩] }

/-- Appends an instruction. -/
def emit (i : Instr) : LowerM Unit :=
  modify fun s => { s with em := { s.em with code := s.em.code.push i } }

/-- The routine being lowered. -/
def emitter : LowerM Emitter := do pure (← get).em

/-- A fresh label. -/
def newLabel : LowerM Label := do
  let l := (← get).labels
  modify fun s => { s with labels := l + 1 }
  note .trace ("new label " ++ labelText l)
  pure l

/-- Hands out the next slots for a value of the given width. -/
def allocate (alignWide : Bool) (width : Nat) : LowerM Nat := do
  let next := (← emitter).next
  let slot := if alignWide && width == 2 && next % 2 == 1 then next + 1 else next
  modify fun s => { s with em := { s.em with next := slot + width } }
  note .trace ("allocated slot " ++ toString slot ++ " (width " ++ toString width ++ ")")
  pure slot

/-- Binds a name in the innermost scope. -/
def bindLocal (name : String) (l : Local) : LowerM Unit :=
  modify fun s => { s with em := { s.em with frames :=
    match s.em.frames with
    | [] => []
    | f :: rest => assocSet f name l :: rest } }

/-- Declares a local variable; returns its slot. -/
def declareLocal (alignWide : Bool) (name : String) (ty : Ty) (kind : ValueKind) : LowerM Nat := do
  let slot ← allocate alignWide kind.width
  bindLocal name ⟨slot, ty, kind⟩
  pure slot

/-- Declares a parameter in the next slots, without alignment. -/
def declareParam (name : String) (ty : Ty) (kind : ValueKind) : LowerM Unit := do
  let slot := (← emitter).next
  modify fun s => { s with em := { s.em with next := slot + kind.width } }
  bindLocal name ⟨slot, ty, kind⟩

/-- Opens a scope. -/
def enterScope : LowerM Unit :=
  modify fun s => { s with em := { s.em with frames := [] :: s.em.frames } }

/-- Closes the innermost scope, keeping the outermost. -/
def exitScope : LowerM Unit :=
  modify fun s => { s with em := { s.em with frames :=
    if s.em.frames.length > 1 then s.em.frames.drop 1 else s.em.frames } }

/-- Starts lowering a routine. -/
def startRoutine (name : String) (returnType : Ty) : LowerM Unit :=
  modify fun s => { s with em := Emitter.start name returnType }

/-- The routine lowered, with its parameter and result kinds. -/
def finish (params : List ValueKind) (ret : ValueKind) : LowerM RoutineCode := do
  let em ← emitter
  let code := em.code.toList
  pure ⟨em.name, params, ret, code, em.next, maxStackDepth code⟩

/-- Full resolution of a type; a type that does not resolve is an error naming it. -/
def resolveIn (env : TypeEnv) (t : Ty) : Except Error Ty :=
  match t.resolveDeep env with
  | .ok r => .ok r
  | .error e => .error (e.orUnresolved t.display)

/-- The type a variable declaration gives its variable. -/
def declaredTypeIn (env : TypeEnv) (name : String) : Option Ty → Except Error Ty
  | some t => resolveIn env t
  | none => .error (.unresolvedType ("declaration of " ++ name))

section

variable (cx : LowerCtx)

/-- Full resolution of a type. -/
def resolve (t : Ty) : LowerM Ty := orFail (resolveIn cx.env t)

/-- The kind of a type. -/
def kind (t : Ty) : LowerM ValueKind := orFail (ValueKind.of cx.env t)

/-- Where a global lives. -/
def global (name : String) : Except Error Place :=
  match cx.globals.lookup name with
  | some (t, k) => .ok (.inGlobal name t k)
  | none => .error (.unknownLocal name)

/-- Where a variable lives: the innermost local of the name, else the global. -/
def place (em : Emitter) (name : String) : Except Error Place :=
  match em.lookup name with
  | some l => .ok (.inSlot l)
  | none => global cx name

/-- Pushes the variable in a place. -/
def loadPlace : Place → LowerM Unit
  | .inSlot l => emit (.load l.slot l.kind)
  | .inGlobal n _ k => emit (.getGlobal n k)

/-- Pops into the variable in a place. -/
def storePlace : Place → LowerM Unit
  | .inSlot l => emit (.store l.slot l.kind)
  | .inGlobal n _ k => emit (.putGlobal n k)

/-- The element type of the array in a place. -/
def elementType (p : Place) : Except Error Ty :=
  match p.ty with
  | .array e _ => .ok e
  | other => .error (.unsupportedOperation ("indexing a value of type " ++ other.display))

/-- The record name and the resolved type of a field of the record in a place. -/
def fieldType (p : Place) (field : String) : Except Error (String × Ty) := do
  let record := p.ty
  let name ← match record.recordName? with
    | some n => pure n
    | none => throw (.unsupportedOperation ("field access on " ++ record.display))
  let ty ← match record.field? field with
    | some t => pure t
    | none => throw (.internal ("record " ++ name ++ " has no field " ++ field))
  return (name, ← resolveIn cx.env ty)

/-- The type of an expression, found without lowering it. -/
def staticType (em : Emitter) : Expr → Except Error Ty
  | .int _ => .ok .integer
  | .real _ => .ok .real
  | .bool _ => .ok .boolean
  | .str _ => .ok .string
  | .var n => (place cx em n).map Place.ty
  | .binary l op r => do
    let lt ← staticType em l
    let rt ← staticType em r
    match Ty.binaryResult op lt rt with
    | some t => pure t
    | none => throw (.unsupportedOperation (op.symbol ++ " on " ++ lt.display ++ " and " ++ rt.display))
  | .unary op e => do
    let t ← staticType em e
    match Ty.unaryResult op t with
    | some r => pure r
    | none => throw (.unsupportedOperation (op.symbol ++ " on " ++ t.display))
  | .index a _ => do elementType (← place cx em a)
  | .field r f => do pure (← fieldType cx (← place cx em r) f).2
  | .call n _ =>
    match cx.routines.lookup n with
    | some sig => resolveIn cx.env sig.returnType
    | none => .error (.unknownRoutine n)
  | .cast _ t => resolveIn cx.env t

end

/-- Replaces the integer on top of the stack by `true` when it compares to zero with `cond`,
by `false` otherwise. -/
def boolSelect (cond : Condition) : LowerM Unit := do
  let isTrue ← newLabel
  let stop ← newLabel
  emit (.branchZero cond isTrue)
  emit (.push (.bool false))
  emit (.jump stop)
  emit (.label isTrue)
  emit (.push (.bool true))
  emit (.label stop)

/-- Lowers a conversion of the value on top of the stack. -/
def applyCoercion : Coercion → LowerM Unit
  | .identity | .boolToInt => pure ()
  | .intToReal | .boolToReal => emit (.convert .intToReal)
  | .realToInt => emit (.convert .realToInt)
  | .intToBool => boolSelect .ne
  | .realToBool => do emit (.convert .realToInt); boolSelect .ne

/-- Runs `body` once per index from 0 below `size`; the index lives in a slot of its own,
which `body` is given. -/
def indexLoop (alignWide : Bool) (size : Int) (body : Nat → LowerM Unit) : LowerM Unit := do
  let index ← allocate alignWide 1
  let start ← newLabel
  let stop ← newLabel
  emit (.push (.int 0))
  emit (.store index .int)
  emit (.label start)
  emit (.load index .int)
  emit (.push (.int size))
  emit (.compareBranch .ge .int stop)
  body index
  emit (.load index .int)
  emit (.push (.int 1))
  emit (.arith .add .int)
  emit (.store index .int)
  emit (.jump start)
  emit (.label stop)

section

variable (cx : LowerCtx)

/-- Converts the value on top of the stack, of type `actual`, for a place of type `expected`:
an integer becomes a real, and an array whose elements need that is copied into a new array
element by element. -/
def coerce : Ty → Ty → LowerM Unit
  | .array dst size, .array src _ => do
    if Ty.needsWidening dst src then
      let sourceKind ← kind cx (.array src size)
      let srcKind ← kind cx src
      let dstKind ← kind cx dst
      note .trace ("widening array[" ++ toString size ++ "] " ++ src.display ++ " to " ++ dst.display)
      let source ← allocate cx.alignWide sourceKind.width
      emit (.store source sourceKind)
      emit (.push (.int size))
      emit (.newArray dstKind)
      indexLoop cx.alignWide size fun index => do
        emit .dup
        emit (.load index .int)
        emit (.load source sourceKind)
        emit (.load index .int)
        emit (.arrayLoad srcKind)
        coerce dst src
        emit (.arrayStore dstKind)
  | expected, actual => applyCoercion (Ty.implicitCoercion expected actual)

/-- Pushes a fresh value of a type: zero, `false` or the empty string for scalars, and for
aggregates a new record or array with every record and array part created too. The recursion
through record fields and array elements has no bound of its own: a record type that contains
itself through type names, which only a program with diagnostics can declare, is created
forever. `fuel` bounds the depth; every type that does not contain itself is created within the
budget `newValue` gives, and running out stands for the recursion that does not end. -/
def freshValue : Nat → Ty → LowerM Unit
  | 0, t => throw (.unboundedRecursion ("a fresh value of type " ++ t.display))
  | fuel + 1, t => do
    match ← resolve cx t with
    | .prim .integer => emit (.push (.int 0))
    | .prim .real => emit (.push (.real 0.0))
    | .prim .boolean => emit (.push (.bool false))
    | .prim .string => emit (.push (.str ""))
    | .prim .void => throw (.unsupportedOperation "a value of type void")
    | .record name fields =>
      emit (.newRecord name)
      for (field, fieldTy) in fields do
        let ft ← resolve cx fieldTy
        if ft.isAggregate then
          let k ← kind cx ft
          emit .dup
          freshValue fuel ft
          emit (.putField name field k)
    | .array element size =>
      let k ← kind cx element
      emit (.push (.int size))
      emit (.newArray k)
      if element.isAggregate then
        indexLoop cx.alignWide size fun index => do
          emit .dup
          emit (.load index .int)
          freshValue fuel element
          emit (.arrayStore k)
    | .named n => throw (.unresolvedType n)

/-- Pushes a fresh value of a type. -/
def newValue (t : Ty) : LowerM Unit := freshValue cx (Ty.depthBudget cx.env t) t

/-- The signature of a called routine, with as many parameters as arguments. -/
def callee (name : String) (args : List Expr) : LowerM RoutineSig := do
  match cx.routines.lookup name with
  | none => throw (.unknownRoutine name)
  | some sig =>
    if sig.params.length != args.length then
      throw (.internal ("call to " ++ name ++ " with " ++ toString args.length ++
        " argument(s), expected " ++ toString sig.params.length))
    pure sig

/-- Emits the call itself once the arguments are pushed; returns the result type. -/
def finishCall (name : String) (sig : RoutineSig) (params : List ValueKind) : LowerM Ty := do
  let rt ← resolve cx sig.returnType
  let rk ← kind cx rt
  emit (.call name params rk)
  pure rt

/-- The comparison a comparison operator branches on. -/
def comparison : BinOp → Condition
  | .lt => .lt
  | .le => .le
  | .gt => .gt
  | .ge => .ge
  | .eq => .eq
  | _ => .ne

/-- The arithmetic an arithmetic operator lowers to. -/
def arithmetic : BinOp → ArithOp
  | .add => .add
  | .sub => .sub
  | .mul => .mul
  | .div => .div
  | _ => .rem

mutual

/-- Lowers an expression, leaving its value on the stack; returns its type. -/
def expr : Expr → LowerM Ty
  | .int v => do emit (.push (.int v)); pure .integer
  | .real x => do emit (.push (.real x)); pure .real
  | .bool b => do emit (.push (.bool b)); pure .boolean
  | .str s => do emit (.push (.str s)); pure .string
  | .var n => do
    let p ← orFail (place cx (← emitter) n)
    loadPlace p
    pure p.ty
  | .binary l op r => do
    match op with
    | .and | .or =>
      let (exitOn, shortValue) := match op with
        | .and => (Condition.eq, false)
        | _ => (Condition.ne, true)
      let short ← newLabel
      let stop ← newLabel
      let _ ← expr l
      emit (.branchZero exitOn short)
      let _ ← expr r
      emit (.branchZero exitOn short)
      emit (.push (.bool !shortValue))
      emit (.jump stop)
      emit (.label short)
      emit (.push (.bool shortValue))
      emit (.label stop)
      pure .boolean
    | .xor =>
      let _ ← expr l
      let _ ← expr r
      emit (.arith .xor .bool)
      pure .boolean
    | .lt | .le | .gt | .ge | .eq | .ne =>
      let rt ← orFail (staticType cx (← emitter) r)
      let lt ← expr l
      let operand ← match Ty.comparisonOperands lt rt with
        | some t => pure t
        | none => throw (.unsupportedOperation (op.symbol ++ " on " ++ lt.display ++ " and " ++ rt.display))
      coerce cx operand lt
      let _ ← expr r
      coerce cx operand rt
      let isTrue ← newLabel
      let stop ← newLabel
      let k ← kind cx operand
      emit (.compareBranch (comparison op) k isTrue)
      emit (.push (.bool false))
      emit (.jump stop)
      emit (.label isTrue)
      emit (.push (.bool true))
      emit (.label stop)
      pure .boolean
    | .add | .sub | .mul | .div | .mod =>
      let rt ← orFail (staticType cx (← emitter) r)
      let lt ← expr l
      let result ← match Ty.binaryResult op lt rt with
        | some t => pure t
        | none => throw (.unsupportedOperation (op.symbol ++ " on " ++ lt.display ++ " and " ++ rt.display))
      coerce cx result lt
      let _ ← expr r
      coerce cx result rt
      let k ← kind cx result
      emit (.arith (arithmetic op) k)
      pure result
  | .unary .not e => do
    let _ ← expr e
    boolSelect .eq
    pure .boolean
  | .unary .neg e => do
    let t ← expr e
    let k ← kind cx t
    emit (.neg k)
    pure t
  | .index a i => do
    let p ← orFail (place cx (← emitter) a)
    let element ← orFail (elementType p)
    loadPlace p
    let _ ← expr i
    let k ← kind cx element
    emit (.arrayLoad k)
    pure element
  | .field r f => do
    let p ← orFail (place cx (← emitter) r)
    let (recordName, ft) ← orFail (fieldType cx p f)
    loadPlace p
    let k ← kind cx ft
    emit (.getField recordName f k)
    pure ft
  | .call n args => do
    let sig ← callee cx n args
    let ks ← arguments args sig.params
    let t ← finishCall cx n sig ks
    if t.isVoid then throw (.unsupportedOperation ("void call to " ++ n ++ " used as a value"))
    pure t
  | .cast e target => do
    let source ← expr e
    let t ← resolve cx target
    match Ty.coercion source t with
    | some c => applyCoercion c; pure t
    | none => throw (.unsupportedOperation ("cast from " ++ source.display ++ " to " ++ t.display))

/-- Pushes call arguments, each converted for its parameter; returns the parameter kinds. -/
def arguments : List Expr → List Ty → LowerM (List ValueKind)
  | a :: as, p :: ps => do
    let pt ← resolve cx p
    let actual ← expr a
    coerce cx pt actual
    let k ← kind cx pt
    pure (k :: (← arguments as ps))
  | _, _ => pure []

end

/-- Pushes the first value of a declared variable: its initializer, converted, or a fresh
value. -/
def initialValue (ty : Ty) : Option Expr → LowerM Unit
  | some e => do
    let actual ← expr cx e
    coerce cx ty actual
  | none => newValue cx ty

/-- Lowers an assignment. -/
def assignment : Target → Expr → LowerM Unit
  | .var n, v => do
    let p ← orFail (place cx (← emitter) n)
    let actual ← expr cx v
    coerce cx p.ty actual
    storePlace p
  | .element a i, v => do
    let p ← orFail (place cx (← emitter) a)
    let element ← orFail (elementType p)
    loadPlace p
    let _ ← expr cx i
    let actual ← expr cx v
    coerce cx element actual
    let k ← kind cx element
    emit (.arrayStore k)
  | .field r f, v => do
    let p ← orFail (place cx (← emitter) r)
    let (recordName, ft) ← orFail (fieldType cx p f)
    loadPlace p
    let actual ← expr cx v
    coerce cx ft actual
    let k ← kind cx ft
    emit (.putField recordName f k)

/-- Refuses a declaration nested in a routine or statement. -/
def nested {α : Type} (name : String) : LowerM α := do
  throw (.unsupportedOperation ("nested declaration of " ++ name ++ " in " ++ (← emitter).name))

mutual

/-- Lowers a statement. -/
def stmt : Stmt → LowerM Unit
  | .varDecl n t i => do
    let ty ← orFail (declaredTypeIn cx.env n t)
    let k ← kind cx ty
    initialValue cx ty i
    let slot ← declareLocal cx.alignWide n ty k
    emit (.store slot k)
  | .arrayDecl n e size => do
    let ty ← resolve cx (.array e size)
    let k ← kind cx ty
    newValue cx ty
    let slot ← declareLocal cx.alignWide n ty k
    emit (.store slot k)
  | .assign t v => assignment cx t v
  | .ifThen c t e => do
    let elseLabel ← newLabel
    let endLabel ← newLabel
    let _ ← expr cx c
    emit (.branchZero .eq elseLabel)
    enterScope
    stmts t
    exitScope
    let thenReturns := endsWithReturn t
    if !thenReturns then emit (.jump endLabel)
    emit (.label elseLabel)
    enterScope
    stmts e
    exitScope
    if !thenReturns || !endsWithReturn e then emit (.label endLabel)
  | .whileDo c b => do
    let start ← newLabel
    let stop ← newLabel
    emit (.label start)
    let _ ← expr cx c
    emit (.branchZero .eq stop)
    enterScope
    stmts b
    exitScope
    emit (.jump start)
    emit (.label stop)
  | .forRange v s e reverse b => do
    let _ ← expr cx s
    enterScope
    let slot ← declareLocal cx.alignWide v .integer .int
    emit (.store slot .int)
    let start ← newLabel
    let stop ← newLabel
    let (exitCond, step) := if reverse then (Condition.lt, ArithOp.sub) else (Condition.gt, ArithOp.add)
    emit (.label start)
    emit (.load slot .int)
    let _ ← expr cx e
    emit (.compareBranch exitCond .int stop)
    stmts b
    emit (.load slot .int)
    emit (.push (.int 1))
    emit (.arith step .int)
    emit (.store slot .int)
    emit (.jump start)
    emit (.label stop)
    exitScope
  | .call n args => do
    let sig ← callee cx n args
    let ks ← arguments cx args sig.params
    let t ← finishCall cx n sig ks
    if !t.isVoid then
      let k ← kind cx t
      emit (.pop k)
  | .ret (some e) => do
    let expected := (← emitter).returnType
    let actual ← expr cx e
    coerce cx expected actual
    let k ← kind cx expected
    emit (.ret k)
  | .ret none => emit (.ret .void)
  | .print e => do
    let t ← expr cx e
    let k ← kind cx t
    emit (.print k)
  | .routine n _ _ _ => nested n
  | .recordType n _ => nested n
  | .typeAlias n _ => nested n

/-- Lowers statements in order. -/
def stmts : List Stmt → LowerM Unit
  | [] => pure ()
  | s :: rest => do stmt s; stmts rest

end

/-- Lowers a routine declaration. -/
def routine (name : String) (params : List Param) (ret : Option Ty) (body : List Stmt) :
    LowerM RoutineCode := do
  note .debug ("lowering routine " ++ name)
  let returnType ← resolve cx (returnTypeOrVoid ret)
  let rk ← kind cx returnType
  startRoutine name returnType
  let mut kinds := #[]
  for p in params do
    let t ← resolve cx p.ty
    let k ← kind cx t
    declareParam p.name t k
    kinds := kinds.push k
  stmts cx body
  if rk == .void && !endsWithReturn body then emit (.ret .void)
  finish kinds.toList rk

/-- Lowers the initializer: first values of globals and the other top-level statements, in
order; `none` when there is nothing to do. -/
def initializer (statements : List Stmt) : LowerM (Option RoutineCode) := do
  startRoutine "initializer" .void
  for s in statements do
    match s with
    | .varDecl n _ i =>
      let p ← orFail (global cx n)
      initialValue cx p.ty i
      storePlace p
    | .arrayDecl n _ _ =>
      let p ← orFail (global cx n)
      newValue cx p.ty
      storePlace p
    | .routine .. | .recordType .. | .typeAlias .. => pure ()
    | other => stmt cx other
  if (← emitter).code.isEmpty then return none
  note .debug "lowering module initializer"
  emit (.ret .void)
  return some (← finish [] .void)

end

/-- Lowers a whole program against the scopes its check left. -/
def module (scopes : Scopes) (opts : LowerOptions) (p : Program) : LowerM Module := do
  let env := scopes.env
  let mut types := #[]
  for s in p.statements do
    match s with
    | .recordType n fs =>
      let mut fields := #[]
      for (f, t) in fs do
        fields := fields.push (f, ← orFail (ValueKind.of env t))
      types := types.push (⟨n, fields.toList⟩ : TypeDef)
    | _ => pure ()
  let mut globalDefs := #[]
  let mut globals : List (String × (Ty × ValueKind)) := []
  for s in p.statements do
    let entry ← match s with
      | .varDecl n t _ => do pure (some (n, ← orFail (declaredTypeIn env n t)))
      | .arrayDecl n e size => do pure (some (n, ← orFail (resolveIn env (.array e size))))
      | _ => pure none
    match entry with
    | some (n, t) =>
      let k ← orFail (ValueKind.of env t)
      globalDefs := globalDefs.push (⟨n, k⟩ : GlobalDef)
      globals := assocSet globals n (t, k)
    | none => pure ()
  let cx : LowerCtx := ⟨env, scopes.routines, globals, opts.alignWide⟩
  let mut routines := #[]
  for s in p.statements do
    match s with
    | .routine n ps r b => routines := routines.push (← routine cx n ps r b)
    | _ => pure ()
  let init ← initializer cx p.statements
  note .debug ("generated module " ++ opts.className ++ ": " ++ toString routines.size ++
    " routine(s), " ++ toString globalDefs.size ++ " global(s), " ++ toString types.size ++
    " record type(s)")
  return ⟨opts.className, globalDefs.toList, types.toList, routines.toList, init⟩

end Lower

/-- Lowers a checked program; the log holds what lowering did, up to an error if one stopped
it. -/
def lowerProgram (scopes : Scopes) (opts : LowerOptions) (p : Program) :
    Except Error Module × List LogLine :=
  let (r, st) := (Lower.module scopes opts p).run.run ⟨0, Emitter.start "" .void, []⟩
  (r, st.log)

end ImpStack
