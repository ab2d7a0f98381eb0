import ImpStack.Check.Scope
import ImpStack.Rewrite.Optimizer
import ImpStack.Error

/-! # The checker

Checks a program and collects every problem it finds as a diagnostic; checking never stops at
the first one. It walks the program in five passes over the top-level statements:

1. routine signatures are declared (a routine declared twice is reported);
2. record and type declarations are declared, in order, so a type may only mention types
   declared before it;
3. top-level variable and array declarations are checked, making the globals;
4. routine bodies are checked, each in a scope of its own holding the parameters;
5. the remaining top-level statements are checked.

Diagnostics come in the order the walk meets them. While checking, the program is rewritten in
one way only: a variable declared without a type gets the type of its initializer. After the
walk the optimizer runs (folding constants and dropping dead declarations, each when enabled),
whatever the diagnostics; the names used anywhere decide which declarations are dead.

The scopes left at the end (the globals, the routines and the declared types) are what code
generation works from.
-/

namespace ImpStack

/-- What the checker does after the walk. -/
structure CheckOptions where
  foldConstants : Bool := true
  removeUnused : Bool := true
  deriving Repr, Inhabited

/-- The checker's state during the walk. -/
structure Checker where
  scopes : Scopes
  /-- The problems found so far, in order. -/
  diagnostics : List Error
  /-- The return types of the routines being walked, innermost first. -/
  returnTypes : List Ty
  /-- Every name read, printed or assigned so far. -/
  used : List String
  log : List LogLine
  deriving Inhabited

/-- The checker's walk. -/
abbrev CheckM := StateM Checker

namespace Check

/-- Records a problem. -/
def report (e : Error) : CheckM Unit :=
  modify fun st => { st with diagnostics := st.diagnostics ++ [e] }

/-- Records a log line. -/
def note (level : Level) (source : Source) (message : String) : CheckM Unit :=
  modify fun st => { st with log := st.log ++ [⟨level, source, message⟩] }

/-- Records that a name is used. -/
def use (name : String) : CheckM Unit :=
  modify fun st => if st.used.contains name then st else { st with used := st.used ++ [name] }

/-- The current scopes. -/
def scopes : CheckM Scopes := do pure (← get).scopes

/-- Opens a scope. -/
def enterScope : CheckM Unit := do
  modify fun st => { st with scopes := st.scopes.enter }
  note .trace .scopes ("enter scope (depth " ++ toString (← scopes).depth ++ ")")

/-- Closes the innermost scope, unless only the global one is left. -/
def exitScope : CheckM Unit := do
  if !(← scopes).locals.isEmpty then
    modify fun st => { st with scopes := st.scopes.exit }
    note .trace .scopes ("exit scope (depth " ++ toString (← scopes).depth ++ ")")

/-- Declares a variable in the innermost scope. -/
def declareVar (name : String) (ty : Ty) : CheckM Unit :=
  modify fun st => { st with scopes := st.scopes.declare name ty }

/-- Resolves a written type, reporting a type that names nothing. -/
def resolveReported (t : Ty) : CheckM (Option Ty) := do
  let env := (← scopes).env
  if !t.isValid env then
    report (.undefinedType t.display)
    return none
  match t.resolveDeep env with
  | .ok r => return some r
  | .error e => report e; return none

/-- Resolves a type checked before, without reporting. -/
def resolveQuiet (t : Ty) : CheckM (Option Ty) := do
  match t.resolveDeep (← scopes).env with
  | .ok r => return some r
  | .error _ => return none

/-! ## Expressions -/

/-- The element type of an array variable. -/
def arrayElement (name : String) : CheckM (Option Ty) := do
  use name
  match (← scopes).typeOf? name with
  | some (.array e _) => return some e
  | some _ => report (.notAnArray name); return none
  | none => report (.undefinedArray name); return none

/-- Whether an index, of the given type, is an integer; reports one that is not. -/
def indexOk : Option Ty → CheckM Bool
  | some t => if t.isInteger then pure true else do report (.nonIntegerIndex t); pure false
  | none => pure false

/-- The resolved type of `record.field`. -/
def recordField (record field : String) : CheckM (Option Ty) := do
  use record
  match (← scopes).typeOf? record with
  | none => report (.undefinedRecord record); return none
  | some t =>
    match ← resolveQuiet t with
    | some r@(.record _ _) =>
      match r.field? field with
      | some ft => resolveQuiet ft
      | none => report (.unknownField record field); return none
    | _ => report (.notARecord record); return none

/-- The type of a binary operation on operands of the given types. An operation that does not
suit its operands is reported and taken as boolean for logical operators and comparisons, and
as the left operand's type otherwise, so checking goes on. -/
def binaryType (op : BinOp) (l r : Ty) : CheckM (Option Ty) := do
  match Ty.binaryResult op l r with
  | some t => return some t
  | none =>
    if op.isLogical then
      report (.nonBooleanOperands op)
      return some .boolean
    report (.invalidOperands op l r)
    return some (if op.isComparison then .boolean else l)

/-- The callee of a call; reports an unknown routine and a wrong argument count. -/
def callee (name : String) (args : List Expr) : CheckM (Option RoutineSig) := do
  match (← scopes).routine? name with
  | none => report (.undefinedRoutine name); return none
  | some sig =>
    if sig.params.length != args.length then
      report (.argCountMismatch name sig.params.length args.length)
    return some sig

/-- Whether an argument of the given type suits the parameter at `index`, if there is one;
reports one that does not. -/
def checkArgument (name : String) (params : List Ty) (index : Nat) (actual : Option Ty) :
    CheckM Unit := do
  let expected ← match params[index]? with
    | some p => resolveQuiet p
    | none => pure none
  match expected, actual with
  | some e, some a =>
    if !Ty.compatible e a then report (.argTypeMismatch name (index + 1) e a)
  | _, _ => pure ()

mutual

/-- The type of an expression, or `none` once the reason it has none is reported. -/
def typeOf : Expr → CheckM (Option Ty)
  | .int _ => pure (some .integer)
  | .real _ => pure (some .real)
  | .bool _ => pure (some .boolean)
  | .str _ => pure (some .string)
  | .var name => do
    use name
    let t := (← scopes).typeOf? name
    if t.isNone then report (.undefinedVariable name)
    return t
  | .binary l op r => do
    let lt ← typeOf l
    let rt ← typeOf r
    match lt, rt with
    | some a, some b => binaryType op a b
    | _, _ => return none
  | .unary op e => do
    match ← typeOf e with
    | none => return none
    | some t =>
      match Ty.unaryResult op t with
      | some r => return some r
      | none =>
        report (.invalidOperand op t)
        return some (match op with
          | .not => .boolean
          | .neg => t)
  | .index a i => do
    let element ← arrayElement a
    let ok ← indexOk (← typeOf i)
    match element with
    | some e => if ok then resolveQuiet e else return none
    | none => return none
  | .field r f => recordField r f
  | .call name args => do
    match ← callee name args with
    | none =>
      checkArguments name [] 0 args
      return none
    | some sig =>
      checkArguments name sig.params 0 args
      match ← resolveQuiet sig.returnType with
      | none => return none
      | some t =>
        if t.isVoid then
          report (.voidInExpression name)
          return none
        return some t
  | .cast e target => do
    let source ← typeOf e
    match ← resolveReported target with
    | none => return none
    | some t =>
      match source with
      | none => return none
      | some s =>
        if !Ty.isValidCast s t then report (.invalidCast s t)
        return some t

/-- Checks the arguments of a call from position `index` on against the parameters. -/
def checkArguments (name : String) (params : List Ty) (index : Nat) : List Expr → CheckM Unit
  | [] => pure ()
  | a :: rest => do
    checkArgument name params index (← typeOf a)
    checkArguments name params (index + 1) rest

end

/-! ## Statements -/

/-- Checks a variable declaration; a declaration without a type gets its initializer's. -/
def checkVarDecl (name : String) (ty : Option Ty) (init : Option Expr) : CheckM Stmt := do
  let unchanged := Stmt.varDecl name ty init
  if (← scopes).isDefinedHere name then
    report (.duplicateVariable name)
    match init with
    | some i => let _ ← typeOf i
    | none => pure ()
    return unchanged
  match ty with
  | some t =>
    match ← resolveReported t with
    | none => return unchanged
    | some declared =>
      match init with
      | some i =>
        match ← typeOf i with
        | some actual =>
          if !Ty.compatible declared actual then
            report (.typeMismatch ("declaration of " ++ name) declared actual)
        | none => pure ()
      | none => pure ()
      declareVar name declared
      return unchanged
  | none =>
    match init with
    | none =>
      report (.untypedDeclaration name)
      return unchanged
    | some i =>
      match ← typeOf i with
      | some actual =>
        declareVar name actual
        return .varDecl name (some actual) init
      | none => return unchanged

/-- Checks an array declaration. -/
def checkArrayDecl (name : String) (element : Ty) (size : Int) : CheckM Unit := do
  if (← scopes).isDefinedHere name then
    report (.duplicateVariable name)
    return
  if size ≤ 0 then
    report (.invalidArraySize name size)
    return
  match ← resolveReported element with
  | some e => declareVar name (.array e size)
  | none => pure ()

/-- Checks that a condition, of the given type, is boolean. -/
def checkCondition (construct : String) : Option Ty → CheckM Unit
  | some t => if !t.isBoolean then report (.nonBooleanCondition construct t) else pure ()
  | none => pure ()

/-- Checks that a loop bound, of the given type, is an integer. -/
def checkBound : Option Ty → CheckM Unit
  | some t => if !t.isInteger then report (.typeMismatch "for loop range" .integer t) else pure ()
  | none => pure ()

/-- The type of an assignment's target, once checked. -/
def targetType : Target → CheckM (Option Ty)
  | .var name => do
    match (← scopes).typeOf? name with
    | some t => return some t
    | none => report (.undefinedVariable name); return none
  | .element a i => do
    match ← arrayElement a with
    | none => return none
    | some e => if ← indexOk (← typeOf i) then return some e else return none
  | .field r f => recordField r f

/-- Checks an assignment. -/
def checkAssignment (target : Target) (value : Expr) : CheckM Unit := do
  match ← targetType target with
  | none => pure ()
  | some slot =>
    use target.root
    match ← typeOf value with
    | some actual =>
      if !Ty.compatible slot actual then
        report (.typeMismatch ("assignment to " ++ target.root) slot actual)
    | none => pure ()

/-- Checks a return against the routine being walked. -/
def checkReturn (value : Option Expr) : CheckM Unit := do
  match (← get).returnTypes with
  | [] => report .returnOutsideRoutine
  | expected :: _ =>
    match value with
    | some e =>
      if expected.isVoid then report .unexpectedReturnValue
      else
        match ← typeOf e with
        | some actual =>
          if !Ty.compatible expected actual then report (.typeMismatch "return" expected actual)
        | none => pure ()
    | none => if !expected.isVoid then report (.missingReturnValue expected)

/-- Checks a print: only scalars other than void print. -/
def checkPrint (e : Expr) : CheckM Unit := do
  match ← typeOf e with
  | some t =>
    match t.asPrim? with
    | none | some .void => report (.invalidPrint t)
    | some _ => pure ()
  | none => pure ()

/-- Checks the loop variable of a `for`: it must be a visible integer variable. -/
def checkLoopVariable (var : String) : CheckM Unit := do
  match (← scopes).typeOf? var with
  | none => report (.undefinedLoopVariable var)
  | some t => if !t.isInteger then report (.nonIntegerLoopVariable var t)

mutual

/-- Checks a statement; returns it with inferred declaration types filled in. -/
def checkStmt : Stmt → CheckM Stmt
  | .varDecl n t i => checkVarDecl n t i
  | s@(.arrayDecl n e size) => do checkArrayDecl n e size; return s
  | s@(.assign t v) => do checkAssignment t v; return s
  | .ifThen c t e => do
    checkCondition "If" (← typeOf c)
    enterScope
    let t' ← checkStmts t
    exitScope
    enterScope
    let e' ← checkStmts e
    exitScope
    return .ifThen c t' e'
  | .whileDo c b => do
    checkCondition "While" (← typeOf c)
    enterScope
    let b' ← checkStmts b
    exitScope
    return .whileDo c b'
  | .forRange v s e r b => do
    checkBound (← typeOf s)
    checkBound (← typeOf e)
    checkLoopVariable v
    enterScope
    declareVar v .integer
    let b' ← checkStmts b
    exitScope
    return .forRange v s e r b'
  | s@(.routine n _ _ _) => do report (.nestedDeclaration "Routine" n); return s
  | s@(.recordType n _) => do report (.nestedDeclaration "Record type" n); return s
  | s@(.typeAlias n _) => do report (.nestedDeclaration "Type" n); return s
  | s@(.call n args) => do
    match ← callee n args with
    | none => checkArguments n [] 0 args
    | some sig => checkArguments n sig.params 0 args
    return s
  | s@(.ret v) => do checkReturn v; return s
  | s@(.print e) => do checkPrint e; return s

/-- Checks statements in order, in the current scope. -/
def checkStmts : List Stmt → CheckM (List Stmt)
  | [] => pure []
  | s :: rest => do
    let s' ← checkStmt s
    return s' :: (← checkStmts rest)

end

/-! ## Declarations -/

/-- Declares a routine's signature. -/
def declareRoutine (name : String) (params : List Param) (ret : Option Ty) : CheckM Unit := do
  let sig : RoutineSig := ⟨name, params.map (·.ty), returnTypeOrVoid ret⟩
  match (← scopes).declareRoutine name sig with
  | some s => modify fun st => { st with scopes := s }
  | none => report (.duplicateRoutine name)

/-- Declares a type, reporting a name declared before. -/
def defineType (name : String) (ty : Ty) : CheckM Unit := do
  match (← scopes).defineType name ty with
  | some s => modify fun st => { st with scopes := s }
  | none => report (.duplicateType name)

/-- Declares a record type; field types must already be declared. -/
def declareRecord (name : String) (fields : List (String × Ty)) : CheckM Unit := do
  for (_, t) in fields do
    if !t.isValid (← scopes).env then report (.invalidFieldType name t)
  defineType name (.record name fields)

/-- Declares a type name; what it stands for must already be declared. -/
def declareAlias (name : String) (ty : Ty) : CheckM Unit := do
  if !ty.isValid (← scopes).env then
    report (.undefinedType ty.display)
    return
  defineType name ty

/-- Declares the parameters of a routine in the current scope. -/
def declareParams (routine : String) : List Param → CheckM Unit
  | [] => pure ()
  | p :: rest => do
    if (← scopes).isDefinedHere p.name then
      report (.duplicateParameter p.name routine)
    else
      match ← resolveReported p.ty with
      | some t => declareVar p.name t
      | none => pure ()
    declareParams routine rest

/-- Checks a routine's body in a scope holding its parameters. -/
def checkRoutineBody (name : String) (params : List Param) (ret : Option Ty) (body : List Stmt) :
    CheckM (List Stmt) := do
  enterScope
  declareParams name params
  let returnType ← match ret with
    | some t => do pure ((← resolveReported t).getD t)
    | none => pure .void
  modify fun st => { st with returnTypes := returnType :: st.returnTypes }
  let body' ← checkStmts body
  if !returnType.isVoid && !endsWithReturn body' then report (.missingReturn name)
  modify fun st => { st with returnTypes := st.returnTypes.drop 1 }
  exitScope
  return body'

/-- Whether a top-level statement is a declaration checked in passes 1 to 4. -/
def isDeclaration : Stmt → Bool
  | .varDecl .. | .arrayDecl .. | .routine .. | .recordType .. | .typeAlias .. => true
  | _ => false

/-- The five passes of the walk; returns the program with inferred types filled in. -/
def walk (p : Program) : CheckM Program := do
  for s in p.statements do
    match s with
    | .routine n ps r _ => declareRoutine n ps r
    | _ => pure ()
  note .debug .checker "pass 1 (routine signatures) done"
  for s in p.statements do
    match s with
    | .recordType n fs => declareRecord n fs
    | .typeAlias n t => declareAlias n t
    | _ => pure ()
  note .debug .checker "pass 2 (type declarations) done"
  let ss ← p.statements.mapM fun s =>
    match s with
    | .varDecl .. | .arrayDecl .. => checkStmt s
    | _ => pure s
  note .debug .checker "pass 3 (globals) done"
  let ss ← ss.mapM fun s =>
    match s with
    | .routine n ps r b => do return .routine n ps r (← checkRoutineBody n ps r b)
    | _ => pure s
  note .debug .checker "pass 4 (routine bodies) done"
  let ss ← ss.mapM fun s => if isDeclaration s then pure s else checkStmt s
  note .debug .checker ("pass 5 (top-level statements) done, " ++
    toString (← get).diagnostics.length ++ " diagnostic(s)")
  return ⟨ss⟩

end Check

/-- The declared type names of a program that stand for an array or a record. -/
def aggregateNames (scopes : Scopes) (p : Program) : List String :=
  p.statements.filterMap fun s =>
    match s with
    | .recordType n _ | .typeAlias n _ =>
      match (Ty.named n).resolve scopes.env with
      | .ok (.array _ _) | .ok (.record _ _) => some n
      | _ => none
    | _ => none

/-- What checking a program gives. -/
structure Analysis where
  /-- The problems found, in order. -/
  diagnostics : List Error
  /-- The program with inferred types filled in, then optimized. -/
  program : Program
  /-- The globals, routines and declared types. -/
  scopes : Scopes
  log : List LogLine
  deriving Inhabited

/-- Checks a program, then optimizes it as the options say. -/
def analyze (opts : CheckOptions) (p : Program) : Analysis :=
  let (checked, st) := (Check.walk p).run ⟨Scopes.empty, [], [], [], []⟩
  let passes :=
    (if opts.foldConstants then [Pass.fold] else []) ++
    (if opts.removeUnused then [Pass.prune ⟨st.used, aggregateNames st.scopes checked⟩] else [])
  let (optimized, optLog) := optimize passes checked
  ⟨st.diagnostics, optimized, st.scopes, st.log ++ optLog⟩

end ImpStack
