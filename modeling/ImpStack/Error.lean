import ImpStack.Lang.Type
import ImpStack.Lang.Operator

/-! # Errors

What can go wrong, as causes: the faults the checker reports in a program (each becomes one
diagnostic, in the order found), the faults of lowering a program the checker did not vouch
for, and the failure of a whole compilation. `Error.message` holds every wording; `Error.kind`
names the cause; `Error.isInternal` tells lowering faults (a broken promise between checker and
lowering) from faults in the program.
-/

namespace ImpStack

/-- A cause of failure. -/
inductive Error where
  | undefinedVariable (name : String)
  | undefinedArray (name : String)
  | undefinedRecord (name : String)
  | undefinedRoutine (name : String)
  | undefinedType (name : String)
  | duplicateVariable (name : String)
  | duplicateParameter (name routine : String)
  | duplicateRoutine (name : String)
  | duplicateType (name : String)
  | notAnArray (name : String)
  | notARecord (name : String)
  | unknownField (record field : String)
  | nonIntegerIndex (got : Ty)
  | invalidArraySize (name : String) (size : Int)
  | invalidFieldType (record : String) (ty : Ty)
  | typeMismatch (context : String) (expected got : Ty)
  | invalidCast (source target : Ty)
  | argCountMismatch (name : String) (expected got : Nat)
  | argTypeMismatch (name : String) (index : Nat) (expected got : Ty)
  | nonBooleanCondition (construct : String) (got : Ty)
  | nonBooleanOperands (op : BinOp)
  | invalidOperands (op : BinOp) (left right : Ty)
  | invalidOperand (op : UnOp) (operand : Ty)
  | undefinedLoopVariable (name : String)
  | nonIntegerLoopVariable (name : String) (got : Ty)
  | missingReturn (name : String)
  | returnOutsideRoutine
  | unexpectedReturnValue
  | missingReturnValue (expected : Ty)
  | voidInExpression (name : String)
  | invalidPrint (ty : Ty)
  | nestedDeclaration (what name : String)
  | untypedDeclaration (name : String)
  /-- Lowering met a type it cannot resolve. -/
  | unresolvedType (what : String)
  /-- Lowering met a variable with no storage. -/
  | unknownLocal (name : String)
  /-- Lowering met a call of a routine with no signature. -/
  | unknownRoutine (name : String)
  /-- Lowering or assembly met something it has no code for. -/
  | unsupportedOperation (what : String)
  /-- Lowering met an inconsistency. -/
  | internal (what : String)
  /-- A recursion without end, until the process ran out of stack: nothing is reported. -/
  | unboundedRecursion (what : String)
  /-- The checker reported diagnostics, so nothing was lowered. -/
  | semantic (diagnostics : List String)
  | io (what : String)
  deriving Inhabited

namespace Error

/-- The words of an error. -/
def message : Error → String
  | .undefinedVariable name => "Undefined variable '" ++ name ++ "'"
  | .undefinedArray name => "Undefined array " ++ name
  | .undefinedRecord name => "Undefined record variable " ++ name
  | .undefinedRoutine name => "Undefined routine " ++ name
  | .undefinedType name => "Unknown type " ++ name
  | .duplicateVariable name => "Variable " ++ name ++ " is already declared in this scope"
  | .duplicateParameter name routine =>
    "Parameter " ++ name ++ " is already declared in routine " ++ routine
  | .duplicateRoutine name => "Routine " ++ name ++ " is already defined"
  | .duplicateType name => "Type " ++ name ++ " is already defined"
  | .notAnArray name => "Variable " ++ name ++ " is not an array"
  | .notARecord name => "Variable " ++ name ++ " is not a record"
  | .unknownField record field => "Field " ++ field ++ " does not exist in record " ++ record
  | .nonIntegerIndex got => "Array index must be an integer, got " ++ got.display
  | .invalidArraySize name size =>
    "Array size must be positive, got " ++ toString size ++ " for " ++ name
  | .invalidFieldType record ty => "Invalid field type " ++ ty.display ++ " in record " ++ record
  | .typeMismatch context expected got =>
    "Type mismatch in " ++ context ++ ": expected " ++ expected.display ++ ", got " ++ got.display
  | .invalidCast source target =>
    "Invalid type cast from " ++ source.display ++ " to " ++ target.display
  | .argCountMismatch name expected got =>
    "Wrong number of arguments in call to " ++ name ++ ": expected " ++ toString expected ++
      ", got " ++ toString got
  | .argTypeMismatch name index expected got =>
    "Type mismatch in argument " ++ toString index ++ " of call to " ++ name ++ ": expected " ++
      expected.display ++ ", got " ++ got.display
  | .nonBooleanCondition construct got =>
    construct ++ " condition must be a boolean expression, got " ++ got.display
  | .nonBooleanOperands op => "Logical operator '" ++ op.symbol ++ "' requires boolean operands"
  | .invalidOperands op left right =>
    "Operator '" ++ op.symbol ++ "' cannot be applied to " ++ left.display ++ " and " ++
      right.display
  | .invalidOperand op operand =>
    "Operator '" ++ op.symbol ++ "' cannot be applied to " ++ operand.display
  | .undefinedLoopVariable name => "Undefined loop variable " ++ name
  | .nonIntegerLoopVariable name got =>
    "Loop variable " ++ name ++ " must be an integer, got " ++ got.display
  | .missingReturn name => "Routine '" ++ name ++ "' must return a value"
  | .returnOutsideRoutine => "Return statement not allowed outside a routine"
  | .unexpectedReturnValue => "Unexpected return value in routine without return type"
  | .missingReturnValue expected =>
    "Missing return value for routine with return type " ++ expected.display
  | .voidInExpression name =>
    "Routine " ++ name ++ " does not return a value and cannot be used in an expression"
  | .invalidPrint ty => "Cannot print a value of type " ++ ty.display
  | .nestedDeclaration what name => what ++ " " ++ name ++ " is only allowed at the top level"
  | .untypedDeclaration name => "Variable " ++ name ++ " needs a type or an initializer"
  | .unresolvedType what => "Unresolved type reached code generation: " ++ what
  | .unknownLocal name => "Unknown variable reached code generation: " ++ name
  | .unknownRoutine name => "Unknown routine reached code generation: " ++ name
  | .unsupportedOperation what => "Cannot lower " ++ what
  | .internal what => "Code generation error: " ++ what
  | .unboundedRecursion what => "Code generation does not terminate: " ++ what
  | .semantic ds => "Semantic analysis failed with " ++ toString ds.length ++ " error(s)"
  | .io what => "IO error: " ++ what

/-- The name of the cause. -/
def kind : Error → String
  | .undefinedVariable .. => "UndefinedVariable"
  | .undefinedArray .. => "UndefinedArray"
  | .undefinedRecord .. => "UndefinedRecord"
  | .undefinedRoutine .. => "UndefinedRoutine"
  | .undefinedType .. => "UndefinedType"
  | .duplicateVariable .. => "DuplicateVariable"
  | .duplicateParameter .. => "DuplicateParameter"
  | .duplicateRoutine .. => "DuplicateRoutine"
  | .duplicateType .. => "DuplicateType"
  | .notAnArray .. => "NotAnArray"
  | .notARecord .. => "NotARecord"
  | .unknownField .. => "UnknownField"
  | .nonIntegerIndex .. => "NonIntegerIndex"
  | .invalidArraySize .. => "InvalidArraySize"
  | .invalidFieldType .. => "InvalidFieldType"
  | .typeMismatch .. => "TypeMismatch"
  | .invalidCast .. => "InvalidCast"
  | .argCountMismatch .. => "ArgCountMismatch"
  | .argTypeMismatch .. => "ArgTypeMismatch"
  | .nonBooleanCondition .. => "NonBooleanCondition"
  | .nonBooleanOperands .. => "NonBooleanOperands"
  | .invalidOperands .. => "InvalidOperands"
  | .invalidOperand .. => "InvalidOperand"
  | .undefinedLoopVariable .. => "UndefinedLoopVariable"
  | .nonIntegerLoopVariable .. => "NonIntegerLoopVariable"
  | .missingReturn .. => "MissingReturn"
  | .returnOutsideRoutine => "ReturnOutsideRoutine"
  | .unexpectedReturnValue => "UnexpectedReturnValue"
  | .missingReturnValue .. => "MissingReturnValue"
  | .voidInExpression .. => "VoidInExpression"
  | .invalidPrint .. => "InvalidPrint"
  | .nestedDeclaration .. => "NestedDeclaration"
  | .untypedDeclaration .. => "UntypedDeclaration"
  | .unresolvedType .. => "UnresolvedType"
  | .unknownLocal .. => "UnknownLocal"
  | .unknownRoutine .. => "UnknownRoutine"
  | .unsupportedOperation .. => "UnsupportedOperation"
  | .internal .. => "Internal"
  | .unboundedRecursion .. => "UnboundedRecursion"
  | .semantic .. => "Semantic"
  | .io .. => "Io"

/-- The error reported for a type that does not resolve, under the name `what`; a resolution
that never ends stays one. -/
def orUnresolved (e : Error) (what : String) : Error :=
  match e with
  | .unboundedRecursion w => .unboundedRecursion w
  | _ => .unresolvedType what

/-- Faults of lowering, as opposed to faults of the program. -/
def isInternal : Error → Bool
  | .unresolvedType .. | .unknownLocal .. | .unknownRoutine .. | .unsupportedOperation ..
  | .internal .. => true
  | _ => false

end Error

end ImpStack
