import ImpStack.Error

/-! # Typing rules

The rules that relate types, all relative to a type environment that gives declared type
names their meaning:

* a type is *valid* when every name in it is built in or declared and every array size is
  positive (record fields included);
* *resolving* replaces a type name by what it stands for until the type is no longer a name,
  following at most 64 names; *deep* resolution also resolves array elements, all the way
  down (record fields keep their names);
* a value of type `actual` may be stored where `expected` is wanted (*compatible*) when the
  scalars are equal or an integer goes where a real is wanted, when arrays have equal sizes and
  compatible elements, and when records or type names have the same name;
* an explicit conversion (*coercion*) exists between equal types and between any two of
  integer, real and boolean; the only implicit one is from integer to real;
* operators: comparisons take two numbers (compared as reals if either is real) or two
  booleans and give a boolean; logical operators take and give booleans; arithmetic on two
  integers gives an integer and on two numbers otherwise a real; `not` takes a boolean and
  negation a number.
-/

namespace ImpStack

/-- Declared type names and what they stand for; the first entry of a name counts. Built-in
names always stand for their scalar, whatever the environment says. -/
abbrev TypeEnv := List (String × Ty)

/-- The declared meaning of a type name. -/
def TypeEnv.find? (env : TypeEnv) (name : String) : Option Ty := env.lookup name

namespace Ty

/-- Every name in the type is built in or declared, and every array size is positive. -/
def isValid (env : TypeEnv) : Ty → Bool
  | .prim _ => true
  | .array e n => n > 0 && isValid env e
  | .record _ fs => fieldsValid env fs
  | .named name => isBuiltinName name || (env.find? name).isSome
where
  /-- Every field type is valid. -/
  fieldsValid (env : TypeEnv) : List (String × Ty) → Bool
    | [] => true
    | (_, t) :: rest => isValid env t && fieldsValid env rest

/-- Follows type names from `cur`; `steps` more names may be followed. -/
def resolveFrom (env : TypeEnv) (original : Ty) (cur : Ty) : Nat → Except Error Ty
  | 0 => .error (.undefinedType original.display)
  | steps + 1 =>
    match cur with
    | .named name =>
      match Prim.ofName? name with
      | some p => .ok (.prim p)
      | none =>
        match env.find? name with
        | some t => resolveFrom env original t steps
        | none => .error (.undefinedType name)
    | other => .ok other

/-- The type a type stands for once names are followed, at most 64 of them. An unknown name
is an error naming it; too long a chain is an error naming the type itself. -/
def resolve (env : TypeEnv) (t : Ty) : Except Error Ty := resolveFrom env t t 64

/-- How many constructors a type is written with, record fields included. -/
def size : Ty → Nat
  | .prim _ | .named _ => 1
  | .array e _ => e.size + 1
  | .record _ fs => fieldsSize fs + 1
where
  /-- The sizes of a record's field types, added up. -/
  fieldsSize : List (String × Ty) → Nat
    | [] => 0
    | (_, t) :: rest => t.size + fieldsSize rest

end Ty

/-- How many constructors the declared types of an environment are written with. -/
def TypeEnv.size : TypeEnv → Nat
  | [] => 0
  | (_, t) :: rest => t.size + TypeEnv.size rest

namespace Ty

/-- How many nested levels deep resolution and value creation may go. Every level is a
constructor of the type or of a declaration, and a chain of levels that comes back to a
constructor it passed is a cycle, so this is never too few for a type that resolves. -/
def depthBudget (env : TypeEnv) (t : Ty) : Nat := t.size + env.size

/-- Resolution of a type and, when it is an array, of its elements all the way down. The
recursion has no bound of its own: an array type whose elements resolve to the array again is
resolved forever. `fuel` bounds the depth; every type whose elements do not come back to it
is resolved within the budget `resolveDeep` gives, and running out stands for the recursion
that does not end. -/
def resolveDeepFrom (env : TypeEnv) (t : Ty) : Nat → Except Error Ty
  | 0 => .error (.unboundedRecursion "deep resolution of an array type that contains itself")
  | fuel + 1 => do
    match ← t.resolve env with
    | .array e n => return .array (← resolveDeepFrom env e fuel) n
    | r => return r

/-- Deep resolution: array elements are resolved too. -/
def resolveDeep (env : TypeEnv) (t : Ty) : Except Error Ty :=
  resolveDeepFrom env t (depthBudget env t)

/-- Whether a value of type `actual` may be stored where `expected` is wanted. -/
def compatible : Ty → Ty → Bool
  | .prim e, .prim a => e == a || (e == .real && a == .integer)
  | .array ee es, .array ae as => es == as && compatible ee ae
  | e, a =>
    match e.recordName?, a.recordName? with
    | some x, some y => x == y
    | _, _ => false

end Ty

/-- A conversion of a value between two types. -/
inductive Coercion where
  | identity
  | intToReal
  | realToInt
  | boolToInt
  | intToBool
  | realToBool
  | boolToReal
  deriving DecidableEq, Repr, Inhabited

/-- The name of a conversion. -/
def Coercion.name : Coercion → String
  | .identity => "Identity"
  | .intToReal => "IntToReal"
  | .realToInt => "RealToInt"
  | .boolToInt => "BoolToInt"
  | .intToBool => "IntToBool"
  | .realToBool => "RealToBool"
  | .boolToReal => "BoolToReal"

namespace Ty

/-- The explicit conversion from `source` to `target`, if there is one. -/
def coercion (source target : Ty) : Option Coercion :=
  if source == target then some .identity
  else
    match source.asPrim?, target.asPrim? with
    | some .integer, some .real => some .intToReal
    | some .real, some .integer => some .realToInt
    | some .boolean, some .integer => some .boolToInt
    | some .integer, some .boolean => some .intToBool
    | some .real, some .boolean => some .realToBool
    | some .boolean, some .real => some .boolToReal
    | _, _ => none

/-- Whether an explicit conversion exists. -/
def isValidCast (source target : Ty) : Bool := (coercion source target).isSome

/-- The conversion applied without being written: integer to real, else none. -/
def implicitCoercion (expected actual : Ty) : Coercion :=
  if expected.isReal && actual.isInteger then .intToReal else .identity

/-- Whether storing changes the representation: an integer going where a real is wanted, also
as the elements of arrays. -/
def needsWidening : Ty → Ty → Bool
  | .array e _, .array a _ => needsWidening e a
  | e, a => implicitCoercion e a != .identity

/-- The operand type of a comparison: real if either number is real, integer for two
integers, boolean for two booleans. -/
def comparisonOperands (left right : Ty) : Option Ty :=
  if left.isNumeric && right.isNumeric then
    if left.isReal || right.isReal then some .real else some .integer
  else if left.isBoolean && right.isBoolean then some .boolean
  else none

/-- The result type of a binary operator, if the operands suit it. -/
def binaryResult (op : BinOp) (left right : Ty) : Option Ty :=
  if op.isComparison then (comparisonOperands left right).map fun _ => .boolean
  else if op.isLogical then
    if left.isBoolean && right.isBoolean then some .boolean else none
  else
    match left.asPrim?, right.asPrim? with
    | some .integer, some .integer => some .integer
    | some l, some r => if l.isNumeric && r.isNumeric then some .real else none
    | _, _ => none

/-- The result type of a unary operator, if the operand suits it. -/
def unaryResult (op : UnOp) (operand : Ty) : Option Ty :=
  match op with
  | .not => if operand.isBoolean then some .boolean else none
  | .neg => if operand.isNumeric then some operand else none

end Ty

end ImpStack
