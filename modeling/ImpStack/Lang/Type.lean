/-! # Types of the language

A type is a built-in scalar, a fixed-size array, a record with named fields, or a name that
a type declaration gives meaning to. Types compare structurally. Their text is the scalar's
name, `array[size] element`, or the record's or type's name.
-/

namespace ImpStack

/-- The built-in scalar types. -/
inductive Prim where
  | integer
  | real
  | boolean
  | string
  | void
  deriving DecidableEq, Repr, Inhabited

namespace Prim

/-- The name a program uses for the scalar. -/
def name : Prim → String
  | .integer => "integer"
  | .real => "real"
  | .boolean => "boolean"
  | .string => "string"
  | .void => "void"

/-- The scalar a name stands for; these names cannot be declared again. -/
def ofName? : String → Option Prim
  | "integer" => some .integer
  | "real" => some .real
  | "boolean" => some .boolean
  | "string" => some .string
  | "void" => some .void
  | _ => none

/-- Integers and reals. -/
def isNumeric : Prim → Bool
  | .integer | .real => true
  | _ => false

end Prim

/-- Whether a name is that of a built-in scalar. -/
def isBuiltinName (name : String) : Bool := (Prim.ofName? name).isSome

/-- A type. -/
inductive Ty where
  | prim (p : Prim)
  | array (element : Ty) (size : Int)
  | record (name : String) (fields : List (String × Ty))
  | named (name : String)
  deriving Repr, Inhabited

namespace Ty

/-- Structural equality of types. -/
def beq : Ty → Ty → Bool
  | .prim a, .prim b => a == b
  | .array e n, .array e' n' => n == n' && beq e e'
  | .record n fs, .record n' fs' => n == n' && fieldsBeq fs fs'
  | .named a, .named b => a == b
  | _, _ => false
where
  /-- Equality of field lists, field by field. -/
  fieldsBeq : List (String × Ty) → List (String × Ty) → Bool
    | [], [] => true
    | (a, t) :: r, (b, u) :: r' => a == b && beq t u && fieldsBeq r r'
    | _, _ => false

instance : BEq Ty := ⟨beq⟩

def integer : Ty := .prim .integer
def real : Ty := .prim .real
def boolean : Ty := .prim .boolean
def string : Ty := .prim .string
def void : Ty := .prim .void

/-- The text of a type. -/
def display : Ty → String
  | .prim p => p.name
  | .array e n => "array[" ++ toString n ++ "] " ++ e.display
  | .record name _ => name
  | .named name => name

/-- The scalar, for a scalar type. -/
def asPrim? : Ty → Option Prim
  | .prim p => some p
  | _ => none

def isVoid (t : Ty) : Bool := t.asPrim? == some .void
def isBoolean (t : Ty) : Bool := t.asPrim? == some .boolean
def isInteger (t : Ty) : Bool := t.asPrim? == some .integer
def isReal (t : Ty) : Bool := t.asPrim? == some .real
def isNumeric (t : Ty) : Bool := (t.asPrim?.map Prim.isNumeric).getD false

/-- The type of the first field with the given name, for a record type. -/
def field? (t : Ty) (f : String) : Option Ty :=
  match t with
  | .record _ fields => fields.lookup f
  | _ => none

/-- The name of a record type or of a named type. -/
def recordName? : Ty → Option String
  | .record name _ => some name
  | .named name => some name
  | _ => none

/-- Arrays and records. -/
def isAggregate : Ty → Bool
  | .array _ _ | .record _ _ => true
  | _ => false

end Ty

end ImpStack
