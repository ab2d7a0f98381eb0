import ImpStack.Json.Parse

/-! # Reading JSON against a schema

A `Slot` says what a document, or a part of it, must be: a string, a 64-bit integer, a double,
a boolean, `null`, an optional value, a list, a pair, a record with named fields, a choice
among tagged variants, or a named shape that a layout function spells out. Reading checks the
text against the slot as it goes and stops at the first fault, so the fault reported is the
first one in reading order, with the offset where it was noticed.

The conventions:

* a record is an object whose members are its fields in any order (unknown keys are skipped,
  a repeated field is a fault, a missing optional field is absent), or an array of all its
  fields in order;
* a choice is a string naming a variant without content, or an object with one member whose
  key names the variant and whose value is its content;
* an integer must be written without fraction or exponent and fit 64 bits; a double may be
  written as any number;
* at most 127 arrays and objects may be open at once.

A fault about the shape (rather than the syntax) takes the offset of the cursor at the
innermost string, number, record, list or pair reader that sees it; the record, list and pair
readers first read up to their closing bracket when they can.
-/

namespace ImpStack.Json

/-- The expected form of a value; `ν` names the shapes that a layout function spells out. -/
inductive Slot (ν : Type) where
  | string
  | int64
  | float64
  | boolean
  | unit
  | named (n : ν)
  | option (s : Slot ν)
  | list (s : Slot ν)
  | pair (first second : Slot ν)
  /-- A record: its description (for messages) and its fields in order. -/
  | record (title : String) (fields : List (String × Slot ν))
  /-- A choice: the variants in order, each with its content (none for a bare name). -/
  | choice (variants : List (String × Option (Slot ν)))

/-- A value read against a slot. -/
inductive Datum where
  | string (s : String)
  | int (n : Int)
  | float (x : Float)
  | boolean (b : Bool)
  | unit
  | none
  | some (d : Datum)
  | list (items : List Datum)
  | pair (first second : Datum)
  | record (fields : List Datum)
  | variant (name : String) (content : Datum)
  deriving Inhabited

/-- "invalid type: …, expected …". -/
def invalidType (unexpected expected : String) : Fault :=
  .shape ("invalid type: " ++ unexpected ++ ", expected " ++ expected)

/-- "invalid length …, expected …". -/
def invalidLength (n : Nat) (expected : String) : Fault :=
  .shape ("invalid length " ++ toString n ++ ", expected " ++ expected)

/-- The list of names a variant could have had. -/
def oneOf (names : List String) : String :=
  let quoted := names.map fun n => "`" ++ n ++ "`"
  match quoted with
  | [] => ""
  | [a] => a
  | [a, b] => a ++ " or " ++ b
  | _ => "one of " ++ ", ".intercalate quoted

/-- "unknown variant …". -/
def unknownVariant (name : String) (names : List String) : Fault :=
  if names.isEmpty then .shape ("unknown variant `" ++ name ++ "`, there are no variants")
  else .shape ("unknown variant `" ++ name ++ "`, expected " ++ oneOf names)

/-- The fault for a value of the wrong kind that starts at the cursor: the value is read as far
as needed to name it, and the fault is placed after it. -/
def wrongKind {α : Type} (expected : String) : Reader α := do
  let named : Except ReadError String ← attempt do
    let b ← peekOrZero
    if b == 0x6E then do bump; word ull; pure "null"
    else if b == 0x74 then do bump; word rue; pure "boolean `true`"
    else if b == 0x66 then do bump; word alse; pure "boolean `false`"
    else if b == 0x2D then do bump; pure (← scanNumber false).describe
    else if isDigit b then do pure (← scanNumber true).describe
    else if b == 0x22 then do bump; pure ("string " ++ Quote.debug (← stringBody))
    else if b == 0x5B then pure "sequence"
    else if b == 0x7B then pure "map"
    else failAhead .expectedValue
  match named with
  | .error e => throw e
  | .ok unexpected => throw (← place ⟨invalidType unexpected expected, Option.none⟩)

/-- Runs a reader, places a fault it stops with at the cursor, and stops with that. -/
def placed {α : Type} (r : Reader α) : Reader α := do
  match ← attempt r with
  | .ok x => pure x
  | .error e => throw (← place e)

/-- Reads the body of a container, then its closing bracket even when the body failed; the
body's fault comes first, and either is placed at the cursor. -/
def closedBy {α : Type} (body : Reader α) (close : Reader Unit) : Reader α := do
  let r ← attempt body
  let c ← attempt close
  match r, c with
  | .ok x, .ok () => pure x
  | .error e, _ => throw (← place e)
  | .ok _, .error e => throw (← place e)

/-- A string. -/
def readString (expected : String) : Reader String := do
  match ← blank with
  | Option.none => failAhead .eofInValue
  | Option.some 0x22 => do bump; stringBody
  | Option.some _ => wrongKind expected

/-- A number, as the number reader scans it. -/
def readNumber (expected : String) : Reader Scanned := do
  match ← blank with
  | Option.none => failAhead .eofInValue
  | Option.some 0x2D => do bump; scanNumber false
  | Option.some b => if isDigit b then scanNumber true else wrongKind expected

/-- A 64-bit signed integer. -/
def readInt64 : Reader Int := placed do
  match ← readNumber "i64" with
  | .unsigned n =>
    if n < Nat.pow 2 63 then pure n
    else throw ⟨.shape ("invalid value: integer `" ++ toString n ++ "`, expected i64"), Option.none⟩
  | .negative n => pure n
  | .float x => throw ⟨invalidType (Scanned.float x).describe "i64", Option.none⟩

/-- A double: any number. -/
def readFloat64 : Reader Float := do
  pure (← readNumber "f64").toFloat

/-- A boolean. -/
def readBoolean : Reader Bool := do
  match ← blank with
  | Option.none => failAhead .eofInValue
  | Option.some 0x74 => do bump; word rue; pure true
  | Option.some 0x66 => do bump; word alse; pure false
  | Option.some _ => wrongKind "a boolean"

/-- `null`, the content of a variant that has none. -/
def readUnit : Reader Unit := do
  match ← blank with
  | Option.none => failAhead .eofInValue
  | Option.some 0x6E => do bump; word ull
  | Option.some _ => wrongKind "unit"

/-- Opens an array or object: fails at the depth limit, else takes the bracket. -/
def enter {β : Type} (inner : Option β) : Reader β := do
  match inner with
  | Option.none => failAhead .recursionLimit
  | Option.some r => do bump; pure r

/-- A list; `inner` reads one level down. -/
def readList {ν : Type} (inner : Option (Slot ν → Reader Datum)) (s : Slot ν) : Reader Datum := do
  match ← blank with
  | Option.none => failAhead .eofInValue
  | Option.some 0x5B => do
    let r ← enter inner
    let size := (← get).input.size
    placed (closedBy (do pure (Datum.list (← elementsWith (r s) true #[] (size + 1)).toList))
      closeList)
  | Option.some _ => wrongKind "a sequence"

/-- A pair, written as an array of two. -/
def readPair {ν : Type} (inner : Option (Slot ν → Reader Datum)) (a b : Slot ν) :
    Reader Datum := do
  let expected := "a tuple of size 2"
  match ← blank with
  | Option.none => failAhead .eofInValue
  | Option.some 0x5B => do
    let r ← enter inner
    placed (closedBy (do
        if !(← hasNextElement true) then throw ⟨invalidLength 0 expected, Option.none⟩
        let x ← r a
        if !(← hasNextElement false) then throw ⟨invalidLength 1 expected, Option.none⟩
        let y ← r b
        pure (Datum.pair x y))
      closeList)
  | Option.some _ => wrongKind expected

/-- The fields of a record written as an array, in order. -/
def fieldsInOrder {ν : Type} (r : Slot ν → Reader Datum) (expected : String) (count : Nat) :
    Nat → List (String × Slot ν) → List Datum → Reader (List Datum)
  | _, [], acc => pure acc.reverse
  | i, (_, s) :: rest, acc => do
    if !(← hasNextElement (i == 0)) then throw ⟨invalidLength i expected, Option.none⟩
    let d ← r s
    fieldsInOrder r expected count (i + 1) rest (d :: acc)

/-- Where a key stands among the fields. -/
def fieldIndex {ν : Type} (fields : List (String × Slot ν)) (key : String) : Option Nat :=
  fields.findIdx? (·.1 == key)

/-- Whether a slot is optional, so that its field may be left out. -/
def Slot.isOption {ν : Type} : Slot ν → Bool
  | .option _ => true
  | _ => false

/-- The members of a record written as an object; `seen` holds the fields read so far. -/
def fieldsByName {ν : Type} (r : Slot ν → Reader Datum) (fields : List (String × Slot ν))
    (first : Bool) (seen : Array (Option Datum)) : Nat → Reader (Array (Option Datum))
  | 0 => failHere .eofInObject
  | fuel + 1 => do
    if ← hasNextKey first then
      bump
      let key ← stringBody
      match fieldIndex fields key with
      | Option.some i =>
        if (seen.getD i Option.none).isSome then
          throw ⟨.shape ("duplicate field `" ++ key ++ "`"), Option.none⟩
        colon
        let d ← r ((fields.getD i ("", .unit)).2)
        fieldsByName r fields false (seen.set! i (Option.some d)) fuel
      | Option.none =>
        colon
        skipValue [] ((← get).input.size + 1)
        fieldsByName r fields false seen fuel
    else pure seen

/-- The fields in order once all members are read: an absent optional field is `none`, an
absent required field is a fault. -/
def completeFields {ν : Type} : List (String × Slot ν) → List (Option Datum) → Reader (List Datum)
  | [], _ => pure []
  | (name, s) :: rest, d :: ds => do
    let here ← match d with
      | Option.some v => pure v
      | Option.none =>
        if s.isOption then pure Datum.none
        else throw ⟨.shape ("missing field `" ++ name ++ "`"), Option.none⟩
    pure (here :: (← completeFields rest ds))
  | (name, s) :: rest, [] => do
    if !s.isOption then throw ⟨.shape ("missing field `" ++ name ++ "`"), Option.none⟩
    pure (Datum.none :: (← completeFields rest []))

/-- A record, written as an object or as an array of its fields. -/
def readRecord {ν : Type} (inner : Option (Slot ν → Reader Datum)) (title : String)
    (fields : List (String × Slot ν)) : Reader Datum := do
  let count := fields.length
  let expected := title ++ " with " ++ toString count ++ (if count == 1 then " element" else " elements")
  match ← blank with
  | Option.none => failAhead .eofInValue
  | Option.some 0x5B => do
    let r ← enter inner
    placed (closedBy (do pure (Datum.record (← fieldsInOrder r expected count 0 fields [])))
      closeList)
  | Option.some 0x7B => do
    let r ← enter inner
    let size := (← get).input.size
    placed (closedBy (do
        let seen ← fieldsByName r fields true (Array.replicate count Option.none) (size + 1)
        pure (Datum.record (← completeFields fields seen.toList)))
      closeObject)
  | Option.some _ => wrongKind title

/-- The name of a variant, placed after it when it names none. -/
def variantName (names : List String) : Reader String := do
  match ← blank with
  | Option.none => failAhead .eofInValue
  | Option.some 0x22 => do
    bump
    let name ← stringBody
    if names.contains name then pure name
    else throw (← place ⟨unknownVariant name names, Option.none⟩)
  | Option.some _ => wrongKind "variant identifier"

/-- A choice, written as a bare name or as an object of one member. -/
def readChoice {ν : Type} (inner : Option (Slot ν → Reader Datum))
    (variants : List (String × Option (Slot ν))) : Reader Datum := do
  let names := variants.map (·.1)
  match ← blank with
  | Option.none => failAhead .eofInValue
  | Option.some 0x7B => do
    let r ← enter inner
    let name ← variantName names
    colon
    let content ← match (variants.lookup name).getD Option.none with
      | Option.none => do readUnit; pure Datum.unit
      | Option.some s => r s
    match ← blank with
    | Option.some 0x7D => do bump; pure (Datum.variant name content)
    | Option.some _ => failHere .expectedValue
    | Option.none => failHere .eofInObject
  | Option.some 0x22 => do
    let name ← variantName names
    match (variants.lookup name).getD Option.none with
    | Option.none => pure (Datum.variant name Datum.unit)
    | Option.some (.record _ _) =>
      throw ⟨invalidType "unit variant" "struct variant", Option.none⟩
    | Option.some _ => throw ⟨invalidType "unit variant" "newtype variant", Option.none⟩
  | Option.some _ => failAhead .expectedValue

/-- Reads against a slot at one level; `inner` reads one level down, and is missing when no
further array or object may be opened. -/
def readSlotWith {ν : Type} (layout : ν → Slot ν) (inner : Option (Slot ν → Reader Datum)) :
    Slot ν → Reader Datum
  | .string => do pure (Datum.string (← placed (readString "a string")))
  | .int64 => do pure (Datum.int (← readInt64))
  | .float64 => do pure (Datum.float (← placed readFloat64))
  | .boolean => do pure (Datum.boolean (← placed readBoolean))
  | .unit => do placed readUnit; pure Datum.unit
  | .option s => do
    if (← blank) == Option.some 0x6E then do bump; word ull; pure Datum.none
    else pure (Datum.some (← readSlotWith layout inner s))
  | .list s => readList inner s
  | .pair a b => readPair inner a b
  | .record title fields => readRecord inner title fields
  | .choice variants => readChoice inner variants
  | .named n =>
    match layout n with
    | .record title fields => readRecord inner title fields
    | .choice variants => readChoice inner variants
    | _ => failHere .expectedValue

/-- Reads against a slot inside which `depth` further arrays or objects may be opened. -/
def readSlot {ν : Type} (layout : ν → Slot ν) : Nat → Slot ν → Reader Datum
  | 0 => readSlotWith layout Option.none
  | d + 1 => readSlotWith layout (Option.some (readSlot layout d))

/-- Reads a whole text against a slot. -/
def readDocument {ν : Type} (layout : ν → Slot ν) (s : Slot ν) (text : String) :
    Except ReadError Datum :=
  readAll (readSlot layout 127 s) text

end ImpStack.Json
