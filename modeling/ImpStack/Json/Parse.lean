import ImpStack.Json.Number

/-! # Reading a JSON document into a value

`Json.parse` reads a whole text as one JSON value: blanks around it are allowed, anything else
after it is a fault, and at most 127 arrays and objects may be open at once. Numbers are
checked as the number reader checks them and kept as their literal text. An object keeps one
member per key: a later member with the same key replaces the earlier one's value.

The separators of arrays and objects follow one rule for both: after the opening bracket a
closing bracket or an element may come; after an element a comma or the closing bracket; a
comma before a closing bracket is a trailing comma.
-/

namespace ImpStack.Json

/-- Whether another element follows in an array: at the first position an element or `]`, then
`,` and an element, or `]`. The closing bracket is left for the caller. -/
def hasNextElement (first : Bool) : Reader Bool := do
  match ← blank with
  | none => failAhead .eofInList
  | some 0x5D => pure false
  | some b =>
    if first then pure true
    else if b == 0x2C then do
      bump
      match ← blank with
      | some 0x5D => failAhead .trailingComma
      | some _ => pure true
      | none => failAhead .eofInValue
    else failAhead .expectedListCommaOrEnd

/-- Whether another member follows in an object; when one does, its key's opening quote is
next. The closing brace is left for the caller. -/
def hasNextKey (first : Bool) : Reader Bool := do
  match ← blank with
  | none => failAhead .eofInObject
  | some 0x7D => pure false
  | some b =>
    if first then
      if b == 0x22 then pure true else failAhead .keyMustBeString
    else if b == 0x2C then do
      bump
      match ← blank with
      | some 0x22 => pure true
      | some 0x7D => failAhead .trailingComma
      | some _ => failAhead .keyMustBeString
      | none => failAhead .eofInValue
    else failAhead .expectedObjectCommaOrEnd

/-- The colon between a key and its value. -/
def colon : Reader Unit := do
  match ← blank with
  | some 0x3A => bump
  | some _ => failAhead .expectedColon
  | none => failAhead .eofInObject

/-- The closing bracket of an array whose elements have all been read. -/
def closeList : Reader Unit := do
  match ← blank with
  | some 0x5D => bump
  | some 0x2C => do
    bump
    match ← blank with
    | some 0x5D => failAhead .trailingComma
    | _ => failAhead .trailingCharacters
  | some _ => failAhead .trailingCharacters
  | none => failAhead .eofInList

/-- The closing brace of an object whose members have all been read. -/
def closeObject : Reader Unit := do
  match ← blank with
  | some 0x7D => bump
  | some 0x2C => failAhead .trailingComma
  | some _ => failAhead .trailingCharacters
  | none => failAhead .eofInObject

/-- Reads elements with `element` until the closing bracket is next. -/
def elementsWith {α : Type} (element : Reader α) (first : Bool) (acc : Array α) :
    Nat → Reader (Array α)
  | 0 => failHere .eofInList
  | fuel + 1 => do
    if ← hasNextElement first then
      let x ← element
      elementsWith element false (acc.push x) fuel
    else pure acc

/-- Sets a member, replacing the value of an earlier member with the same key. -/
def setMember (ms : List (String × Json)) (k : String) (v : Json) : List (String × Json) :=
  if ms.any (·.1 == k) then ms.map fun m => if m.1 == k then (k, v) else m else ms ++ [(k, v)]

/-- Reads members with `value` until the closing brace is next. -/
def membersWith (value : Reader Json) (first : Bool) (acc : List (String × Json)) :
    Nat → Reader (List (String × Json))
  | 0 => failHere .eofInObject
  | fuel + 1 => do
    if ← hasNextKey first then
      bump
      let k ← stringBody
      colon
      let v ← value
      membersWith value false (setMember acc k v) fuel
    else pure acc

/-- The text of the bytes between two offsets. -/
def slice (start stop : Nat) : Reader String := do
  pure ((String.fromUTF8? ((← get).input.extract start stop)).getD "")

/-- Reads one value; `inner` reads a value one level down, and is missing when no further
array or object may be opened. -/
def valueWith (inner : Option (Reader Json)) : Reader Json := do
  let size := (← get).input.size
  match ← blank with
  | none => failAhead .eofInValue
  | some b =>
    if b == 0x6E then do bump; word ull; pure .null
    else if b == 0x74 then do bump; word rue; pure (.bool true)
    else if b == 0x66 then do bump; word alse; pure (.bool false)
    else if b == 0x2D || isDigit b then do
      let start ← offset
      if b == 0x2D then bump
      let _ ← scanNumber (b != 0x2D)
      pure (.number (← slice start (← offset)))
    else if b == 0x22 then do bump; pure (.string (← stringBody))
    else if b == 0x5B then
      match inner with
      | none => failAhead .recursionLimit
      | some element => do
        bump
        let items ← elementsWith element true #[] (size + 1)
        closeList
        pure (.array items.toList)
    else if b == 0x7B then
      match inner with
      | none => failAhead .recursionLimit
      | some member => do
        bump
        let ms ← membersWith member true [] (size + 1)
        closeObject
        pure (.object ms)
    else failAhead .expectedValue

/-- Reads one value inside which `depth` further arrays or objects may be opened. -/
def value : Nat → Reader Json
  | 0 => valueWith none
  | d + 1 => valueWith (some (value d))

/-- Nothing but blanks may follow a document. -/
def finish : Reader Unit := do
  if (← blank).isSome then failAhead .trailingCharacters

/-- Runs a reader over a whole text, which it must use up but for blanks. -/
def readAll {α : Type} (r : Reader α) (text : String) : Except ReadError α :=
  ((do let x ← r; finish; pure x : Reader α).run.run ⟨text.toUTF8, 0⟩).1

/-- Reads a whole text as one JSON value. -/
def parse (text : String) : Except ReadError Json := readAll (value 127) text

end ImpStack.Json
