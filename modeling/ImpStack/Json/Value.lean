import ImpStack.Number.Decimal
import ImpStack.Text.Quote

/-! # JSON documents

A JSON value whose numbers keep their literal text: a document that is read and written back
carries the same numbers, digit for digit. Objects are member lists; a reader that builds one
keeps a single member per key.

Two writers: `compact`, with no blanks at all, and `pretty`, with one member or element per
line, two spaces of indentation per level and `": "` after each key. Empty arrays and objects
are `[]` and `{}` in both.
-/

namespace ImpStack

/-- A JSON value. -/
inductive Json where
  | null
  | bool (b : Bool)
  | number (literal : String)
  | string (s : String)
  | array (items : List Json)
  | object (members : List (String × Json))
  deriving Inhabited

namespace Json

/-- An integer as a JSON number. -/
def ofInt (i : Int) : Json := .number (toString i)

/-- A natural number as a JSON number. -/
def ofNat (n : Nat) : Json := .number (toString n)

/-- A double as a JSON number in its shortest form; infinities and NaN have no JSON number and
become `null`. -/
def ofFloat (x : Float) : Json :=
  match Binary64.parts? x with
  | some _ => .number (Decimal.jsonStyle.render x)
  | none => .null

/-- A list of strings as a JSON array. -/
def ofStrings (xs : List String) : Json := .array (xs.map .string)

/-- An optional value, `null` when absent. -/
def ofOption {α : Type} (f : α → Json) : Option α → Json
  | some a => f a
  | none => .null

/-- The member of an object with the given key. -/
def get? (j : Json) (key : String) : Option Json :=
  match j with
  | .object ms => ms.lookup key
  | _ => none

/-- Text with no blanks. -/
def compact : Json → String
  | .null => "null"
  | .bool b => if b then "true" else "false"
  | .number n => n
  | .string s => Quote.json s
  | .array items => "[" ++ elements items ++ "]"
  | .object ms => "\x7b" ++ fields ms ++ "\x7d"
where
  /-- Elements separated by commas. -/
  elements : List Json → String
    | [] => ""
    | [x] => compact x
    | x :: rest => compact x ++ "," ++ elements rest
  /-- Members separated by commas. -/
  fields : List (String × Json) → String
    | [] => ""
    | [(k, v)] => Quote.json k ++ ":" ++ compact v
    | (k, v) :: rest => Quote.json k ++ ":" ++ compact v ++ "," ++ fields rest

/-- Two spaces per level. -/
def indent (level : Nat) : String := String.ofList (List.replicate (2 * level) ' ')

/-- Indented text, starting at the given nesting level. -/
def prettyAt (level : Nat) : Json → String
  | .array [] => "[]"
  | .object [] => "\x7b\x7d"
  | .array items => "[\n" ++ elements level items ++ "\n" ++ indent level ++ "]"
  | .object ms => "\x7b\n" ++ fields level ms ++ "\n" ++ indent level ++ "\x7d"
  | j => compact j
where
  /-- Elements, one per line. -/
  elements (level : Nat) : List Json → String
    | [] => ""
    | [x] => indent (level + 1) ++ prettyAt (level + 1) x
    | x :: rest => indent (level + 1) ++ prettyAt (level + 1) x ++ ",\n" ++ elements level rest
  /-- Members, one per line. -/
  fields (level : Nat) : List (String × Json) → String
    | [] => ""
    | [(k, v)] => indent (level + 1) ++ Quote.json k ++ ": " ++ prettyAt (level + 1) v
    | (k, v) :: rest =>
      indent (level + 1) ++ Quote.json k ++ ": " ++ prettyAt (level + 1) v ++ ",\n" ++
        fields level rest

/-- Indented text of a whole document. -/
def pretty (j : Json) : String := prettyAt 0 j

end Json

end ImpStack
