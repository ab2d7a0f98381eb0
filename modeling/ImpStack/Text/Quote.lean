import ImpStack.Text.Unicode

/-! # Quoted text

Three ways of writing a string between double quotes, each a map from characters to their
written form:

* `debug`: the quoter of stack listings and error messages. Backslash escapes for NUL, tab,
  carriage return, line feed, backslash and the double quote; `\u{hex}` (lowercase, no padding)
  for grapheme extenders and unprintable characters; every other character as itself.
* `assembly`: the quoter of assembly string constants. Backslash escapes for the double quote,
  backslash, line feed, tab and carriage return; printable ASCII as itself; everything else as
  `\uXXXX` per UTF-16 unit (four lowercase hex digits, so astral characters take two).
* `json`: the quoter of JSON documents. Backslash escapes for the double quote, backslash,
  backspace, form feed, line feed, carriage return and tab; other controls below U+0020 as
  `\u00XX`; everything else as itself.
-/

namespace ImpStack.Quote

/-- Lowercase hexadecimal digits of `n`, without padding. -/
def hex (n : Nat) : String := String.ofList (Nat.toDigits 16 n)

/-- Lowercase hexadecimal digits of `n`, padded with zeros to four. -/
def hex4 (n : Nat) : String :=
  let s := hex n
  String.ofList (List.replicate (4 - s.length) '0') ++ s

/-- The UTF-16 code units of a character: one below U+10000, else a surrogate pair. -/
def utf16Units (c : Char) : List Nat :=
  let n := c.toNat
  if n < 0x10000 then [n]
  else
    let m := n - 0x10000
    [0xD800 + m / 0x400, 0xDC00 + m % 0x400]

/-- One character as the debugging quoter writes it. -/
def debugChar (c : Char) : String :=
  match c with
  | '\x00' => "\\0"
  | '\t' => "\\t"
  | '\r' => "\\r"
  | '\n' => "\\n"
  | '\\' => "\\\\"
  | '"' => "\\\""
  | c =>
    if Unicode.isGraphemeExtend c || !Unicode.isPrintable c then "\\u\x7b" ++ hex c.toNat ++ "\x7d"
    else c.toString

/-- A string between double quotes, as the debugging quoter writes it. -/
def debug (s : String) : String :=
  "\"" ++ String.join (s.toList.map debugChar) ++ "\""

/-- One character as an assembly string constant holds it. -/
def assemblyChar (c : Char) : String :=
  match c with
  | '"' => "\\\""
  | '\\' => "\\\\"
  | '\n' => "\\n"
  | '\t' => "\\t"
  | '\r' => "\\r"
  | c =>
    if 0x20 ≤ c.toNat && c.toNat < 0x7F then c.toString
    else String.join ((utf16Units c).map fun u => "\\u" ++ hex4 u)

/-- The body of an assembly string constant (without the surrounding quotes). -/
def assembly (s : String) : String := String.join (s.toList.map assemblyChar)

/-- One character as a JSON string holds it. -/
def jsonChar (c : Char) : String :=
  match c with
  | '"' => "\\\""
  | '\\' => "\\\\"
  | '\x08' => "\\b"
  | '\x0c' => "\\f"
  | '\n' => "\\n"
  | '\r' => "\\r"
  | '\t' => "\\t"
  | c => if c.toNat < 0x20 then "\\u" ++ hex4 c.toNat else c.toString

/-- A JSON string literal. -/
def json (s : String) : String := "\"" ++ String.join (s.toList.map jsonChar) ++ "\""

end ImpStack.Quote
