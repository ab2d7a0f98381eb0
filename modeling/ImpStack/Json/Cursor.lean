import ImpStack.Json.Value

/-! # Reading JSON text: the cursor

A reader walks the UTF-8 bytes of a text with a cursor and stops at the first fault. A fault
is reported at a byte offset, shown as a line (counted from one) and a column (the bytes since
the last line feed, counted from zero). Two offsets are in use: *here*, the cursor itself, and
*ahead*, one byte past it (at most the end of the text), for faults found while looking at the
next byte. A fault raised without an offset takes the cursor's offset at the place that
reports it (`place`).

This module holds the faults, the reader monad, blanks, keywords, string bodies and the
skipping of a value whose content is not wanted.
-/

namespace ImpStack.Json

/-- What went wrong while reading. -/
inductive Fault where
  | eofInList
  | eofInObject
  | eofInString
  | eofInValue
  | expectedColon
  | expectedListCommaOrEnd
  | expectedObjectCommaOrEnd
  | expectedIdent
  | expectedValue
  | invalidEscape
  | invalidNumber
  | numberOutOfRange
  | controlInString
  | keyMustBeString
  | loneLeadingSurrogate
  | trailingComma
  | trailingCharacters
  | unexpectedEndOfHexEscape
  | recursionLimit
  /-- A fault of the expected shape of the document, in words. -/
  | shape (message : String)
  deriving Inhabited

/-- The words of a fault. -/
def Fault.message : Fault → String
  | .eofInList => "EOF while parsing a list"
  | .eofInObject => "EOF while parsing an object"
  | .eofInString => "EOF while parsing a string"
  | .eofInValue => "EOF while parsing a value"
  | .expectedColon => "expected `:`"
  | .expectedListCommaOrEnd => "expected `,` or `]`"
  | .expectedObjectCommaOrEnd => "expected `,` or `\x7d`"
  | .expectedIdent => "expected ident"
  | .expectedValue => "expected value"
  | .invalidEscape => "invalid escape"
  | .invalidNumber => "invalid number"
  | .numberOutOfRange => "number out of range"
  | .controlInString => "control character (\\u0000-\\u001F) found while parsing a string"
  | .keyMustBeString => "key must be a string"
  | .loneLeadingSurrogate => "lone leading surrogate in hex escape"
  | .trailingComma => "trailing comma"
  | .trailingCharacters => "trailing characters"
  | .unexpectedEndOfHexEscape => "unexpected end of hex escape"
  | .recursionLimit => "recursion limit exceeded"
  | .shape m => m

/-- A fault and the byte offset it is reported at, once known. -/
structure ReadError where
  fault : Fault
  offset : Option Nat
  deriving Inhabited

/-- Line (from one) and column (bytes since the last line feed) of a byte offset. -/
def lineColumn (input : ByteArray) (offset : Nat) : Nat × Nat :=
  let before := (input.extract 0 offset).toList
  let lineStart := before.length - (before.reverse.takeWhile (· != 10)).length
  (1 + (before.take lineStart).count 10, offset - lineStart)

/-- The text of an error: the fault's words, then its line and column when it has an offset. -/
def ReadError.render (input : ByteArray) (e : ReadError) : String :=
  match e.offset with
  | none => e.fault.message
  | some o =>
    let (line, column) := lineColumn input o
    e.fault.message ++ " at line " ++ toString line ++ " column " ++ toString column

/-- The text being read and the offset of the next byte. -/
structure Cursor where
  input : ByteArray
  pos : Nat

/-- Readers keep the cursor where it stood when a fault stopped them. -/
abbrev Reader := ExceptT ReadError (StateM Cursor)

/-- The next byte, if any. -/
def peek : Reader (Option UInt8) := do
  let c ← get
  pure c.input[c.pos]?

/-- The next byte, or zero at the end. -/
def peekOrZero : Reader UInt8 := do
  pure ((← peek).getD 0)

/-- Moves past one byte. -/
def bump : Reader Unit := modify fun c => { c with pos := c.pos + 1 }

/-- Takes the next byte, if any. -/
def next : Reader (Option UInt8) := do
  let b ← peek
  if b.isSome then bump
  pure b

/-- The cursor's offset. -/
def offset : Reader Nat := do pure (← get).pos

/-- Stops with a fault at the cursor. -/
def failHere {α : Type} (f : Fault) : Reader α := do
  throw ⟨f, some (← get).pos⟩

/-- Stops with a fault one byte past the cursor. -/
def failAhead {α : Type} (f : Fault) : Reader α := do
  let c ← get
  throw ⟨f, some (min c.input.size (c.pos + 1))⟩

/-- Gives an error without an offset the cursor's offset. -/
def place (e : ReadError) : Reader ReadError := do
  match e.offset with
  | some _ => pure e
  | none => pure { e with offset := some (← get).pos }

/-- Stops with a shape fault that the enclosing reader will place. -/
def failShape {α : Type} (message : String) : Reader α :=
  throw ⟨.shape message, none⟩

/-- Runs a reader and returns its outcome instead of stopping; the cursor stays where the
reader left it. -/
def attempt {α : Type} (x : Reader α) : Reader (Except ReadError α) :=
  ExceptT.lift x.run

/-- The offset of the first byte at or after `pos` that is not a blank (space, tab, line feed,
carriage return). -/
def skipBlank (input : ByteArray) (pos : Nat) : Nat :=
  if h : pos < input.size then
    let b := input[pos]
    if b == 0x20 || b == 0x0A || b == 0x09 || b == 0x0D then skipBlank input (pos + 1) else pos
  else pos
termination_by input.size - pos

/-- Skips blanks and looks at the next byte. -/
def blank : Reader (Option UInt8) := do
  modify fun c => { c with pos := skipBlank c.input c.pos }
  peek

/-- Whether a byte is an ASCII digit. -/
def isDigit (b : UInt8) : Bool := 0x30 ≤ b && b ≤ 0x39

/-- Reads the rest of a keyword, byte by byte. -/
def word : List UInt8 → Reader Unit
  | [] => pure ()
  | b :: rest => do
    match ← next with
    | none => failHere .eofInValue
    | some c => if c == b then word rest else failHere .expectedIdent

/-- The rest of `null`, `true` and `false` after their first letter. -/
def ull : List UInt8 := [0x75, 0x6C, 0x6C]
def rue : List UInt8 := [0x72, 0x75, 0x65]
def alse : List UInt8 := [0x61, 0x6C, 0x73, 0x65]

/-- The value of a hexadecimal digit. -/
def hexValue (b : UInt8) : Option Nat :=
  if 0x30 ≤ b && b ≤ 0x39 then some (b.toNat - 0x30)
  else if 0x61 ≤ b && b ≤ 0x66 then some (b.toNat - 0x61 + 10)
  else if 0x41 ≤ b && b ≤ 0x46 then some (b.toNat - 0x41 + 10)
  else none

/-- Reads the four hexadecimal digits of a `\u` escape. Fewer than four bytes left is an end
of text inside the string; the digits are checked once all four are taken. -/
def hexQuad : Reader Nat := do
  let c ← get
  if c.pos + 4 ≤ c.input.size then
    let ds := (c.input.extract c.pos (c.pos + 4)).toList
    set { c with pos := c.pos + 4 }
    match ds.mapM hexValue with
    | some [a, b, d, e] => pure (((a * 16 + b) * 16 + d) * 16 + e)
    | _ => failHere .invalidEscape
  else
    set { c with pos := c.input.size }
    failHere .eofInString

/-- The UTF-8 bytes of a code point. -/
def utf8 (n : Nat) : ByteArray := (Char.ofNat n).toString.toUTF8

/-- Reads a `\u` escape after its `u`: one code unit, or a surrogate pair written as two
escapes. A trailing surrogate first, or a leading one without its partner, is a fault. -/
def unicodeEscape : Reader ByteArray := do
  let n ← hexQuad
  if 0xDC00 ≤ n && n ≤ 0xDFFF then failHere .loneLeadingSurrogate
  else if n < 0xD800 || n > 0xDBFF then pure (utf8 n)
  else
    match ← peek with
    | none => failHere .eofInString
    | some b =>
      bump
      if b != 0x5C then failHere .unexpectedEndOfHexEscape
      else
        match ← peek with
        | none => failHere .eofInString
        | some b =>
          bump
          if b != 0x75 then failHere .unexpectedEndOfHexEscape
          else
            let n2 ← hexQuad
            if n2 < 0xDC00 || n2 > 0xDFFF then failHere .loneLeadingSurrogate
            else pure (utf8 ((((n - 0xD800) <<< 10) ||| (n2 - 0xDC00)) + 0x10000))

/-- Reads one escape after its backslash. -/
def escape : Reader ByteArray := do
  match ← next with
  | none => failHere .eofInString
  | some b =>
    match b with
    | 0x22 => pure (ByteArray.mk #[0x22])
    | 0x5C => pure (ByteArray.mk #[0x5C])
    | 0x2F => pure (ByteArray.mk #[0x2F])
    | 0x62 => pure (ByteArray.mk #[0x08])
    | 0x66 => pure (ByteArray.mk #[0x0C])
    | 0x6E => pure (ByteArray.mk #[0x0A])
    | 0x72 => pure (ByteArray.mk #[0x0D])
    | 0x74 => pure (ByteArray.mk #[0x09])
    | 0x75 => unicodeEscape
    | _ => failHere .invalidEscape

/-- Reads string bytes up to the closing quote, which it takes; `fuel` bounds the steps. -/
def stringBytes (acc : ByteArray) : Nat → Reader ByteArray
  | 0 => failHere .eofInString
  | fuel + 1 => do
    match ← peek with
    | none => failHere .eofInString
    | some b =>
      bump
      if b == 0x22 then pure acc
      else if b == 0x5C then
        let e ← escape
        stringBytes (acc ++ e) fuel
      else if b < 0x20 then failHere .controlInString
      else stringBytes (acc.push b) fuel

/-- Reads the rest of a string after its opening quote. -/
def stringBody : Reader String := do
  let c ← get
  let bytes ← stringBytes ByteArray.empty (c.input.size + 1)
  pure ((String.fromUTF8? bytes).getD "")

/-- Skips one escape after its backslash; `\u` takes four bytes without looking at pairs. -/
def skipEscape : Reader Unit := do
  match ← next with
  | none => failHere .eofInString
  | some b =>
    if b == 0x22 || b == 0x5C || b == 0x2F || b == 0x62 || b == 0x66 || b == 0x6E ||
        b == 0x72 || b == 0x74 then pure ()
    else if b == 0x75 then do let _ ← hexQuad; pure ()
    else failHere .invalidEscape

/-- Skips string bytes up to the closing quote, which it takes. A control character is
reported at its own offset. -/
def skipString : Nat → Reader Unit
  | 0 => failHere .eofInString
  | fuel + 1 => do
    match ← peek with
    | none => failHere .eofInString
    | some b =>
      if b == 0x22 then bump
      else if b == 0x5C then do bump; skipEscape; skipString fuel
      else if b < 0x20 then failHere .controlInString
      else do bump; skipString fuel

/-- Skips digits. -/
def skipDigits : Nat → Reader Unit
  | 0 => pure ()
  | fuel + 1 => do
    if isDigit (← peekOrZero) then do bump; skipDigits fuel else pure ()

/-- Skips the exponent of a number whose `e` is next. -/
def skipExponent : Reader Unit := do
  bump
  let s ← peekOrZero
  if s == 0x2B || s == 0x2D then bump
  let d ← peekOrZero
  if isDigit d then do
    bump
    skipDigits (← get).input.size
  else
    if (← peek).isSome then bump
    failHere .invalidNumber

/-- Skips a number after its optional minus sign, checking its form only. -/
def skipNumber : Reader Unit := do
  let size := (← get).input.size
  let first ← peekOrZero
  if (← peek).isSome then bump
  if first == 0x30 then
    if isDigit (← peekOrZero) then failAhead .invalidNumber
  else if isDigit first then skipDigits size
  else failHere .invalidNumber
  let b ← peekOrZero
  if b == 0x2E then do
    bump
    if !isDigit (← peekOrZero) then failAhead .invalidNumber
    skipDigits size
    let e ← peekOrZero
    if e == 0x65 || e == 0x45 then skipExponent
  else if b == 0x65 || b == 0x45 then skipExponent

/-- One step of skipping a value: the brackets still open are kept on a stack. -/
inductive Open where
  | list
  | object
  deriving DecidableEq

/-- After a scalar or a closing bracket: reads separators and closing brackets of the open
containers until a further value is due (`true`) or nothing is left open (`false`). -/
def closeOpen (stack : List Open) (acceptComma : Bool) : Nat → Reader (Option (List Open))
  | 0 => failHere .eofInValue
  | fuel + 1 => do
    match stack with
    | [] => pure none
    | frame :: rest =>
      match ← blank with
      | none => failAhead (if frame == .list then .eofInList else .eofInObject)
      | some b =>
        if b == 0x2C && acceptComma then do
          bump
          pure (some stack)
        else if (b == 0x5D && frame == .list) || (b == 0x7D && frame == .object) then do
          bump
          closeOpen rest true fuel
        else if acceptComma then
          failAhead (if frame == .list then .expectedListCommaOrEnd else .expectedObjectCommaOrEnd)
        else pure (some stack)

/-- Before a member's value: reads the key and the colon when the innermost open container is
an object. -/
def memberKey (stack : List Open) : Reader Unit := do
  match stack with
  | .object :: _ =>
    match ← blank with
    | some 0x22 => bump
    | some _ => failAhead .keyMustBeString
    | none => failAhead .eofInObject
    skipString (← get).input.size
    match ← blank with
    | some 0x3A => bump
    | some _ => failAhead .expectedColon
    | none => failAhead .eofInObject
  | _ => pure ()

/-- Skips a whole value of any form, checking its syntax without building it; no depth limit. -/
def skipValue (stack : List Open) : Nat → Reader Unit
  | 0 => failHere .eofInValue
  | fuel + 1 => do
    let size := (← get).input.size
    let opened : Option Open ← do
      match ← blank with
      | none => failAhead .eofInValue
      | some b =>
        if b == 0x6E then do bump; word ull; pure none
        else if b == 0x74 then do bump; word rue; pure none
        else if b == 0x66 then do bump; word alse; pure none
        else if b == 0x2D then do bump; skipNumber; pure none
        else if isDigit b then do skipNumber; pure none
        else if b == 0x22 then do bump; skipString size; pure none
        else if b == 0x5B then do bump; pure (some .list)
        else if b == 0x7B then do bump; pure (some .object)
        else failAhead .expectedValue
    match opened with
    | some frame =>
      -- a container just opened: it may close at once
      match ← closeOpen [frame] false size with
      | some _ => do memberKey (frame :: stack); skipValue (frame :: stack) fuel
      | none =>
        match ← closeOpen stack true size with
        | some st => do memberKey st; skipValue st fuel
        | none => pure ()
    | none =>
      match ← closeOpen stack true size with
      | some st => do memberKey st; skipValue st fuel
      | none => pure ()

end ImpStack.Json
