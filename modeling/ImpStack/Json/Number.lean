import ImpStack.Json.Cursor

/-! # Reading JSON numbers

A number is read into one of three forms: a natural number below 2^64, a negative integer
down to -2^63, or a double. An integer written without fraction or exponent keeps its integer
form when it fits one; `-0` and integers out of range become doubles.

Doubles are built the quick way rather than the exact way: the significand is kept in 64 bits
(further digits are dropped, not rounded), converted to the nearest double, and multiplied or
divided once by the double nearest to the power of ten (below 1e-308 by steps of 1e308
first). This can differ from the nearest double in the last place, and it is the reading the
documents this library consumes are held to. A magnitude past the largest double is a fault,
never an infinity; an exponent too small only gives zero.
-/

namespace ImpStack.Json

/-- A number as read. -/
inductive Scanned where
  /-- A natural number below 2^64. -/
  | unsigned (n : Nat)
  /-- A negative integer, at least -2^63. -/
  | negative (n : Int)
  | float (x : Float)

/-- The largest 64-bit unsigned integer. -/
def u64Max : Nat := 18446744073709551615

/-- The largest 32-bit signed integer. -/
def i32Max : Int := 2147483647

/-- Whether `a * 10 + d` would pass `bound`. -/
def overflows (a d bound : Nat) : Bool :=
  a ≥ bound / 10 && (a > bound / 10 || d > bound % 10)

/-- Doubles nearest to `10^0`, …, `10^308`. -/
def powersOfTen : Array Float :=
  (List.range 309).toArray.map fun k => Binary64.ofScaled false (Nat.pow 10 k) 0

/-- The double for `± significand * 10^exponent`, built by one multiplication or division. -/
def fromParts (positive : Bool) (significand : Nat) (exponent : Int) : Reader Float := do
  let rec scale (f : Float) (e : Int) : Nat → Reader Float
    | 0 => pure f
    | fuel + 1 =>
      if e.natAbs ≤ 308 then
        let p := powersOfTen.getD e.natAbs 1.0
        if e ≥ 0 then
          let g := f * p
          if g.isInf then failHere .numberOutOfRange else pure g
        else pure (f / p)
      else if f == 0 then pure f
      else if e ≥ 0 then failHere .numberOutOfRange
      else scale (f / 1e308) (e + 308) fuel
  let f ← scale (Binary64.ofScaled false significand 0) exponent 10
  pure (if positive then f else -f)

/-- Adds within the 32-bit signed range, stopping at its ends. -/
def saturate (x : Int) : Int := max (-2147483648) (min i32Max x)

/-- Skips digits after an exponent too long to hold: zero, unless the value would be too
large. -/
def exponentOverflow (positive zeroSignificand positiveExponent : Bool) : Reader Float := do
  if !zeroSignificand && positiveExponent then failHere .numberOutOfRange
  skipDigits (← get).input.size
  pure (if positive then 0.0 else -0.0)

/-- Reads an exponent after its `e` is next. -/
def exponentPart (positive : Bool) (significand : Nat) (start : Int) : Reader Float := do
  bump
  let s ← peekOrZero
  let positiveExponent := s != 0x2D
  if s == 0x2B || s == 0x2D then bump
  match ← next with
  | none => failHere .eofInValue
  | some d =>
    if !isDigit d then failHere .invalidNumber
    else
      let rec digits (e : Nat) : Nat → Reader (Option Nat)
        | 0 => pure (some e)
        | fuel + 1 => do
          let c ← peekOrZero
          if isDigit c then
            bump
            let v := (c - 0x30).toNat
            if overflows e v i32Max.toNat then pure none
            else digits (e * 10 + v) fuel
          else pure (some e)
      match ← digits (d - 0x30).toNat (← get).input.size with
      | none => exponentOverflow positive (significand == 0) positiveExponent
      | some e =>
        let final := if positiveExponent then saturate (start + e) else saturate (start - e)
        fromParts positive significand final

/-- Skips the digits that no longer fit the significand, then reads an exponent if any. -/
def decimalOverflow (positive : Bool) (significand : Nat) (exponent : Int) : Reader Float := do
  skipDigits (← get).input.size
  let b ← peekOrZero
  if b == 0x65 || b == 0x45 then exponentPart positive significand exponent
  else fromParts positive significand exponent

/-- Reads a fraction after its `.` is next. -/
def fraction (positive : Bool) (significand : Nat) (before : Int) : Reader Float := do
  bump
  let rec digits (s : Nat) (after : Int) : Nat → Reader (Sum (Nat × Int) Float)
    | 0 => pure (.inl (s, after))
    | fuel + 1 => do
      let c ← peekOrZero
      if isDigit c then
        let v := (c - 0x30).toNat
        if overflows s v u64Max then
          pure (.inr (← decimalOverflow positive s (before + after)))
        else
          bump
          digits (s * 10 + v) (after - 1) fuel
      else pure (.inl (s, after))
  match ← digits significand 0 (← get).input.size with
  | .inr f => pure f
  | .inl (s, after) =>
    if after == 0 then
      if (← peek).isSome then failAhead .invalidNumber else failAhead .eofInValue
    else
      let b ← peekOrZero
      if b == 0x65 || b == 0x45 then exponentPart positive s (before + after)
      else fromParts positive s (before + after)

/-- What follows the digits of an integer part that fits 64 bits. -/
def afterInteger (positive : Bool) (significand : Nat) : Reader Scanned := do
  let b ← peekOrZero
  if b == 0x2E then .float <$> fraction positive significand 0
  else if b == 0x65 || b == 0x45 then .float <$> exponentPart positive significand 0
  else if positive then pure (.unsigned significand)
  else if significand == 0 then pure (.float (-0.0))
  else if significand ≤ Nat.pow 2 63 then pure (.negative (-(significand : Int)))
  else pure (.float (Binary64.ofScaled true significand 0))

/-- Integer digits past 64 bits: counted into the exponent, not kept. -/
def longInteger (positive : Bool) (significand : Nat) : Reader Float := do
  let rec go (exponent : Int) : Nat → Reader Float
    | 0 => fromParts positive significand exponent
    | fuel + 1 => do
      let b ← peekOrZero
      if isDigit b then do bump; go (exponent + 1) fuel
      else if b == 0x2E then fraction positive significand exponent
      else if b == 0x65 || b == 0x45 then exponentPart positive significand exponent
      else fromParts positive significand exponent
  go 0 (← get).input.size

/-- Reads a number after its optional minus sign. -/
def scanNumber (positive : Bool) : Reader Scanned := do
  match ← next with
  | none => failHere .eofInValue
  | some 0x30 =>
    if isDigit (← peekOrZero) then failAhead .invalidNumber else afterInteger positive 0
  | some d =>
    if !isDigit d then failHere .invalidNumber
    else
      let rec go (s : Nat) : Nat → Reader Scanned
        | 0 => afterInteger positive s
        | fuel + 1 => do
          let c ← peekOrZero
          if isDigit c then
            let v := (c - 0x30).toNat
            if overflows s v u64Max then .float <$> longInteger positive s
            else do bump; go (s * 10 + v) fuel
          else afterInteger positive s
      go (d - 0x30).toNat (← get).input.size

/-- The double a scanned number stands for. -/
def Scanned.toFloat : Scanned → Float
  | .unsigned n => Binary64.ofScaled false n 0
  | .negative n => Binary64.ofInt n
  | .float x => x

/-- How a scanned number is named when it is not what was wanted. -/
def Scanned.describe : Scanned → String
  | .unsigned n => "integer `" ++ toString n ++ "`"
  | .negative n => "integer `" ++ toString n ++ "`"
  | .float x => "floating point `" ++ Decimal.messageStyle.render x ++ "`"

end ImpStack.Json
