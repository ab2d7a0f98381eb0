/-! # Doubles as integer pairs

A finite double is `± m · 2^e` with a natural significand `m`. This module reads a `Float`
into that form through its bits, builds the double nearest to `± n · 2^e` (a tie goes to the
even significand), and computes the remainder of a truncated division exactly: the result of
`fmod` is always representable, so it needs no rounding at all.
-/

namespace ImpStack.Binary64

/-- The sign bit: set for negative numbers and for `-0.0`. -/
def signBit (x : Float) : Bool := x.toBits >>> 63 == 1

/-- The eleven exponent bits. -/
def exponentField (x : Float) : Nat := ((x.toBits >>> 52) &&& 0x7FF).toNat

/-- The fifty-two fraction bits. -/
def fractionField (x : Float) : Nat := (x.toBits &&& 0xFFFFFFFFFFFFF).toNat

/-- A finite double as sign, significand and binary exponent: `|x| = significand * 2^exponent`. -/
structure Parts where
  negative : Bool
  significand : Nat
  exponent : Int
  deriving Repr

/-- The parts of a finite double; `none` for infinities and NaN. -/
def parts? (x : Float) : Option Parts :=
  let f := exponentField x
  if f = 0x7FF then none
  else if f = 0 then some ⟨signBit x, fractionField x, -1074⟩
  else some ⟨signBit x, fractionField x + Nat.pow 2 52, (f : Int) - 1075⟩

/-- Whether the gap to the next smaller double is half the gap to the next larger one:
the significand is the smallest of a binade that is not the first. -/
def Parts.lowerGapHalved (p : Parts) : Bool :=
  p.significand = Nat.pow 2 52 && p.exponent > -1074

/-- `n` shifted right by `s` bits, rounded to nearest with a tie going to the even result. -/
def shiftRound (n s : Nat) : Nat :=
  if s = 0 then n
  else
    let q := n >>> s
    let r := n - (q <<< s)
    let half := 1 <<< (s - 1)
    if r > half || (r == half && q % 2 == 1) then q + 1 else q

/-- The double nearest to `± n · 2^e`, ties to an even significand; a magnitude beyond the
largest finite double gives an infinity. -/
def ofScaled (negative : Bool) (n : Nat) (e : Int) : Float :=
  let sign : UInt64 := if negative then 0x8000000000000000 else 0
  if n = 0 then Float.ofBits sign
  else
    let top : Int := (n.log2 : Int) + e
    let q₀ : Int := max (top - 52) (-1074)
    let m₀ : Nat := if q₀ ≤ e then n <<< (e - q₀).toNat else shiftRound n (q₀ - e).toNat
    let m : Nat := if m₀ = Nat.pow 2 53 then Nat.pow 2 52 else m₀
    let q : Int := if m₀ = Nat.pow 2 53 then q₀ + 1 else q₀
    if q > 971 then Float.ofBits (sign ||| 0x7FF0000000000000)
    else if m < Nat.pow 2 52 then Float.ofBits (sign ||| m.toUInt64)
    else
      Float.ofBits (sign ||| ((q + 1075).toNat.toUInt64 <<< 52) ||| (m - Nat.pow 2 52).toUInt64)

/-- The double nearest to an integer. -/
def ofInt (i : Int) : Float := ofScaled (i < 0) i.natAbs 0

/-- A quiet NaN. -/
def nan : Float := Float.ofBits 0x7FF8000000000000

/-- Remainder of the division truncated toward zero, `x - trunc (x / y) * y`, with the sign of
`x`. It is computed on the exact values and is exact: zero divisors and infinite dividends
give NaN, an infinite divisor leaves `x`. -/
def fmod (x y : Float) : Float :=
  match parts? x, parts? y with
  | some a, some b =>
    if b.significand = 0 then nan
    else if a.significand = 0 then x
    else
      let e := min a.exponent b.exponent
      let dividend := a.significand <<< (a.exponent - e).toNat
      let divisor := b.significand <<< (b.exponent - e).toNat
      ofScaled a.negative (dividend % divisor) e
  | some _, none => if y.isNaN then y else x
  | none, _ => nan

end ImpStack.Binary64
