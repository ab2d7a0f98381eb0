import ImpStack.Number.Binary64

/-! # Shortest decimal text of a double

Every finite double is written with the fewest significant digits that read back as the same
double; of two such candidates the one nearer to the exact value wins, and an exact tie goes
the way the style says: up, or to the even digit string. The digits are found in exact integer arithmetic: for one, two, …
seventeen digits the two neighbours of the value on that decimal grid are tested against the
interval of reals that round to the double (its ends belong to it when the significand is
even). Seventeen digits always suffice.

How the digits are laid out is a `FloatStyle`: positional notation inside a band of decimal
exponents, otherwise `d.ddde-7`, with or without a `+` before a positive exponent; integral
values keep a `.0`.
-/

namespace ImpStack.Decimal

/-- A positive decimal number `digits * 10^exponent`. -/
structure Scaled where
  digits : Nat
  exponent : Int
  deriving Repr, DecidableEq

/-- Compares `a * 10^p` with `b * 2^q` exactly. -/
def compareScaled (a : Nat) (p : Int) (b : Nat) (q : Int) : Ordering :=
  compare (a * Nat.pow 10 p.toNat * Nat.pow 2 (-q).toNat)
    (b * Nat.pow 2 q.toNat * Nat.pow 10 (-p).toNat)

/-- `⌊ v * 2^q / 10^s ⌋`. -/
def floorDecimal (v : Nat) (q s : Int) : Nat :=
  (v * Nat.pow 2 q.toNat * Nat.pow 10 (-s).toNat) / (Nat.pow 2 (-q).toNat * Nat.pow 10 s.toNat)

/-- The decimal exponent `p` with `10^p ≤ v * 2^q < 10^(p+1)`, for `v > 0`: an estimate from
the bit length, corrected by at most a few steps each way. -/
def decimalExponent (v : Nat) (q : Int) : Int :=
  let t : Int := (v.log2 : Int) + q
  let estimate := Int.fdiv (t * 30103) 100000
  let down := (List.range 4).foldl
    (fun p _ => if compareScaled 1 p v q == .gt then p - 1 else p) estimate
  (List.range 4).foldl
    (fun p _ => if compareScaled 1 (p + 1) v q == .gt then p else p + 1) down

/-- Removes trailing zero digits, raising the exponent. -/
def Scaled.trim (d : Scaled) : Scaled :=
  (List.range 20).foldl
    (fun d _ => if d.digits % 10 = 0 && d.digits ≠ 0 then ⟨d.digits / 10, d.exponent + 1⟩ else d)
    d

/-- The shortest decimal that rounds to the positive double `m * 2^e`, nearest of those; of two
equally near, the larger when `tieUp` holds, else the one with an even last digit.
`lowerGapHalved` says that the next smaller double is half as far as the next larger one. -/
def shortest (m : Nat) (e : Int) (lowerGapHalved tieUp : Bool) : Scaled :=
  -- every quantity below is scaled by 4, so the interval ends are integers times 2^q
  let q := e - 2
  let v := 4 * m
  let lo := if lowerGapHalved then v - 1 else v - 2
  let hi := v + 2
  let inclusive := m % 2 == 0
  let inside (d : Nat) (s : Int) : Bool :=
    let cl := compareScaled d s lo q
    let ch := compareScaled d s hi q
    (cl == .gt || (inclusive && cl == .eq)) && (ch == .lt || (inclusive && ch == .eq))
  let p := decimalExponent v q
  let attempt (k : Nat) : Option Scaled :=
    let s : Int := p + 1 - k
    let d := floorDecimal v q s
    match inside d s, inside (d + 1) s with
    | true, true =>
      match compareScaled (2 * d + 1) s (2 * v) q with
      | .gt => some ⟨d, s⟩
      | .lt => some ⟨d + 1, s⟩
      | .eq => some (if !tieUp && d % 2 = 0 then ⟨d, s⟩ else ⟨d + 1, s⟩)
    | true, false => some ⟨d, s⟩
    | false, true => some ⟨d + 1, s⟩
    | false, false => none
  let fallback : Scaled :=
    let s : Int := p - 16
    let d := floorDecimal v q s
    if compareScaled (2 * d + 1) s (2 * v) q == .lt then ⟨d + 1, s⟩ else ⟨d, s⟩
  ((List.range 17).findSome? fun i => attempt (i + 1)).getD fallback |>.trim

/-- How a double is written: which digits when two shortest ones are equally near, and how
they are laid out. -/
structure FloatStyle where
  /-- The smallest decimal exponent (of the leading digit) written positionally. -/
  leastPositional : Int
  /-- The smallest positive decimal exponent written with an exponent part. -/
  firstScientific : Int
  /-- Of two shortest decimals equally near the value, take the larger. -/
  tieUp : Bool
  /-- Write a `+` before a positive exponent. -/
  exponentPlus : Bool

/-- Stack listings and assembly text: positional from `1e-4` up to below `1e16`; an exact tie
rounds up. -/
def listingStyle : FloatStyle := ⟨-4, 16, true, false⟩

/-- JSON documents: positional from `1e-5` up to below `1e16`; an exact tie goes to the even
digit. -/
def jsonStyle : FloatStyle := ⟨-5, 16, false, false⟩

/-- Numbers quoted in messages about a JSON document: as in the document, with a `+` before a
positive exponent (`1e+16`). -/
def messageStyle : FloatStyle := ⟨-5, 16, false, true⟩

/-- `n` zero characters. -/
def zeros (n : Nat) : String := String.ofList (List.replicate n '0')

/-- The text of a positive decimal in a style. -/
def FloatStyle.layout (st : FloatStyle) (d : Scaled) : String :=
  let ds := toString d.digits
  let n := ds.length
  let sci : Int := n + d.exponent - 1
  if st.leastPositional ≤ sci && sci < st.firstScientific then
    if sci ≥ 0 then
      let whole := sci.toNat + 1
      if n ≤ whole then ds ++ zeros (whole - n) ++ ".0"
      else String.ofList (ds.toList.take whole) ++ "." ++ String.ofList (ds.toList.drop whole)
    else "0." ++ zeros ((-sci).toNat - 1) ++ ds
  else
    let rest := String.ofList (ds.toList.drop 1)
    String.ofList (ds.toList.take 1) ++ (if rest.isEmpty then "" else "." ++ rest) ++ "e" ++
      (if st.exponentPlus && sci > 0 then "+" else "") ++ toString sci

/-- The text of a double in a style: shortest digits, `0.0` for zero, with `-` for a set sign
bit; `NaN` and `inf` for the values that have no digits. -/
def FloatStyle.render (st : FloatStyle) (x : Float) : String :=
  let sign := if Binary64.signBit x then "-" else ""
  match Binary64.parts? x with
  | none => if x.isNaN then "NaN" else sign ++ "inf"
  | some p =>
    if p.significand = 0 then sign ++ "0.0"
    else sign ++ st.layout (shortest p.significand p.exponent p.lowerGapHalved st.tieUp)

end ImpStack.Decimal
