import LayerNet.Number.Single

/-!
The fewest decimal digits that read back as the same single precision number, written
positionally: no exponent, no trailing point, `-0`, `NaN` and `inf` for the special words.
-/

set_option autoImplicit false
set_option relaxedAutoImplicit false

-- Powers are those of the core library.
attribute [local instance (high)] instPowNat

namespace LayerNet

structure Decimal where
  digits : Nat
  exponent : Int
  deriving DecidableEq, Repr

namespace Decimal

def text (d : Decimal) : String :=
  let digits := Nat.toDigits 10 d.digits
  if 0 ≤ d.exponent then
    String.ofList (digits ++ List.replicate d.exponent.toNat '0')
  else
    let places := (-d.exponent).toNat
    let padded := List.replicate (places + 1 - digits.length) '0' ++ digits
    let whole := padded.length - places
    String.ofList (padded.take whole ++ '.' :: padded.drop whole)

/-- The decimal without trailing zeros in its digits; `fuel` bounds the number of digits. -/
def trim : Nat → Decimal → Decimal
  | 0, d => d
  | fuel + 1, d =>
    if d.digits ≠ 0 ∧ d.digits % 10 = 0 then trim fuel ⟨d.digits / 10, d.exponent + 1⟩ else d

end Decimal

/-- An interval of positive rationals around a value, on one denominator. -/
structure ReadBack where
  low : Nat
  value : Nat
  high : Nat
  unit : Nat
  closed : Bool

namespace ReadBack

/-- Whether `digits` steps of the grid lie in the interval, where a step is `num / den`. -/
def contains (r : ReadBack) (num den digits : Nat) : Bool :=
  let point := digits * num * r.unit
  if r.closed then r.low * den ≤ point && point ≤ r.high * den
  else r.low * den < point && point < r.high * den

def onGrid (r : ReadBack) (num den : Nat) : Option Nat :=
  let below := r.value * den / (r.unit * num)
  let above := below + 1
  match r.contains num den below && below != 0, r.contains num den above with
  | true, true =>
    let up := above * num * r.unit - r.value * den
    let down := r.value * den - below * num * r.unit
    some (if up ≤ down then above else below)
  | true, false => some below
  | false, true => some above
  | false, false => none

/-- The decimal on the coarsest of the next `count` grids, from `10 ^ exponent` down, that has a
point in the interval. -/
def shortest (r : ReadBack) : Nat → Int → Option Decimal
  | 0, _ => none
  | count + 1, exponent =>
    let num := 10 ^ exponent.toNat
    let den := 10 ^ (-exponent).toNat
    match r.onGrid num den with
    | some digits => some ⟨digits, exponent⟩
    | none => r.shortest count (exponent - 1)

/-- The interval that reads back as `significand * 2 ^ exponent`; it is narrower below a power of
two, and its ends belong to it when the significand is even. -/
def ofDatum (significand : Nat) (exponent : Int) : ReadBack :=
  let boundary := significand = 2 ^ BinaryFormat.binary32.fractionBits
    ∧ BinaryFormat.binary32.leastExponent < exponent
  let low := if boundary then 4 * significand - 1 else 4 * significand - 2
  let scale := 2 ^ exponent.toNat
  ⟨low * scale, 4 * significand * scale, (4 * significand + 2) * scale,
    4 * 2 ^ (-exponent).toNat, significand % 2 == 0⟩

end ReadBack

namespace Single

/-- The shortest decimal that reads back as the positive datum. The grids run from `10 ^ 39`,
above every single precision number, to `10 ^ -60`, far below the least one. -/
def shortestDecimal (significand : Nat) (exponent : Int) : Decimal :=
  match (ReadBack.ofDatum significand exponent).shortest 100 39 with
  | some d => d.trim 50
  | none => ⟨0, 0⟩

def text (x : Single) : String :=
  match x.datum with
  | .nan .. => "NaN"
  | .infinite negative => if negative then "-inf" else "inf"
  | .finite negative significand exponent =>
    let magnitude := if significand = 0 then "0" else (shortestDecimal significand exponent).text
    if negative then "-" ++ magnitude else magnitude

end Single

end LayerNet
