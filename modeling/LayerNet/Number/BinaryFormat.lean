/-!
Binary interchange formats: how a word stands for a sign, a significand and a power of two, and
the one rounding rule (nearest, ties to the even neighbour) that turns an exact ratio, or a datum
of another format, into a word.
-/

set_option autoImplicit false
set_option relaxedAutoImplicit false

-- Powers are those of the core library.
attribute [local instance (high)] instPowNat

namespace LayerNet

structure BinaryFormat where
  fractionBits : Nat
  exponentBits : Nat
  deriving DecidableEq, Repr

/-- What a word of a binary format stands for. A finite datum is `significand * 2 ^ exponent`. -/
inductive BinaryDatum
  | nan (negative : Bool) (payload : Nat)
  | infinite (negative : Bool)
  | finite (negative : Bool) (significand : Nat) (exponent : Int)
  deriving DecidableEq, Repr

namespace BinaryFormat

def binary16 : BinaryFormat := ⟨10, 5⟩

def bfloat16 : BinaryFormat := ⟨7, 8⟩

def binary32 : BinaryFormat := ⟨23, 8⟩

def binary64 : BinaryFormat := ⟨52, 11⟩

def bias (f : BinaryFormat) : Nat := 2 ^ (f.exponentBits - 1) - 1

def specialField (f : BinaryFormat) : Nat := 2 ^ f.exponentBits - 1

def infinityWord (f : BinaryFormat) : Nat := f.specialField * 2 ^ f.fractionBits

def signWord (f : BinaryFormat) (negative : Bool) : Nat :=
  if negative then 2 ^ (f.fractionBits + f.exponentBits) else 0

def leastExponent (f : BinaryFormat) : Int := 1 - (f.bias : Int) - (f.fractionBits : Int)

def decode (f : BinaryFormat) (word : Nat) : BinaryDatum :=
  let fraction := word % 2 ^ f.fractionBits
  let field := word / 2 ^ f.fractionBits % 2 ^ f.exponentBits
  let negative := word / 2 ^ (f.fractionBits + f.exponentBits) % 2 == 1
  if field = f.specialField then
    if fraction = 0 then .infinite negative else .nan negative fraction
  else if field = 0 then
    .finite negative fraction f.leastExponent
  else
    .finite negative (2 ^ f.fractionBits + fraction) (f.leastExponent + ((field : Int) - 1))

/-- The quotient rounded to the nearest natural number, ties to the even one. -/
def roundQuotient (num den : Nat) : Nat :=
  let quotient := num / den
  let twice := 2 * (num % den)
  if den < twice ∨ (twice = den ∧ quotient % 2 = 1) then quotient + 1 else quotient

/-- The ratio `num / den` divided by `2 ^ exponent`, as a numerator and a denominator. -/
def scaleDown (num den : Nat) (exponent : Int) : Nat × Nat :=
  if 0 ≤ exponent then (num, den * 2 ^ exponent.toNat) else (num * 2 ^ (-exponent).toNat, den)

/-- The greatest `e` with `2 ^ e ≤ num / den`, for positive numbers. -/
def floorLog2 (num den : Nat) : Int :=
  let guess : Int := (num.log2 : Int) - (den.log2 : Int)
  let scaled := scaleDown num den guess
  if scaled.2 ≤ scaled.1 then guess else guess - 1

/-- The word of the magnitude `num / den` after rounding. Each step of the exponent adds one
stored fraction's worth of words, so a carry out of the significand needs no case of its own. -/
def roundMagnitude (f : BinaryFormat) (num den : Nat) : Nat :=
  if num = 0 then 0
  else
    let unit := max f.leastExponent (floorLog2 num den - (f.fractionBits : Int))
    let scaled := scaleDown num den unit
    let word := (unit - f.leastExponent).toNat * 2 ^ f.fractionBits
      + roundQuotient scaled.1 scaled.2
    min word f.infinityWord

def roundRatio (f : BinaryFormat) (negative : Bool) (num den : Nat) : Nat :=
  f.signWord negative + f.roundMagnitude num den

def roundInt (f : BinaryFormat) (n : Int) : Nat :=
  f.roundRatio (n < 0) n.natAbs 1

/-- Word of a datum, for a payload of `payloadBits` bits. A NaN keeps its sign and its leading
payload bits and becomes quiet. -/
def encode (f : BinaryFormat) (payloadBits : Nat) : BinaryDatum → Nat
  | .nan negative payload =>
    let fraction := payload * 2 ^ f.fractionBits / 2 ^ payloadBits
    let quiet := 2 ^ (f.fractionBits - 1)
    f.signWord negative + f.infinityWord + (fraction ||| quiet)
  | .infinite negative => f.signWord negative + f.infinityWord
  | .finite negative significand exponent =>
    let scaled := scaleDown significand 1 (-exponent)
    f.roundRatio negative scaled.1 scaled.2

def convert (source target : BinaryFormat) (word : Nat) : Nat :=
  target.encode source.fractionBits (source.decode word)

/-- The word of the decimal `± digits * 10 ^ exponent` after rounding. A decimal whose leading
digit stands beyond the 400th place is infinite or zero in every format used here, so its power
of ten is not computed. -/
def roundDecimal (f : BinaryFormat) (negative : Bool) (digits : Nat) (exponent : Int) : Nat :=
  let places : Int := (Nat.toDigits 10 digits).length
  if digits = 0 ∨ places + exponent < -400 then f.signWord negative
  else if 400 < places + exponent then f.signWord negative + f.infinityWord
  else if 0 ≤ exponent then f.roundRatio negative (digits * 10 ^ exponent.toNat) 1
  else f.roundRatio negative digits (10 ^ (-exponent).toNat)

def ratio (f : BinaryFormat) (word : Nat) : Nat × Nat :=
  match f.decode word with
  | .finite _ significand exponent => scaleDown significand 1 (-exponent)
  | .nan .. | .infinite _ => (0, 1)

def mulMagnitude (f : BinaryFormat) (a b : Nat) : Nat :=
  f.roundMagnitude ((f.ratio a).1 * (f.ratio b).1) ((f.ratio a).2 * (f.ratio b).2)

/-- The word of the quotient of the magnitudes of two finite words. -/
def divMagnitude (f : BinaryFormat) (a b : Nat) : Nat :=
  f.roundMagnitude ((f.ratio a).1 * (f.ratio b).2) ((f.ratio a).2 * (f.ratio b).1)

end BinaryFormat

end LayerNet
