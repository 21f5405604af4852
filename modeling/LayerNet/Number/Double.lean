import LayerNet.Number.Single

/-!
Double precision numbers, as which decimals are read before they are rounded to single precision.
A decimal is read with as many leading digits as fit in 64 bits; the digits, the power of ten and
their product or quotient are rounded one after the other.
-/

set_option autoImplicit false
set_option relaxedAutoImplicit false

-- Powers are those of the core library.
attribute [local instance (high)] instPowNat

namespace LayerNet

/-- A double precision number, as its 64-bit word. -/
structure Double where
  bits : UInt64
  deriving DecidableEq, Repr, Inhabited

namespace Double

def ofWord (word : Nat) : Double := ⟨UInt64.ofNat word⟩

def word (x : Double) : Nat := x.bits.toNat

def datum (x : Double) : BinaryDatum := BinaryFormat.binary64.decode x.word

def isFinite (x : Double) : Bool := (x.bits &&& 0x7fffffffffffffff) < 0x7ff0000000000000

/-- The nearest number to an integer, ties to even. -/
def ofInt (n : Int) : Double := ofWord (BinaryFormat.binary64.roundInt n)

def ofSingle (x : Single) : Double := ofWord (BinaryFormat.binary32.convert .binary64 x.word)

def toSingle (x : Double) : Single := .ofWord (BinaryFormat.binary64.convert .binary32 x.word)

def maxPower : Nat := 308

/-- As many leading digits as fit in 64 bits, and the power of ten of the last of them. -/
def leadingDigits (digits : Nat) (power : Int) : Nat × Int :=
  let excess := (Nat.toDigits 10 digits).length - 20
  let leading := digits / 10 ^ excess
  if leading < 2 ^ (64 : Nat) then (leading, power + excess) else (leading / 10, power + excess + 1)

/-- The word of a magnitude times a power of ten that double precision has. -/
def scale (magnitude : Nat) (power : Int) : Nat :=
  let ten := BinaryFormat.binary64.roundMagnitude (10 ^ power.natAbs) 1
  if 0 ≤ power then BinaryFormat.binary64.mulMagnitude magnitude ten
  else BinaryFormat.binary64.divMagnitude magnitude ten

/-- The word of the magnitude `digits * 10 ^ power` for digits that fit in 64 bits. A power that is
too small for one division takes two, and nothing is left after two of the greatest. -/
def magnitude (digits : Nat) (power : Int) : Nat :=
  let start := BinaryFormat.binary64.roundMagnitude digits 1
  if digits = 0 ∨ power < -2 * maxPower then 0
  else if (maxPower : Int) < power then BinaryFormat.binary64.infinityWord
  else if -maxPower ≤ power then scale start power
  else scale (scale start (-maxPower)) (power + maxPower)

/-- The number that the decimal `± digits * 10 ^ power` is read as; infinity if it is too large. -/
def ofDecimal (negative : Bool) (digits : Nat) (power : Int) : Double :=
  let (leading, power) := leadingDigits digits power
  ofWord (BinaryFormat.binary64.signWord negative + magnitude leading power)

end Double

end LayerNet
