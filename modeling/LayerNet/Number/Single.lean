import LayerNet.Number.BinaryFormat

/-!
Single precision numbers. A number is carried as its 32-bit word, so that moving it keeps every
bit of a NaN; arithmetic goes through `Float32`. Rounding to an integer, and the conversions from
and to integers and 16-bit words, are exact functions of the word.
-/

set_option autoImplicit false
set_option relaxedAutoImplicit false

-- Powers are those of the core library.
attribute [local instance (high)] instPowNat

namespace LayerNet

/-- A single precision number, as its 32-bit word. -/
structure Single where
  bits : UInt32
  deriving DecidableEq, Repr, Inhabited

namespace Single

def toFloat32 (x : Single) : Float32 := Float32.ofBits x.bits

def ofFloat32 (x : Float32) : Single := ⟨x.toBits⟩

def ofWord (word : Nat) : Single := ⟨UInt32.ofNat word⟩

def word (x : Single) : Nat := x.bits.toNat

def datum (x : Single) : BinaryDatum := BinaryFormat.binary32.decode x.word

/-- The nearest number to an integer, ties to even. -/
def ofInt (n : Int) : Single := ofWord (BinaryFormat.binary32.roundInt n)

instance : Zero Single := ⟨⟨0⟩⟩
instance : One Single := ⟨⟨0x3f800000⟩⟩
instance : Add Single := ⟨fun a b => ofFloat32 (a.toFloat32 + b.toFloat32)⟩
instance : Sub Single := ⟨fun a b => ofFloat32 (a.toFloat32 - b.toFloat32)⟩
instance : Mul Single := ⟨fun a b => ofFloat32 (a.toFloat32 * b.toFloat32)⟩
instance : Div Single := ⟨fun a b => ofFloat32 (a.toFloat32 / b.toFloat32)⟩

def infinity : Single := ⟨0x7f800000⟩

def negInfinity : Single := ⟨0xff800000⟩

/-- The quiet NaN without payload. -/
def notANumber : Single := ⟨0x7fc00000⟩

/-- The correctly rounded square root. -/
def sqrt (x : Single) : Single := ofFloat32 x.toFloat32.sqrt

def abs (x : Single) : Single := ⟨x.bits &&& 0x7fffffff⟩

def isNaN (x : Single) : Bool := 0x7f800000 < (x.bits &&& 0x7fffffff)

/-- Whether the word stands for a number that is not infinite. -/
def isFinite (x : Single) : Bool := (x.bits &&& 0x7fffffff) < 0x7f800000

/-- Numeric equality: zeros of both signs are equal, a NaN equals nothing. -/
def numEq (a b : Single) : Bool := a.toFloat32 == b.toFloat32

def numLt (a b : Single) : Bool := a.toFloat32 < b.toFloat32

/-- Numeric order or equality; a NaN is at most nothing. -/
def numLe (a b : Single) : Bool := a.toFloat32 ≤ b.toFloat32

/-- The greater of two numbers, where a NaN gives way to the other operand and of two equal numbers
the second counts, so that the last of several zeros gives its sign. -/
def max (a b : Single) : Single := if b.isNaN || b.numLt a then a else b

/-- The nearest integer, halves away from zero, as a number of the same sign. -/
def round (x : Single) : Single :=
  match x.datum with
  | .nan .. | .infinite _ => x
  | .finite negative significand exponent =>
    if 0 ≤ exponent then x
    else
      let unit := 2 ^ (-exponent).toNat
      ofWord (BinaryFormat.binary32.roundRatio negative ((2 * significand + unit) / (2 * unit)) 1)

/-- The integer part, clamped to `[low, high]`; a NaN becomes zero. -/
def truncate (low high : Int) (x : Single) : Int :=
  match x.datum with
  | .nan .. => 0
  | .infinite negative => if negative then low else high
  | .finite negative significand exponent =>
    let scaled := BinaryFormat.scaleDown significand 1 (-exponent)
    let magnitude : Int := (scaled.1 / scaled.2 : Nat)
    Max.max low (Min.min high (if negative then -magnitude else magnitude))

def ofDecimal (negative : Bool) (digits : Nat) (exponent : Int) : Single :=
  ofWord (BinaryFormat.binary32.roundDecimal negative digits exponent)

def ofBinary16 (word : Nat) : Single := ofWord (BinaryFormat.binary16.convert .binary32 word)

def toBinary16 (x : Single) : Nat := BinaryFormat.binary32.convert .binary16 x.word

def ofBFloat16 (word : Nat) : Single := ofWord (BinaryFormat.bfloat16.convert .binary32 word)

def toBFloat16 (x : Single) : Nat := BinaryFormat.binary32.convert .bfloat16 x.word

end Single

end LayerNet
