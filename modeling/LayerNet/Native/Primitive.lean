import LayerNet.Tensor.Codec

/-!
Strided windows on tensors whose dimensions are listed innermost first. Coordinates are signed
64-bit numbers: sums and differences that leave them saturate or count as out of bounds. A plain
slice copies the planes of the two innermost dimensions; a strided slice walks single elements.
-/

set_option autoImplicit false
set_option relaxedAutoImplicit false

-- Powers are those of the core library.
attribute [local instance (high)] instPowNat

namespace LayerNet

/-- A tensor with its dimensions innermost first. -/
structure NativeTensor where
  extents : List Int
  data : Array Single
  deriving DecidableEq

/-- A window operation, with one start, one end and perhaps one stride per dimension. -/
inductive Primitive
  | slice (starts stops : List Int)
  | stridedSlice (starts stops strides : List Int)
  deriving DecidableEq, Repr

/-- Why a window operation is refused. -/
inductive NativeFault
  | coordinateCount (primitive : String) (rank : Nat)
  | zeroStride (primitive : String)
  | outsideWindow (primitive : String) (start stop : Int) (dimension : Nat) (extent : Int)
  | shapeMismatch (primitive : String) (output expected : List Int)
  deriving DecidableEq, Repr

namespace NativeFault

def message : NativeFault → String
  | .coordinateCount primitive rank => s!"{primitive}: expected {rank} coordinates per bound"
  | .zeroStride primitive => s!"{primitive}: zero stride"
  | .outsideWindow primitive start stop dimension extent =>
    s!"{primitive}: window [{start}, {stop}) leaves native dimension {dimension} "
      ++ s!"of extent {extent}"
  | .shapeMismatch primitive output expected =>
    s!"{primitive}: output shape " ++ listText output ++ " does not match " ++ listText expected
where
  /-- Numbers in brackets, separated by a comma and a blank. -/
  listText (ns : List Int) : String := "[" ++ ", ".intercalate (ns.map toString) ++ "]"

end NativeFault

def Int64Range.low : Int := -2 ^ (63 : Nat)

def Int64Range.high : Int := 2 ^ (63 : Nat) - 1

def Int64Range.saturate (n : Int) : Int := max low (min high n)

def Int64Range.check (n : Int) : Option Int := if low ≤ n ∧ n ≤ high then some n else none

def Arithmetic.signed (a : Arithmetic) (n : Int) : Except Crash Int :=
  match a with
  | .unbounded => .ok n
  | .checked => if Int64Range.low ≤ n ∧ n ≤ Int64Range.high then .ok n else .error .overflow
  | .wrapped => .ok (Int.bmod n (2 ^ (64 : Nat)))

namespace NativeTensor

/-- The extents of a tensor, innermost first, as signed numbers. -/
def describe (info : TensorInfo) : List Int := info.dims.reverse.map TensorInfo.signedWord

def allocate (info : TensorInfo) : Except Crash NativeTensor := do
  Crash.reserve info.numElements
  return ⟨describe info, Array.replicate info.numElements 0⟩

def ofValues (info : TensorInfo) (values : Array Single) : Except TensorError NativeTensor :=
  if values.size = info.numElements then .ok ⟨describe info, values⟩
  else .error (.elementCount info.numElements values.size)

def ofBytes (info : TensorInfo) (data : Bytes) : Except (Stop TensorError) NativeTensor := do
  orRefuse id (ofValues info (← info.decode data))

def toBytes (t : NativeTensor) (info : TensorInfo) (size : Nat) :
    Except (Stop TensorError) Bytes :=
  info.encodeNew t.data size

def stridesFrom (a : Arithmetic) : Int → List Int → Except Crash (List Int)
  | _, [] => .ok []
  | distance, extent :: extents => do
    let next ← a.signed (distance * extent)
    return distance :: (← stridesFrom a next extents)

def strides (t : NativeTensor) (a : Arithmetic := .unbounded) : Except Crash (List Int) :=
  stridesFrom a 1 t.extents

end NativeTensor

namespace Primitive

def name : Primitive → String
  | .slice .. => "slice"
  | .stridedSlice .. => "strided_slice"

def starts : Primitive → List Int
  | .slice starts _ => starts
  | .stridedSlice starts _ _ => starts

def stops : Primitive → List Int
  | .slice _ stops => stops
  | .stridedSlice _ stops _ => stops

def strides? : Primitive → Option (List Int)
  | .slice .. => none
  | .stridedSlice _ _ strides => some strides

/-- The plain slice of a window given outermost first, its ends saturated. -/
def ofWindow (begins sizes : List Nat) : Primitive :=
  let native (n : Nat) : Int := min (n : Int) Int64Range.high
  let stops :=
    begins.zipWith (fun start size => native (min (start + size) (2 ^ (64 : Nat) - 1))) sizes
  .slice (begins.reverse.map native) stops.reverse

def ofStridedWindow (begins ends strides : List Int) : Primitive :=
  .stridedSlice begins.reverse ends.reverse strides.reverse

/-- A quotient of a number that is not negative by a positive one, rounded up. -/
def ceilDiv (count step : Int) : Int := count / step + if count % step = 0 then 0 else 1

def count (start stop stride : Int) : Int :=
  if 0 < stride then ceilDiv (max (Int64Range.saturate (stop - start)) 0) stride
  else ceilDiv (max (Int64Range.saturate (start - stop)) 0) (Int64Range.saturate (-stride))

def last? (start stride count : Int) : Option Int := do
  let offset ← Int64Range.check ((count - 1) * stride)
  Int64Range.check (start + offset)

def inBounds (extent coordinate : Int) : Bool := 0 ≤ coordinate && coordinate < extent

/-- The number of coordinates of the window on one dimension. The first and the last of them must
lie inside the tensor. -/
def dimensionCount (primitive : String) (dimension : Nat) (extent start stop stride : Int) :
    Except NativeFault Int :=
  if stride = 0 then .error (.zeroStride primitive)
  else
    let n := count start stop stride
    if 0 < n ∧ ¬(inBounds extent start ∧ (last? start stride n).any (inBounds extent)) then
      .error (.outsideWindow primitive start stop dimension extent)
    else .ok n

/-- The numbers of coordinates on all dimensions; `dimension` is the number of the heads. -/
def counts (primitive : String) : Nat → List Int → List Int → List Int → List Int →
    Except NativeFault (List Int)
  | dimension, extent :: extents, start :: starts, stop :: stops, stride :: strides => do
    let n ← dimensionCount primitive dimension extent start stop stride
    return n :: (← counts primitive (dimension + 1) extents starts stops strides)
  | _, _, _, _, _ => .ok []

def outputShape (p : Primitive) (extents : List Int) : Except NativeFault (List Int) :=
  let strides := p.strides?.getD (List.replicate extents.length 1)
  if p.starts.length ≠ extents.length ∨ p.stops.length ≠ extents.length
      ∨ strides.length ≠ extents.length then
    .error (.coordinateCount p.name extents.length)
  else counts p.name 0 extents p.starts p.stops strides

def extentAt (extents : List Int) (dimension : Nat) : Nat :=
  (extents[dimension]?.getD 1).toNat

end Primitive

end LayerNet
