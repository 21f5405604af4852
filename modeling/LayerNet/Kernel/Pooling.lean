import LayerNet.Graph.Inference
import LayerNet.Kernel.Signature

/-!
Pooling over windows of rows and columns. A window may reach into the padding around the input;
only real positions take part in the fold, and the padding method says which positions count in
the divisor of an average.
-/

set_option autoImplicit false
set_option relaxedAutoImplicit false

namespace LayerNet

/-- A half-open interval of positions on one axis; positions of the leading pad are negative. -/
structure Interval where
  start : Int
  stop : Int
  deriving DecidableEq, Repr

namespace Interval

def length (i : Interval) : Int := i.stop - i.start

def clip (i : Interval) (extent : Int) : Interval := ⟨max i.start 0, min i.stop extent⟩

/-- Folds a step over the positions in ascending order; the interval must not begin below zero. -/
def foldM {ε β : Type} (i : Interval) (step : β → Nat → Except ε β) : β → Except ε β :=
  foldRange step i.length.toNat i.start.toNat

def area (rows columns : Interval) (a : Arithmetic) : Except Crash Int := do
  let height ← a.signed rows.length
  let width ← a.signed columns.length
  a.signed (height * width)

end Interval

structure PoolingAxis where
  input : Nat
  padLow : Nat
  padHigh : Nat
  pool : Nat
  stride : Nat
  deriving DecidableEq, Repr

/-- The window of an output position inside the padded input. -/
def PoolingAxis.window (axis : PoolingAxis) (position : Nat) (a : Arithmetic) :
    Except Crash Interval := do
  let signed := TensorInfo.signedWord
  let start ← a.signed (signed (← a.multiply position axis.stride) - signed axis.padLow)
  let stop ← a.signed (start + signed axis.pool)
  let last ← a.signed (signed axis.input + signed axis.padHigh)
  return ⟨start, min stop last⟩

namespace PoolingMethod

def start : PoolingMethod → Single
  | .max => .negInfinity
  | .average | .l2 => 0

def step : PoolingMethod → Single → Single → Single
  | .max, acc, value => acc.max value
  | .average, acc, value => acc + value
  | .l2, acc, value => acc + value * value

def finish : PoolingMethod → Int → Single → Single
  | .max, _, acc => acc
  | .average, divisor, acc => acc / .ofInt divisor
  | .l2, divisor, acc => (acc / .ofInt divisor).sqrt

end PoolingMethod

namespace Pooling

def rowAxis (p : Pooling) (input : Quad) : PoolingAxis :=
  ⟨p.layout.height input, p.padTop, p.padBottom, p.poolHeight, p.strideY⟩

def columnAxis (p : Pooling) (input : Quad) : PoolingAxis :=
  ⟨p.layout.width input, p.padLeft, p.padRight, p.poolWidth, p.strideX⟩

def divisorOf (p : Pooling) (area : Int) (realRows realColumns : Interval) (a : Arithmetic) :
    Except Crash Int :=
  match p.padding with
  | .exclude => realRows.area realColumns a
  | .ignoreValue => .ok area

/-- The value of a window of one channel; zero if the window holds no real position. -/
def windowValue (p : Pooling) (shape : Quad) (input : Array Single) (n c : Nat)
    (rows columns : Interval) (a : Arithmetic) : Except Crash Single := do
  let area ← rows.area columns a
  let realRows := rows.clip (TensorInfo.signedWord (p.layout.height shape))
  let realColumns := columns.clip (TensorInfo.signedWord (p.layout.width shape))
  if realRows.stop ≤ realRows.start ∨ realColumns.stop ≤ realColumns.start then return 0
  else
    let divisor ← p.divisorOf area realRows realColumns a
    let acc ← realRows.foldM (fun acc h =>
      realColumns.foldM (fun acc w => do
        let value ← Crash.at input (p.layout.index shape n c h w)
        return p.method.step acc value) acc) p.method.start
    return p.method.finish divisor acc

def valueAt (p : Pooling) (shape : Quad) (input : Array Single) (place : Quad) (a : Arithmetic) :
    Except Crash Single := do
  let rows ← (p.rowAxis shape).window place.third a
  let columns ← (p.columnAxis shape).window place.fourth a
  p.windowValue shape input place.first place.second rows columns a

/-- The places that pooling writes: batches and channels are those of the input, rows and columns
those of the output. -/
def places (p : Pooling) (inShape outShape : Quad) : Quad :=
  ⟨inShape.first, p.layout.channels inShape, p.layout.height outShape, p.layout.width outShape⟩

def pooledAt (p : Pooling) (inShape outShape : Quad) (count : Nat) (input : Array Single)
    (place : Quad) (a : Arithmetic) : Except Crash (Nat × Single) := do
  let value ← p.valueAt inShape input place a
  let index := p.layout.index outShape place.first place.second place.third place.fourth
  if index < count then return (index, value) else .error .outOfRange

/-- The pooled values; a position that no place has stays zero. Windows are placed in the words of a
machine, where an overflow is dropped unless it is to crash. -/
def compute (p : Pooling) (inShape outShape : Quad) (count : Nat) (input : Array Single)
    (a : Arithmetic := .wrapped) : Except Crash (Array Single) := do
  Crash.reserve count
  let places := p.places inShape outShape
  let values ← tabulate places.count fun k =>
    p.pooledAt inShape outShape count input (places.coords k) a
  return values.foldl (fun output (index, value) => output.setIfInBounds index value)
    (Array.replicate count 0)

/-- The four extents of a tensor; a tensor of lower rank has none, and more are not looked at. -/
def quadOf (info : TensorInfo) : Except Crash Quad :=
  match info.dims with
  | a :: b :: c :: d :: _ => .ok ⟨a, b, c, d⟩
  | _ => .error .outOfRange

/-- The reference backend's verdict. -/
def support (p : Pooling) (input output : TensorInfo) : Support :=
  if input.rank ≠ 4 ∨ output.rank ≠ 4 then .malformed .poolingRank
  else if p.strideX = 0 ∨ p.strideY = 0 ∨ p.poolWidth = 0 ∨ p.poolHeight = 0 then
    .malformed .poolingExtents
  else if input.elementType ≠ output.elementType then .unsupported .elementTypesDiffer
  else (numericTypes [input]).andThen (numericTypes [output])

end Pooling

end LayerNet
