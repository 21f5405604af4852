import LayerNet.Native.Primitive

/-!
Running a window operation into an output that exists. The output is written in place, plane by
plane or element by element, with the bounds of all that is read and written checked on the way; a
refused operation leaves it as it was.
-/

set_option autoImplicit false
set_option relaxedAutoImplicit false

-- Powers are those of the core library.
attribute [local instance (high)] instPowNat

namespace LayerNet

/-- A signed 64-bit number read as an unsigned one. -/
def Int64Range.unsigned (n : Int) : Nat := (n % 2 ^ (64 : Nat)).toNat

namespace Primitive

/-- The position of the element at a flat position of the window, on the dimensions of the output
that are given. -/
def address (flat : Int) : List Int → List Int → List Int → List Int → List Int → Except Crash Int
  | _, _, _, [], _ => .ok 0
  | start :: starts, stride :: strides, distance :: distances, extent :: extents,
      inner :: inners => do
    if inner = 0 ∨ extent = 0 then .error .divisionByZero
    else
      let rest ← address flat starts strides distances extents inners
      return (start + flat / inner % extent * stride) * distance + rest
  | _, _, _, _, _ => .error .outOfRange

/-- A rectangle in the columns of a plane: its first row and column, its numbers of rows and
columns, and the number of rows of the plane. -/
structure Rectangle where
  row : Nat
  column : Nat
  rows : Nat
  columns : Nat
  height : Nat

def Rectangle.place (r : Rectangle) (entry : Nat) : Nat :=
  (r.column + entry / r.rows) * r.height + (r.row + entry % r.rows)

/-- Copies a rectangle of the plane of the input that starts at `source` to `target` and the places
after it. The plane, the rectangle in it and the places must exist. -/
def copyPlane (input : NativeTensor) (r : Rectangle) (source target : Nat) (data : Array Single) :
    Except Crash (Array Single) :=
  let width := extentAt input.extents 1
  if source + r.height * width ≤ input.data.size ∧ r.row + r.rows ≤ r.height ∧
      r.column + r.columns ≤ width ∧ target + r.rows * r.columns ≤ data.size then
    foldRange (fun data entry => do
      let value ← Crash.at input.data (source + r.place entry)
      Crash.set data (target + entry) value) (r.rows * r.columns) 0 data
  else .error .outOfRange

/-- The rectangle of a unit window in the planes of the two innermost dimensions. -/
def rectangle (starts inputExtents extents : List Int) : Rectangle where
  row := Int64Range.unsigned (starts[0]?.getD 0)
  column := Int64Range.unsigned (starts[1]?.getD 0)
  rows := extentAt extents 0
  columns := extentAt extents 1
  height := extentAt inputExtents 0

/-- Copies a unit window into the output, plane by plane. -/
def runPlanes (starts : List Int) (input output : NativeTensor) : Except Crash (Array Single) :=
  if output.data.isEmpty then .ok output.data
  else do
    let r := rectangle starts input.extents output.extents
    let inStrides ← input.strides
    let outStrides ← output.strides
    let plane := r.rows * r.columns
    if plane = 0 then .error .divisionByZero
    else
      foldRange (fun data k => do
        let source ← address (k * plane : Nat) (starts.drop 2)
          (List.replicate (starts.length - 2) 1) (inStrides.drop 2) (output.extents.drop 2)
          (outStrides.drop 2)
        copyPlane input r (Int64Range.unsigned source) (k * plane) data)
        ((output.data.size + plane - 1) / plane) 0 output.data

def runElements (starts strides : List Int) (input output : NativeTensor) :
    Except Crash (Array Single) := do
  let inStrides ← input.strides
  let outStrides ← output.strides
  foldRange (fun data flat => do
    let source ← address flat starts strides inStrides output.extents outStrides
    let value ← Crash.at input.data (Int64Range.unsigned source)
    Crash.set data flat value) output.data.size 0 output.data

def write (p : Primitive) (input output : NativeTensor) : Except Crash (Array Single) :=
  match p with
  | .slice starts _ => runPlanes starts input output
  | .stridedSlice starts _ strides => runElements starts strides input output

def run (p : Primitive) (input output : NativeTensor) :
    Except Crash (NativeTensor × Option NativeFault) :=
  match p.outputShape input.extents with
  | .error fault => .ok (output, some fault)
  | .ok window =>
    if window ≠ output.extents then
      .ok (output, some (.shapeMismatch p.name output.extents window))
    else return ({ output with data := ← p.write input output }, none)

end Primitive

end LayerNet
