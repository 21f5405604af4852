import LayerNet.Tensor.Crash

/-!
Row-major addressing. The strides of a list of extents turn a flat position into coordinates; the
last axis varies fastest.
-/

set_option autoImplicit false
set_option relaxedAutoImplicit false

namespace LayerNet.RowMajor

def fillStride (dims : List Nat) (a : Arithmetic) (strides : Array Nat) (axis : Nat) :
    Except Crash (Array Nat) := do
  let next ← Crash.at strides (axis + 1)
  let extent ← Crash.nth dims (axis + 1)
  Crash.set strides axis (← a.multiply next extent)

def fillStrides (dims : List Nat) (a : Arithmetic := .unbounded) : Except Crash (Array Nat) :=
  (List.range (dims.length - 1)).reverse.foldlM (fillStride dims a) (Array.replicate dims.length 1)

def split (dims : List Nat) (strides : Array Nat) (flat : Nat) : List Nat :=
  dims.zipWith (fun extent stride => flat / stride % extent) strides.toList

end LayerNet.RowMajor
