import LayerNet.Kernel.Elementwise
import LayerNet.Kernel.Matrix
import LayerNet.Kernel.Normalization
import LayerNet.Kernel.Pooling
import LayerNet.Kernel.Slice

/-!
Kernels: computations from input values to output values, without memory. A kernel takes its
extents from the signature and its values from the vectors given.
-/

set_option autoImplicit false
set_option relaxedAutoImplicit false

namespace LayerNet

/-- A computation on vectors of values. -/
inductive Kernel
  | elementwise (op : BinaryOp)
  | fullyConnected (weights : AffineWeights Single)
  | pooling2d (pooling : Pooling)
  | l2Normalization (normalization : Normalization)
  | slice (window : Window)
  | denseElementwise (op : BinaryOp)
  | denseFullyConnected (weights : AffineWeights Single)
  | nativeSlice (window : Window)
  | fixed (values : List (Array Single))

namespace Kernel

def batchOf (info : TensorInfo) : Except Crash Nat := Crash.nth info.dims 0

/-- The output vectors for the input vectors under a signature. -/
def compute [LinearAlgebra] (k : Kernel) (signature : Signature) (values : List (Array Single)) :
    Except (Stop BackendError) (List (Array Single)) := do
  match k with
  | .fixed values => return values
  | .elementwise op =>
    let output ← orCrash (Crash.nth signature.outputs 0)
    let lhsInfo ← orCrash (Crash.nth signature.inputs 0)
    let rhsInfo ← orCrash (Crash.nth signature.inputs 1)
    let lhs ← orCrash (Crash.nth values 0)
    let rhs ← orCrash (Crash.nth values 1)
    return [← orCrash (Elementwise.compute op.apply lhsInfo rhsInfo output lhs rhs)]
  | .denseElementwise op =>
    let lhs ← orCrash (Crash.nth values 0)
    let rhs ← orCrash (Crash.nth values 1)
    return [← (Elementwise.denseCompute op.apply lhs rhs).mapError (·.map .execution)]
  | .fullyConnected weights =>
    let input ← orCrash (Crash.nth values 0)
    let batch ← orCrash (Crash.nth signature.inputs 0 >>= batchOf)
    return [← (weights.compute input batch).mapError (·.map .execution)]
  | .denseFullyConnected weights =>
    let input ← orCrash (Crash.nth values 0)
    let batch ← orCrash (Crash.nth signature.inputs 0 >>= batchOf)
    return [← (weights.denseCompute LinearAlgebra.multiply input batch).mapError (·.map .execution)]
  | .pooling2d pooling =>
    let inShape ← orCrash (Crash.nth signature.inputs 0 >>= Pooling.quadOf)
    let output ← orCrash (Crash.nth signature.outputs 0)
    let outShape ← orCrash (Pooling.quadOf output)
    let input ← orCrash (Crash.nth values 0)
    return [← orCrash (pooling.compute inShape outShape output.numElements input)]
  | .l2Normalization normalization =>
    let info ← orCrash (Crash.nth signature.inputs 0)
    let input ← orCrash (Crash.nth values 0)
    return [← orCrash (normalization.compute info.dims input)]
  | .slice window =>
    let info ← orCrash (Crash.nth signature.inputs 0)
    let input ← orCrash (Crash.nth values 0)
    return [← orCrash (window.compute info.dims input)]
  | .nativeSlice window =>
    let info ← orCrash (Crash.nth signature.inputs 0)
    let input ← orCrash (Crash.nth values 0)
    let source ← orRefuse .tensor (NativeTensor.ofValues info input)
    let output ← orCrash (Crash.nth signature.outputs 0)
    return [← (window.nativeCompute source output).mapError
      (·.map fun fault => .execution (.native fault))]

end Kernel

end LayerNet
