import LayerNet.Tensor.Crash

/-!
What can be wrong with a tensor's description or with the data given for it.
-/

set_option autoImplicit false
set_option relaxedAutoImplicit false

namespace LayerNet

/-- Why a tensor's description or data is refused. -/
inductive TensorError
  | zeroRank
  | rankTooLarge (rank max : Nat)
  | missingSizes (expected found : Nat)
  | dimensionIndex (index rank : Nat)
  | axisOutside (axis : Int) (rank : Nat)
  | axisRange (first last rank : Nat)
  | emptyScales
  | missingAxis (count : Nat)
  | perAxisOnNonInteger (type : ElementType)
  | perAxisParamsMissing (type : ElementType)
  | dataSize (expected found : Nat)
  | elementCount (expected found : Nat)
  | scaleCount (axis expected found : Nat)
  deriving DecidableEq, Repr

namespace TensorError

def message : TensorError → String
  | .zeroRank => "tensor number of dimensions must be greater than 0"
  | .rankTooLarge rank max =>
    s!"tensor number of dimensions {rank} exceeds the maximum of {max}"
  | .missingSizes expected found =>
    s!"tensor dimension sizes missing: expected {expected}, got {found}"
  | .dimensionIndex index rank =>
    s!"invalid dimension index: {index} (number of dimensions is {rank})"
  | .axisOutside axis rank => s!"invalid axis {axis} for {rank}D tensor"
  | .axisRange first last rank => s!"invalid axis range [{first}, {last}) for {rank}D tensor"
  | .emptyScales => "quantization scales must not be empty"
  | .missingAxis count => s!"{count} quantization scales require a quantization axis"
  | .perAxisOnNonInteger type =>
    s!"per-axis quantization is not allowed for data type {type}"
  | .perAxisParamsMissing type =>
    s!"per-axis quantization params not set for tensor of type {type}"
  | .dataSize expected found =>
    s!"tensor data holds {found} bytes, descriptor requires {expected}"
  | .elementCount expected found => s!"expected {expected} elements, got {found}"
  | .scaleCount axis expected found =>
    s!"{found} quantization scales do not match dimension {axis} of extent {expected}"

def kind : TensorError → String
  | .zeroRank => "ZeroRank"
  | .rankTooLarge .. => "RankTooLarge"
  | .missingSizes .. => "MissingDimensionSizes"
  | .dimensionIndex .. => "DimensionIndex"
  | .axisOutside .. => "Axis"
  | .axisRange .. => "AxisRange"
  | .emptyScales => "EmptyScales"
  | .missingAxis .. => "MissingQuantizationAxis"
  | .perAxisOnNonInteger .. => "PerAxisOnNonInteger"
  | .perAxisParamsMissing .. => "PerAxisParamsMissing"
  | .dataSize .. => "DataSize"
  | .elementCount .. => "ElementCount"
  | .scaleCount .. => "ScaleCount"

end TensorError

end LayerNet
