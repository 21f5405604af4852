import LayerNet.Graph.Inference
import LayerNet.Kernel.Signature
import LayerNet.Tensor.RowMajor

/-!
Sums and products of two tensors. The reference kernel broadcasts unit extents; the dense kernel
takes operands of one shape only.
-/

set_option autoImplicit false
set_option relaxedAutoImplicit false

namespace LayerNet

/-- An operation on two numbers. -/
inductive BinaryOp
  | add
  | mul
  deriving DecidableEq, Repr

def BinaryOp.apply {α : Type} [Add α] [Mul α] : BinaryOp → α → α → α
  | .add, a, b => a + b
  | .mul, a, b => a * b

namespace Elementwise

/-- The position in an operand of the element that takes part at the given coordinates of the
result: along a unit axis it is always the first. An operand of lower rank has no such element. -/
def operandIndex : List Nat → List Nat → List Nat → Except Crash Nat
  | _, _, [] => .ok 0
  | dim :: dims, stride :: strides, coord :: coords => do
    let rest ← operandIndex dims strides coords
    return (if dim = 1 then 0 else coord * stride) + rest
  | _, _, _ :: _ => .error .outOfRange

def broadcast {α : Type} (op : α → α → α) (lhsDims rhsDims outDims : List Nat) (count : Nat)
    (lhs rhs : Array α) : Except Crash (Array α) := do
  let outStrides ← RowMajor.fillStrides outDims
  let lhsStrides ← RowMajor.fillStrides lhsDims
  let rhsStrides ← RowMajor.fillStrides rhsDims
  Crash.reserve count
  tabulate count fun flat => do
    let coords := RowMajor.split outDims outStrides flat
    let a ← Crash.at lhs (← operandIndex lhsDims lhsStrides.toList coords)
    let b ← Crash.at rhs (← operandIndex rhsDims rhsStrides.toList coords)
    return op a b

/-- The values of the result; operands that have the shape of the result are paired directly. -/
def compute {α : Type} (op : α → α → α) (lhsInfo rhsInfo outInfo : TensorInfo)
    (lhs rhs : Array α) : Except Crash (Array α) :=
  if lhsInfo.dims = outInfo.dims ∧ rhsInfo.dims = outInfo.dims then
    .ok (lhs.zipWith op rhs)
  else
    broadcast op lhsInfo.dims rhsInfo.dims outInfo.dims outInfo.numElements lhs rhs

/-- The values of the result of equally many operands, pairwise. -/
def denseCompute {α : Type} (op : α → α → α) (lhs rhs : Array α) :
    Except (Stop ExecutionFault) (Array α) :=
  if lhs.size ≠ rhs.size then refuse (.operandSizes lhs.size rhs.size)
  else .ok (lhs.zipWith op rhs)

/-- The reference backend's verdict: one element type, and the broadcast shape as output. -/
def support (lhs rhs output : TensorInfo) : Support :=
  if lhs.elementType ≠ rhs.elementType ∨ lhs.elementType ≠ output.elementType then
    .unsupported (.mixedTypes lhs.elementType rhs.elementType output.elementType)
  else
    match lhs.shape.broadcast rhs.shape with
    | .error fault => .malformed (.shape fault)
    | .ok shape =>
      if shape = output.shape then (numericTypes [lhs, rhs]).andThen (numericTypes [output])
      else .malformed (.broadcastMismatch shape output.shape)

def denseSupport (lhs rhs output : TensorInfo) : Support :=
  if lhs.shape ≠ output.shape ∨ rhs.shape ≠ output.shape then .unsupported .broadcasting
  else if rhs.elementType ≠ lhs.elementType then
    .malformed (.operandTypes lhs.elementType rhs.elementType)
  else (denseTypes [lhs, rhs]).andThen (denseTypes [output])

end Elementwise

end LayerNet
