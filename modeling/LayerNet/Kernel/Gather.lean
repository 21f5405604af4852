import LayerNet.Graph.Inference
import LayerNet.Kernel.Signature
import LayerNet.Tensor.RowMajor

/-!
Gathering parts of a tensor that index tuples address. Each tuple names coordinates on the leading
axes, and the elements at them on all further axes follow each other in the result.
-/

set_option autoImplicit false
set_option relaxedAutoImplicit false

-- Products are those of the core library.
attribute [local instance (high)] One.ofOfNat1

namespace LayerNet.Gather

/-- The integer part of an index, saturated to 64 bits. -/
def indexOf (raw : Single) : Int := raw.truncate Int64Range.low Int64Range.high

/-- The position that an index tuple addresses in a tensor with the given extents and strides;
`axis` is the place of the heads. -/
def offset : Nat → List Nat → List Nat → List Single → Except (Stop ExecutionFault) Nat
  | _, _, _, [] => .ok 0
  | axis, extent :: dims, stride :: strides, raw :: tuple =>
    let index := indexOf raw
    if index < 0 ∨ (extent : Int) ≤ index then refuse (.gatherIndex index axis extent)
    else return index.toNat * stride + (← offset (axis + 1) dims strides tuple)
  | _, _, _, _ :: _ => .error (.crashed .outOfRange)

def chunk {α : Type} (params : Array α) (start size : Nat) : Except Crash (Array α) :=
  if start + size ≤ params.size then .ok (params.extract start (start + size))
  else .error .outOfRange

def tuples (depth : Nat) (indices : List Single) : List (List Single) :=
  if _h : depth = 0 ∨ indices = [] then []
  else indices.take depth :: tuples depth (indices.drop depth)
termination_by indices.length
decreasing_by
  obtain ⟨positive, nonempty⟩ := not_or.mp _h
  have := List.length_pos_iff.mpr nonempty
  simp only [List.length_drop]
  omega

def compute (paramDims indexDims : List Nat) (params indices : Array Single) :
    Except (Stop ExecutionFault) (Array Single) := do
  let depth := indexDims.getLastD 0
  if depth = 0 then .error (.crashed .divisionByZero)
  else if paramDims.length < depth then .error (.crashed .outOfRange)
  else
    let strides ← orCrash (RowMajor.fillStrides paramDims)
    let size := (paramDims.drop depth).prod
    orCrash (Crash.reserve (indices.size / depth * size))
    let parts ← (tuples depth indices.toList).mapM fun tuple => do
      let start ← offset 0 paramDims strides.toList tuple
      orCrash (chunk params start size)
    return parts.foldl (· ++ ·) #[]

/-- The reference backend's verdict. -/
def support (params indices output : TensorInfo) : Support :=
  let depth := indices.dims.getLastD 0
  if indices.elementType ≠ .signed32 then
    .unsupported (.shape (.indicesNotInteger indices.elementType))
  else if depth = 0 ∨ params.rank < depth then
    .malformed (.shape (.indexDepth depth params.rank))
  else if params.elementType ≠ output.elementType then .unsupported .paramsTypeDiffers
  else (numericTypes [params]).andThen (numericTypes [output])

end LayerNet.Gather
