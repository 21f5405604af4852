import LayerNet.Backend.Reason

/-!
The tensors that a kernel reads and writes, and the checks on element types that kernels share.
-/

set_option autoImplicit false
set_option relaxedAutoImplicit false

namespace LayerNet

/-- The descriptions of the tensors read and written. -/
structure Signature where
  inputs : List TensorInfo := []
  outputs : List TensorInfo := []
  deriving DecidableEq

/-- Accepts tensors of number types whose codecs can be resolved. -/
def numericTypes : List TensorInfo → Support
  | [] => .supported
  | info :: infos =>
    if info.elementType = .boolean then .unsupported .booleanElements
    else
      match Codec.ofInfo info with
      | .ok _ => numericTypes infos
      | .error error => .unsupported (.tensor error)

def isDenseType (type : ElementType) : Bool := type == .float32 || type == .qasymmU8

def denseTypes : List TensorInfo → Support
  | [] => .supported
  | info :: infos =>
    if isDenseType info.elementType then denseTypes infos
    else .unsupported (.denseType info.elementType)

end LayerNet
