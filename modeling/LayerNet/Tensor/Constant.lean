import LayerNet.Tensor.Codec

/-!
Constant tensors: a description together with bytes of the size it asks for.
-/

set_option autoImplicit false
set_option relaxedAutoImplicit false

-- Bytes are compared as the core library does.
attribute [local instance (high)] ByteArray.instDecidableEq

namespace LayerNet

structure Constant where
  info : TensorInfo
  data : Bytes
  deriving DecidableEq

namespace Constant

def ofBytes (info : TensorInfo) (data : Bytes) : Except TensorError Constant := do
  info.checkSize data.size
  return ⟨info, data⟩

def ofValues (info : TensorInfo) (values : Array Single) :
    Except (Stop TensorError) Constant := do
  return ⟨info, ← info.encodeNew values info.numBytes⟩

def values (c : Constant) : Except (Stop TensorError) (Array Single) := c.info.decode c.data

end Constant

end LayerNet
