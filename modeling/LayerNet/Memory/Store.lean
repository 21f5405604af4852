import LayerNet.Tensor.Codec

/-!
Tensor memory. Buffers live in a store and are named by number; a handle is a buffer's number with
the description under which its bytes are read and written. Handles that share a buffer see each
other's writes.
-/

set_option autoImplicit false
set_option relaxedAutoImplicit false

-- Bytes are compared as the core library does.
attribute [local instance (high)] ByteArray.instDecidableEq

namespace LayerNet

structure Store where
  buffers : Array Bytes := #[]
  deriving DecidableEq, Inhabited

structure Handle where
  buffer : Nat
  info : TensorInfo
  deriving DecidableEq

/-- The handles that a computation reads and writes. -/
structure BoundMemory where
  inputs : List Handle := []
  outputs : List Handle := []
  deriving DecidableEq

namespace Store

def bytes (s : Store) (h : Handle) : Bytes := (s.buffers[h.buffer]?).getD .empty

def setBytes (s : Store) (h : Handle) (data : Bytes) : Store :=
  { s with buffers := s.buffers.setIfInBounds h.buffer data }

def addBuffer (s : Store) (info : TensorInfo) (data : Bytes) : Handle × Store :=
  (⟨s.buffers.size, info⟩, { s with buffers := s.buffers.push data })

def allocate (s : Store) (info : TensorInfo) : Except Crash (Handle × Store) :=
  return s.addBuffer info (← Bytes.allocate info.numBytes)

def addBytes (s : Store) (info : TensorInfo) (data : Bytes) :
    Except TensorError (Handle × Store) := do
  info.checkSize data.size
  return s.addBuffer info data

def read (s : Store) (h : Handle) : Except (Stop TensorError) (Array Single) :=
  h.info.decode (s.bytes h)

def write (s : Store) (h : Handle) (values : Array Single) :
    Except (Stop TensorError) Store :=
  return s.setBytes h (← h.info.encode values (s.bytes h))

def addValues (s : Store) (info : TensorInfo) (values : Array Single) :
    Except (Stop TensorError) (Handle × Store) := do
  orCrash (Crash.reserve info.numBytes)
  return s.addBuffer info (← info.encodeNew values info.numBytes)

def resize (s : Store) (h : Handle) (size : Nat) : Except Crash Store :=
  return s.setBytes h (← (s.bytes h).resize size)

/-- New buffers of zeros, one for each description. -/
def allocateAll (s : Store) : List TensorInfo → Except Crash (List Handle × Store)
  | [] => .ok ([], s)
  | info :: infos => do
    let (h, s) ← s.allocate info
    let (hs, s) ← s.allocateAll infos
    return (h :: hs, s)

end Store

def Handle.sharesBuffer (a b : Handle) : Bool := a.buffer == b.buffer

end LayerNet
