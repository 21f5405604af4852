import LayerNet.Backend.Host
import LayerNet.Graph.Inference
import LayerNet.Kernel.Signature

/-!
Requests for workloads, the stamp that a backend's acceptance leaves on them, and the check that
bound memory has what a signature asks for.
-/

set_option autoImplicit false
set_option relaxedAutoImplicit false

namespace LayerNet

/-- What a backend is asked to compute. The stamp names the backend that last accepted it. -/
structure Request where
  layer : String
  kind : LayerKind
  signature : Signature
  stamp : Option String := none
  deriving DecidableEq

namespace Request

def operator (r : Request) : Operator := r.kind.operator

def ofGraph (g : Graph) (id : LayerId) : Except ValidationError Request := do
  let inputs ← g.inputInfos id
  let l ← (g.layer id).mapError fun error => ⟨id.text, .graph error⟩
  return { layer := l.name, kind := l.kind, signature := { inputs, outputs := l.outputInfos } }

end Request

namespace BoundMemory

def allocate {ε : Type} (signature : Signature) : Action ε BoundMemory := do
  let inputs ← Action.allocateAll signature.inputs
  let outputs ← Action.allocateAll signature.outputs
  return { inputs, outputs }

/-- Refuses the first handle whose shape, type or byte length is not the one asked for; `slot` is
the number of the heads. -/
def checkSlots (store : Store) (direction : Direction) :
    Nat → List TensorInfo → List Handle → Except Reason Unit
  | slot, info :: infos, h :: handles =>
    if h.info.shape ≠ info.shape ∨ h.info.elementType ≠ info.elementType then
      .error (.boundTensor direction slot (h.info.elementType, h.info.shape)
        (info.elementType, info.shape))
    else if (store.bytes h).size ≠ info.numBytes then
      .error (.boundBytes direction slot (store.bytes h).size info.numBytes)
    else checkSlots store direction (slot + 1) infos handles
  | _, _, _ => .ok ()

def checkHandles (store : Store) (direction : Direction) (infos : List TensorInfo)
    (handles : List Handle) : Except Reason Unit :=
  if infos.length ≠ handles.length then
    .error (.handleCount direction infos.length handles.length)
  else checkSlots store direction 0 infos handles

def check (store : Store) (signature : Signature) (memory : BoundMemory) :
    Except Reason Unit := do
  checkHandles store .input signature.inputs memory.inputs
  checkHandles store .output signature.outputs memory.outputs

end BoundMemory

end LayerNet
