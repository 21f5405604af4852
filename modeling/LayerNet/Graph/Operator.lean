/-!
The operators that a layer may compute.
-/

set_option autoImplicit false
set_option relaxedAutoImplicit false

namespace LayerNet

/-- What a layer does. Inputs and outputs are the boundary of a network; all others compute. -/
inductive Operator
  | input
  | output
  | addition
  | multiplication
  | fullyConnected
  | pooling2d
  | l2Normalization
  | slice
  | gatherNd
  deriving DecidableEq, Repr, Inhabited

namespace Operator

def all : List Operator :=
  [.input, .output, .addition, .multiplication, .fullyConnected, .pooling2d, .l2Normalization,
    .slice, .gatherNd]

def position (op : Operator) : Nat := all.idxOf op

def name : Operator → String
  | .input => "Input"
  | .output => "Output"
  | .addition => "Addition"
  | .multiplication => "Multiplication"
  | .fullyConnected => "FullyConnected"
  | .pooling2d => "Pooling2d"
  | .l2Normalization => "L2Normalization"
  | .slice => "Slice"
  | .gatherNd => "GatherNd"

instance : ToString Operator := ⟨name⟩

/-- Whether the operator only marks where data enters or leaves. -/
def isBoundary : Operator → Bool
  | .input | .output => true
  | _ => false

def numInputs : Operator → Nat
  | .input => 0
  | .output | .fullyConnected | .pooling2d | .l2Normalization | .slice => 1
  | .addition | .multiplication | .gatherNd => 2

def numOutputs : Operator → Nat
  | .output => 0
  | _ => 1

end Operator

end LayerNet
