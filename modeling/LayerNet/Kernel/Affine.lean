import LayerNet.Graph.Inference
import LayerNet.Kernel.Signature

/-!
Fully connected layers: rows of features through a matrix of weights and a bias. The reference
kernel starts each sum at the bias and adds the products in order.
-/

set_option autoImplicit false
set_option relaxedAutoImplicit false

-- Products are those of the core library.
attribute [local instance (high)] One.ofOfNat1

namespace LayerNet

/-- Weights and bias as numbers. Transposed weights hold one row per output. -/
structure AffineWeights (α : Type) where
  weights : Array α
  bias : Option (Array α)
  inputs : Nat
  outputs : Nat
  transposed : Bool
  deriving DecidableEq

namespace AffineWeights

variable {α : Type}

/-- The weight between a feature read and a feature written. -/
def weight (w : AffineWeights α) (input output : Nat) : Except Crash α :=
  if w.transposed then Crash.at w.weights (output * w.inputs + input)
  else Crash.at w.weights (input * w.outputs + output)

def biasAt [Zero α] (w : AffineWeights α) (output : Nat) : Except Crash α :=
  match w.bias with
  | some bias => Crash.at bias output
  | none => .ok 0

/-- A start plus the products of a row's features with the weights of one output, in order. -/
def accumulate [Add α] [Mul α] (w : AffineWeights α) (input : Array α) (row output : Nat)
    (start : α) : Except Crash α :=
  foldRange (fun acc i => do
    let value ← Crash.at input (row * w.inputs + i)
    let weight ← w.weight i output
    return acc + value * weight) w.inputs 0 start

def checkRows (w : AffineWeights α) (size batch : Nat) : Except (Stop ExecutionFault) Unit :=
  if size ≠ batch * w.inputs then refuse (.inputRows size batch w.inputs) else .ok ()

/-- The rows of features written, each sum started at its bias. -/
def compute [Zero α] [Add α] [Mul α] (w : AffineWeights α) (input : Array α) (batch : Nat) :
    Except (Stop ExecutionFault) (Array α) := do
  w.checkRows input.size batch
  orCrash (Crash.reserve (batch * w.outputs))
  orCrash (tabulate (batch * w.outputs) fun k => do
    let start ← w.biasAt (k % w.outputs)
    w.accumulate input (k / w.outputs) (k % w.outputs) start)

end AffineWeights

namespace AffineMap

def decode (m : AffineMap) : Except (Stop BackendError) (AffineWeights Single) := do
  let (inputs, outputs) ← orRefuse (fun fault => .execution (.shape fault)) m.features
  let weights ← m.weights.values.mapError (·.map .tensor)
  let bias ← m.bias.mapM fun bias => bias.values.mapError (·.map .tensor)
  return { weights, bias, inputs, outputs, transposed := m.transposed }

/-- The verdict on the shapes of a fully connected layer, and on its types as given. -/
def supportWith (types : List TensorInfo → Support) (m : AffineMap) (input output : TensorInfo) :
    Support :=
  match m.features with
  | .error fault => .malformed (.shape fault)
  | .ok (inputs, outputs) =>
    match input.dims with
    | batch :: next :: rest =>
      if (next :: rest).prod ≠ inputs then .malformed (.notFlattened input.shape inputs)
      else if output.dims ≠ [batch, outputs] then
        .malformed (.affineOutput batch outputs output.shape)
      else
        (types [input]).andThen ((types [output]).andThen
          (types (m.weights.info :: (m.bias.map (·.info)).toList)))
    | _ => .malformed (.notFlattened input.shape inputs)

def support : AffineMap → TensorInfo → TensorInfo → Support := supportWith numericTypes

def denseSupport : AffineMap → TensorInfo → TensorInfo → Support := supportWith denseTypes

end AffineMap

end LayerNet
