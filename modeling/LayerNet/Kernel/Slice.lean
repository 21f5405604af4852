import LayerNet.Graph.Inference
import LayerNet.Kernel.Signature
import LayerNet.Native.InPlace
import LayerNet.Tensor.RowMajor

/-!
Slicing. The reference kernel addresses elements through row-major strides; the dense backend
hands the window to the native primitive.
-/

set_option autoImplicit false
set_option relaxedAutoImplicit false

-- Powers and products are those of the core library.
attribute [local instance (high)] instPowNat One.ofOfNat1

namespace LayerNet.Window

/-- The position in a tensor with the given strides of the element at the given coordinates of the
window. -/
def sourceIndex : List Nat → List Nat → List Nat → Except Crash Nat
  | _, [], _ => .ok 0
  | start :: begins, coord :: coords, stride :: strides => do
    let rest ← sourceIndex begins coords strides
    return (start + coord) * stride + rest
  | _, _, _ => .error .outOfRange

def compute {α : Type} (w : Window) (dims : List Nat) (input : Array α) :
    Except Crash (Array α) := do
  let inStrides ← RowMajor.fillStrides dims
  let outStrides ← RowMajor.fillStrides w.sizes
  Crash.reserve w.sizes.prod
  tabulate w.sizes.prod fun flat => do
    let coords := RowMajor.split w.sizes outStrides flat
    Crash.at input (← sourceIndex w.begins coords inStrides.toList)

def primitive (w : Window) : Primitive := .ofWindow w.begins w.sizes

def nativeCompute (w : Window) (source : NativeTensor) (output : TensorInfo) :
    Except (Stop NativeFault) (Array Single) := do
  let target ← orCrash (NativeTensor.allocate output)
  match ← orCrash (w.primitive.run source target) with
  | (result, none) => return result.data
  | (_, some fault) => refuse fault

/-- Whether the window ends inside the extents on every axis; `positive` asks for positive sizes
too. -/
def fitsAll (positive : Bool) : List Nat → List Nat → List Nat → Bool
  | start :: begins, size :: sizes, extent :: dims =>
    (!positive || size ≠ 0) && start + size < 2 ^ (64 : Nat) && start + size ≤ extent
      && fitsAll positive begins sizes dims
  | _, _, _ => true

/-- The reference backend's verdict. -/
def support (w : Window) (input output : TensorInfo) : Support :=
  if w.begins.length ≠ input.rank ∨ w.sizes.length ≠ input.rank then .malformed .windowRank
  else if ¬fitsAll true w.begins w.sizes input.dims then
    .malformed (.windowOutside w input.shape)
  else if output.dims ≠ w.sizes then .malformed .windowOutput
  else (numericTypes [input]).andThen (numericTypes [output])

def codecTypes : List TensorInfo → Support
  | [] => .supported
  | info :: infos =>
    match Codec.ofInfo info with
    | .ok _ => codecTypes infos
    | .error error => .unsupported (.tensor error)

/-- The dense backend's verdict. -/
def nativeSupport (w : Window) (input output : TensorInfo) : Support :=
  if w.begins.length ≠ input.rank ∨ w.sizes.length ≠ input.rank then .malformed .windowRank
  else if ¬fitsAll false w.begins w.sizes input.dims then
    .malformed (.windowOutside w input.shape)
  else
    match w.primitive.outputShape (NativeTensor.describe input) with
    | .error fault => .malformed (.native fault)
    | .ok extents =>
      if extents ≠ NativeTensor.describe output then .malformed .windowOutput
      else codecTypes [input, output]

end LayerNet.Window
