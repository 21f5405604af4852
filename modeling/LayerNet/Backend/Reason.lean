import LayerNet.Graph.ShapeFault
import LayerNet.Json.Basic
import LayerNet.Native.Primitive

/-!
Verdicts of backends on layers, with the reasons of a refusal, and the errors of creating and
running workloads.
-/

set_option autoImplicit false
set_option relaxedAutoImplicit false

namespace LayerNet

/-- Whether a tensor is read or written. -/
inductive Direction
  | input
  | output
  deriving DecidableEq, Repr

def Direction.name : Direction → String
  | .input => "input"
  | .output => "output"

instance : ToString Direction := ⟨Direction.name⟩

/-- Why a layer or its memory is refused. -/
inductive Reason
  | arity (operator : Operator) (inputs outputs : Nat)
  | unspecifiedShape (direction : Direction) (slot : Nat)
  | noKernel (backend : String) (operator : Operator)
  | noKernelRegistered
  | mixedTypes (lhs rhs output : ElementType)
  | broadcastMismatch (inferred output : Shape)
  | booleanElements
  | windowRank
  | windowOutside (window : Window) (input : Shape)
  | windowOutput
  | paramsTypeDiffers
  | notFlattened (input : Shape) (features : Nat)
  | affineOutput (batch features : Nat) (output : Shape)
  | poolingRank
  | poolingExtents
  | elementTypesDiffer
  | shapesDiffer
  | broadcasting
  | operandTypes (lhs rhs : ElementType)
  | denseType (type : ElementType)
  | floatOnly
  | alwaysMalformed
  | boundaryLayer
  | handleCount (direction : Direction) (expected found : Nat)
  | boundTensor (direction : Direction) (slot : Nat) (bound expected : ElementType × Shape)
  | boundBytes (direction : Direction) (slot found expected : Nat)
  | pinned (layer : String)
  | noBackends
  | rejected (rejections : List (String × Reason))
  | native (fault : NativeFault)
  | shape (fault : ShapeFault)
  | tensor (error : TensorError)

namespace Reason

mutual

def message : Reason → String
  | .arity operator inputs outputs =>
    s!"{operator} takes {operator.numInputs} inputs and {operator.numOutputs} outputs, "
      ++ s!"got {inputs} and {outputs}"
  | .unspecifiedShape direction slot => s!"{direction} {slot} has an unspecified shape"
  | .noKernel backend operator => s!"backend '{backend}' has no kernel for {operator}"
  | .noKernelRegistered => "no kernel registered"
  | .mixedTypes lhs rhs output => s!"mixed element types {lhs}, {rhs} -> {output}"
  | .broadcastMismatch inferred output => s!"inputs broadcast to {inferred}, output is {output}"
  | .booleanElements => "boolean tensors are not supported"
  | .windowRank => "begin and size need one entry per input dimension"
  | .windowOutside window input =>
    "slice " ++ Shape.listText window.begins ++ "+" ++ Shape.listText window.sizes
      ++ s!" is out of range for {input}"
  | .windowOutput => "output shape must equal the slice size"
  | .paramsTypeDiffers => "params and output element types differ"
  | .notFlattened input features => s!"input {input} does not flatten to {features} features"
  | .affineOutput batch features output =>
    s!"output must be [{batch}, {features}], got {output}"
  | .poolingRank => "pooling tensors must be 4D"
  | .poolingExtents => "pool extents and strides must be positive"
  | .elementTypesDiffer => "input and output element types differ"
  | .shapesDiffer => "input and output shapes differ"
  | .broadcasting => "broadcasting runs on the reference backend"
  | .operandTypes lhs rhs => s!"inputs have different element types: {lhs} and {rhs}"
  | .denseType type => s!"faer kernels run Float32 and QAsymmU8 only, got {type}"
  | .floatOnly => "float only"
  | .alwaysMalformed => "always malformed"
  | .boundaryLayer => "boundary layers have no workload"
  | .handleCount direction expected found =>
    s!"expected {expected} {direction} handles, got {found}"
  | .boundTensor direction slot bound expected =>
    s!"{direction} {slot} is bound to a {bound.1} {bound.2} tensor, "
      ++ s!"expected {expected.1} {expected.2}"
  | .boundBytes direction slot found expected =>
    s!"{direction} {slot} holds {found} bytes, expected {expected}"
  | .pinned layer => s!"layer '{layer}' is pinned to a backend that is not loaded"
  | .noBackends => "no backends available"
  | .rejected rejections => "; ".intercalate (rejectionTexts rejections)
  | .native fault => fault.message
  | .shape fault => fault.message
  | .tensor error => error.message

def rejectionTexts : List (String × Reason) → List String
  | [] => []
  | (backend, reason) :: rejections =>
    (backend ++ ": " ++ reason.message) :: rejectionTexts rejections

end

end Reason

/-- A backend's verdict on a layer. -/
inductive Support
  | supported
  | unsupported (reason : Reason)
  | malformed (reason : Reason)

namespace Support

def isSupported : Support → Bool
  | .supported => true
  | _ => false

def reason? : Support → Option Reason
  | .supported => none
  | .unsupported reason | .malformed reason => some reason

def name : Support → String
  | .supported => "Supported"
  | .unsupported _ => "Unsupported"
  | .malformed _ => "Malformed"

def toJson (s : Support) : Json :=
  .object [("support", .string s.name),
    ("reason", s.reason?.elim .null fun reason => .string reason.message)]

def andThen (first second : Support) : Support :=
  match first with
  | .supported => second
  | refusal => refusal

end Support

/-- Why a workload cannot go on. -/
inductive ExecutionFault
  | notConfigured (layer : String)
  | inputRows (elements batch features : Nat)
  | operandSizes (lhs rhs : Nat)
  | outputCount (produced bound : Nat)
  | outputSize (produced expected : Nat)
  | gatherIndex (index : Int) (axis extent : Nat)
  | native (fault : NativeFault)
  | shape (fault : ShapeFault)
  deriving DecidableEq

def ExecutionFault.message : ExecutionFault → String
  | .notConfigured layer => s!"workload '{layer}' executed before configure"
  | .inputRows elements batch features =>
    s!"input of {elements} elements is not {batch} rows of {features}"
  | .operandSizes lhs rhs => s!"elementwise operands hold {lhs} and {rhs} elements"
  | .outputCount produced bound => s!"kernel produced {produced} outputs, {bound} are bound"
  | .outputSize produced expected =>
    s!"kernel produced {produced} elements for an output of {expected}"
  | .gatherIndex index axis extent =>
    s!"gather index {index} is out of range for axis {axis} of extent {extent}"
  | .native fault => fault.message
  | .shape fault => fault.message

inductive BackendError
  | unsupported (backend : String) (operator : Operator) (reason : Reason)
  | malformed (layer : String) (reason : Reason)
  | notValidated (layer backend : String)
  | execution (fault : ExecutionFault)
  | tensor (error : TensorError)

namespace BackendError

def message : BackendError → String
  | .unsupported backend operator reason =>
    s!"backend '{backend}' does not support {operator}: " ++ reason.message
  | .malformed layer reason => s!"malformed workload for '{layer}': " ++ reason.message
  | .notValidated layer backend =>
    s!"workload request for '{layer}' was not validated by backend '{backend}'"
  | .execution fault => "backend execution failure: " ++ fault.message
  | .tensor error => error.message

def kind : BackendError → String
  | .unsupported .. => "Unsupported"
  | .malformed .. => "Malformed"
  | .notValidated .. => "NotValidated"
  | .execution .. => "Execution"
  | .tensor error => "InvalidArgument." ++ error.kind

/-- Whether another backend may still take the layer. -/
def isRecoverable : BackendError → Bool
  | .unsupported .. => true
  | _ => false

end BackendError

end LayerNet
