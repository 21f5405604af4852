import LayerNet.Graph.Basic
import LayerNet.Number.ShortestDecimal

/-!
Why the tensors of a layer do not fit together, and the wording of each cause.
-/

set_option autoImplicit false
set_option relaxedAutoImplicit false

namespace LayerNet

/-- Why the tensors of a layer do not fit together. -/
inductive ShapeFault
  | unresolvedInput (slot : Nat)
  | undeclaredInput
  | declaredMismatch (inferred declared : Shape)
  | ranksDiffer (a b : Shape)
  | notBroadcastable (axis lhs rhs : Nat)
  | typesDiffer (a b : ElementType)
  | weightsNotFlat (weights : Shape)
  | weightsEmpty (weights : Shape)
  | biasMismatch (bias : Shape) (outputs : Nat)
  | inputTooFlat (input : Shape)
  | inputSizeMismatch (size expected : Nat)
  | inputNotQuad (input : Shape)
  | poolHeightMisfit (pool stride height : Nat)
  | poolWidthMisfit (pool stride width : Nat)
  | rankAboveFour (input : Shape)
  | epsNotPositive (eps : Single)
  | windowRank (begins sizes rank : Nat)
  | windowOutside (start size axis extent : Nat)
  | indicesNotInteger (type : ElementType)
  | indexDepth (depth rank : Nat)
  | unconnected (slot : Nat)
  | tensor (error : TensorError)
  | graph (error : GraphError)
  deriving DecidableEq

/-- A layer whose tensors do not fit together. -/
structure ValidationError where
  layer : String
  fault : ShapeFault
  deriving DecidableEq

def ShapeFault.message : ShapeFault → String
  | .unresolvedInput slot => s!"input slot {slot} has no resolved shape"
  | .undeclaredInput => "input layer requires a declared tensor info"
  | .declaredMismatch inferred declared =>
    s!"inferred output shape {inferred} does not match declared shape {declared}"
  | .ranksDiffer a b => s!"inputs must have the same number of dimensions, got {a} and {b}"
  | .notBroadcastable axis lhs rhs => s!"dimension {axis} is not broadcastable: {lhs} vs {rhs}"
  | .typesDiffer a b => s!"input data types differ: {a} vs {b}"
  | .weightsNotFlat weights => s!"weights must be 2D, got {weights}"
  | .weightsEmpty weights => s!"weights {weights} must have non-zero extents"
  | .biasMismatch bias outputs => s!"bias shape {bias} does not match output size {outputs}"
  | .inputTooFlat input => s!"input must have at least 2 dimensions, got {input}"
  | .inputSizeMismatch size expected =>
    s!"input size {size} does not match weight input size {expected}"
  | .inputNotQuad input => s!"input must be 4D, got {input}"
  | .poolHeightMisfit pool stride height =>
    s!"pool height {pool} with stride {stride} does not fit padded input height {height}"
  | .poolWidthMisfit pool stride width =>
    s!"pool width {pool} with stride {stride} does not fit padded input width {width}"
  | .rankAboveFour input => s!"input must have at most 4 dimensions, got {input}"
  | .epsNotPositive eps => s!"eps must be positive, got {eps.text}"
  | .windowRank begins sizes rank =>
    s!"begin ({begins}) and size ({sizes}) must both have one entry per input dimension ({rank})"
  | .windowOutside start size axis extent =>
    s!"slice [{start}, {start}+{size}) leaves dimension {axis} of extent {extent}"
  | .indicesNotInteger type => s!"indices must be Signed32, got {type}"
  | .indexDepth depth rank => s!"index depth {depth} must be between 1 and the params rank {rank}"
  | .unconnected slot => s!"input slot {slot} must be connected"
  | .tensor error => error.message
  | .graph error => error.message

def ValidationError.message (e : ValidationError) : String :=
  s!"layer '{e.layer}': " ++ e.fault.message

end LayerNet
