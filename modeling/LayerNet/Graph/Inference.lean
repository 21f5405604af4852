import LayerNet.Graph.Order
import LayerNet.Graph.ShapeFault

/-!
Shape inference: what each kind of layer writes, given what it reads, and the walk over a graph
in topological order that resolves every output slot.
-/

set_option autoImplicit false
set_option relaxedAutoImplicit false

-- Powers and products are those of the core library.
attribute [local instance (high)] instPowNat One.ofOfNat1

namespace LayerNet

/-- The extent that two extents broadcast to: equal extents, or the one that is not a unit. -/
def broadcastDim? (lhs rhs : Nat) : Option Nat :=
  if lhs = rhs then some lhs
  else if lhs = 1 then some rhs
  else if rhs = 1 then some lhs
  else none

/-- The extents that two lists of extents broadcast to; `axis` is the place of their heads. -/
def broadcastDims : Nat → List Nat → List Nat → Except ShapeFault (List Nat)
  | axis, lhs :: a, rhs :: b =>
    match broadcastDim? lhs rhs with
    | some dim => return dim :: (← broadcastDims (axis + 1) a b)
    | none => .error (.notBroadcastable axis lhs rhs)
  | _, _, _ => .ok []

namespace Shape

/-- The known shape with the given extents, or the fault of a layer that would have it. -/
def inferred (dims : List Nat) : Except ShapeFault Shape := (ofDims dims).mapError .tensor

def broadcast (a b : Shape) : Except ShapeFault Shape := do
  if a.rank ≠ b.rank then .error (.ranksDiffer a b)
  else inferred (← broadcastDims 0 a.dims b.dims)

end Shape

/-- The description of a result that takes its type from an input: quantization along an axis is
kept only if the shape is kept too. -/
def TensorInfo.reshaped (input : TensorInfo) (shape : Shape) : Except ShapeFault TensorInfo :=
  if input.isPerAxis ∧ shape ≠ input.shape then .ok (.plain shape input.elementType)
  else (input.setShape shape).mapError .tensor

def elementwiseOutput (lhs rhs : TensorInfo) : Except ShapeFault TensorInfo := do
  if lhs.elementType ≠ rhs.elementType then
    .error (.typesDiffer lhs.elementType rhs.elementType)
  else lhs.reshaped (← lhs.shape.broadcast rhs.shape)

namespace AffineMap

/-- The numbers of features that weights of a given orientation read and write, if they are two,
positive, and matched by the bias. -/
def extents (transposed : Bool) (weights : Shape) (bias : Option Shape) :
    Except ShapeFault (Nat × Nat) := do
  let (inputs, outputs) ← match weights.dims with
    | [rows, columns] => .ok (if transposed then (columns, rows) else (rows, columns))
    | _ => .error (.weightsNotFlat weights)
  if inputs = 0 ∨ outputs = 0 then .error (.weightsEmpty weights)
  else
    match bias with
    | some bias =>
      if bias.dims = [outputs] then .ok (inputs, outputs)
      else .error (.biasMismatch bias outputs)
    | none => .ok (inputs, outputs)

def features (m : AffineMap) : Except ShapeFault (Nat × Nat) :=
  extents m.transposed m.weights.info.shape (m.bias.map (·.info.shape))

/-- What the map writes: a row of features for each entry of the first axis. -/
def output (m : AffineMap) (input : TensorInfo) : Except ShapeFault TensorInfo :=
  match input.dims with
  | batch :: next :: rest => do
    let size := (next :: rest).prod
    let (inputs, outputs) ← m.features
    if size ≠ inputs then .error (.inputSizeMismatch size inputs)
    else input.reshaped (← Shape.inferred [batch, outputs])
  | _ => .error (.inputTooFlat input.shape)

end AffineMap

def Pooling.output (p : Pooling) (input : TensorInfo) : Except ShapeFault TensorInfo := do
  match Quad.ofList? input.dims with
  | none => .error (.inputNotQuad input.shape)
  | some dims =>
    let height := p.layout.height dims
    let width := p.layout.width dims
    match p.rounding.pooledExtent height p.padTop p.padBottom p.poolHeight p.strideY,
        p.rounding.pooledExtent width p.padLeft p.padRight p.poolWidth p.strideX with
    | none, _ => .error (.poolHeightMisfit p.poolHeight p.strideY height)
    | some _, none => .error (.poolWidthMisfit p.poolWidth p.strideX width)
    | some rows, some columns =>
      input.reshaped (p.layout.shapeOf dims.first (p.layout.channels dims) rows columns)

def Normalization.hasPositiveEps (d : Normalization) : Bool := !(d.eps.isNaN || d.eps.numLe 0)

def Normalization.output (d : Normalization) (input : TensorInfo) :
    Except ShapeFault TensorInfo :=
  if 4 < input.rank then .error (.rankAboveFour input.shape)
  else if ¬d.hasPositiveEps then .error (.epsNotPositive d.eps)
  else input.reshaped input.shape

namespace Window

/-- Whether an interval of positive size ends inside an extent. An end beyond 64 bits does not. -/
def fits (start size extent : Nat) : Bool :=
  size ≠ 0 && start + size < 2 ^ (64 : Nat) && start + size ≤ extent

/-- Refuses the first axis on which the window leaves the tensor; `axis` is the place of the
heads. -/
def checkFrom : Nat → List Nat → List Nat → List Nat → Except ShapeFault Unit
  | axis, start :: begins, size :: sizes, extent :: dims =>
    if fits start size extent then checkFrom (axis + 1) begins sizes dims
    else .error (.windowOutside start size axis extent)
  | _, _, _, _ => .ok ()

def output (w : Window) (input : TensorInfo) : Except ShapeFault TensorInfo := do
  if w.begins.length ≠ input.rank ∨ w.sizes.length ≠ input.rank then
    .error (.windowRank w.begins.length w.sizes.length input.rank)
  else
    checkFrom 0 w.begins w.sizes input.dims
    input.reshaped (← Shape.inferred w.sizes)

end Window

/-- What a gather layer writes: for each index tuple the part of the parameters it addresses. -/
def gatherOutput (params indices : TensorInfo) : Except ShapeFault TensorInfo := do
  if indices.elementType ≠ .signed32 then .error (.indicesNotInteger indices.elementType)
  else
    let depth := indices.dims.getLastD 0
    if depth = 0 ∨ params.rank < depth then .error (.indexDepth depth params.rank)
    else
      let dims := indices.dims.dropLast ++ params.dims.drop depth
      params.reshaped (← Shape.inferred (if dims.isEmpty then [1] else dims))

namespace Layer

def inferOutputs (l : Layer) (inputs : List TensorInfo) :
    Except ShapeFault (List TensorInfo) := do
  match inputs.findIdx? fun info => !info.shape.isSpecified with
  | some slot => .error (.unresolvedInput slot)
  | none =>
    match l.kind, inputs with
    | .input _, _ =>
      match l.outputs with
      | slot :: _ =>
        if slot.declared && slot.info.shape.isSpecified then return [slot.info]
        else .error .undeclaredInput
      | [] => .error .undeclaredInput
    | .output _, _ => return []
    | .addition, [lhs, rhs] => return [← elementwiseOutput lhs rhs]
    | .multiplication, [lhs, rhs] => return [← elementwiseOutput lhs rhs]
    | .fullyConnected map, [input] => return [← map.output input]
    | .pooling2d pooling, [input] => return [← pooling.output input]
    | .l2Normalization normalization, [input] => return [← normalization.output input]
    | .slice window, [input] => return [← window.output input]
    | .gatherNd, [params, indices] => return [← gatherOutput params indices]
    | _, _ => .error (.unconnected inputs.length)

end Layer

namespace OutputSlot

/-- The slot after inference: an undeclared slot takes the inferred description, a declared one
keeps its own and takes the shape if it has none yet. -/
def resolve (s : OutputSlot) (inferred : TensorInfo) : Except ShapeFault OutputSlot :=
  if ¬s.declared then .ok { s with info := inferred }
  else if s.info.shape.isSpecified then
    if s.info.shape = inferred.shape then .ok s
    else .error (.declaredMismatch inferred.shape s.info.shape)
  else return { s with info := ← (s.info.setShape inferred.shape).mapError .tensor }

def resolveAll (slots : List OutputSlot) (inferred : List TensorInfo) :
    Except ShapeFault (List OutputSlot) :=
  (slots.zip inferred).mapM fun (slot, info) => slot.resolve info

end OutputSlot

namespace Graph

def inputInfos (g : Graph) (id : LayerId) : Except ValidationError (List TensorInfo) := do
  let l ← (g.layer id).mapError fun error => ⟨id.text, .graph error⟩
  (List.range l.numInputs).mapM fun slot =>
    match g.producer? ⟨id, slot⟩ with
    | none => .error ⟨l.name, .unconnected slot⟩
    | some producer => (g.outputInfo producer).mapError fun error => ⟨l.name, .graph error⟩

def inferLayer (g : Graph) (id : LayerId) : Except ValidationError Graph := do
  let inputs ← g.inputInfos id
  let l ← (g.layer id).mapError fun error => ⟨id.text, .graph error⟩
  let outputs ← (do
    OutputSlot.resolveAll l.outputs (← l.inferOutputs inputs)).mapError (⟨l.name, ·⟩)
  return g.setLayer id { l with outputs }

def inferLayers (g : Graph) : List LayerId → Graph × Except ValidationError Unit
  | [] => (g, .ok ())
  | id :: ids =>
    match g.inferLayer id with
    | .ok g => g.inferLayers ids
    | .error error => (g, .error error)

def orderError (g : Graph) : GraphError → ValidationError
  | .notAcyclic id => ⟨((g.layer? id).map (·.name)).getD id.text, .graph (.notAcyclic id)⟩
  | error => ⟨"graph", .graph error⟩

/-- The graph with every output slot resolved from the declared inputs; on an error, what was
resolved before it. -/
def inferShapes (g : Graph) : Graph × Except ValidationError Unit :=
  match g.topologicalOrder with
  | .ok order => g.inferLayers order
  | .error error => (g, .error (g.orderError error))

end Graph

end LayerNet
