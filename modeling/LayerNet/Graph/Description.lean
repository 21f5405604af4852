import LayerNet.Graph.Visitor
import LayerNet.Tensor.Description

/-!
A graph as JSON: its layers in topological order, each with its parameters and what is known of
the tensors it writes, and its connections.
-/

set_option autoImplicit false
set_option relaxedAutoImplicit false

namespace LayerNet

namespace Operator

def describe (op : Operator) : Json :=
  .object [("name", .string op.name), ("display", .string op.name),
    ("boundary", .bool op.isBoundary), ("inputs", .nat op.numInputs),
    ("outputs", .nat op.numOutputs), ("position", .nat op.position)]

end Operator

namespace Pooling

def toJson (p : Pooling) : Json :=
  .object [("pool_type", .string p.method.name), ("pad_left", .nat p.padLeft),
    ("pad_right", .nat p.padRight), ("pad_top", .nat p.padTop), ("pad_bottom", .nat p.padBottom),
    ("pool_width", .nat p.poolWidth), ("pool_height", .nat p.poolHeight),
    ("stride_x", .nat p.strideX), ("stride_y", .nat p.strideY),
    ("output_shape_rounding", .string p.rounding.name),
    ("padding_method", .string p.padding.name), ("data_layout", .string p.layout.name)]

/-- The parameters in an object; one that is missing takes its default, and so does a number that
is null. -/
def ofJson (j : Json) : Except DecodeError Pooling := do
  let p : Pooling := {}
  let number (key : String) (other : Nat) : Except DecodeError Nat :=
    return ((← j.decodeMember key (Json.decodeOption Json.decodeNat)).getD none).getD other
  let variant {α : Type} (key : String) (name : α → String) (all : List α) (other : α) :
      Except DecodeError α :=
    return (← j.decodeMember key (Json.decodeVariant name all)).getD other
  let method ← variant "pool_type" PoolingMethod.name PoolingMethod.all p.method
  let padLeft ← number "pad_left" p.padLeft
  let padRight ← number "pad_right" p.padRight
  let padTop ← number "pad_top" p.padTop
  let padBottom ← number "pad_bottom" p.padBottom
  let poolWidth ← number "pool_width" p.poolWidth
  let poolHeight ← number "pool_height" p.poolHeight
  let strideX ← number "stride_x" p.strideX
  let strideY ← number "stride_y" p.strideY
  let rounding ← variant "output_shape_rounding" ExtentRounding.name ExtentRounding.all p.rounding
  let padding ← variant "padding_method" PaddingMethod.name PaddingMethod.all p.padding
  let layout ← variant "data_layout" DataLayout.name DataLayout.all p.layout
  return {
    method, padLeft, padRight, padTop, padBottom, poolWidth, poolHeight, strideX, strideY,
    rounding, padding, layout }

end Pooling

namespace Normalization

def toJson (d : Normalization) : Json :=
  .object [("eps", .single d.eps), ("data_layout", .string d.layout.name)]

end Normalization

namespace Window

def toJson (w : Window) : Json := .object [("begin", .nats w.begins), ("size", .nats w.sizes)]

end Window

namespace Constant

def summary (c : Constant) : Json :=
  .object [("shape", c.info.shape.toJson), ("data_type", .string c.info.elementType.name)]

end Constant

namespace AffineMap

def toJson (m : AffineMap) : Json :=
  .object [("transpose_weight_matrix", .bool m.transposed), ("weights", m.weights.summary),
    ("bias", m.bias.elim .null Constant.summary)]

end AffineMap

namespace Layer

def describe (l : Layer) (params : Option Json) : Json :=
  .object ([("name", .string l.name), ("guid", .nat l.guid), ("kind", .string l.operator.name),
      ("outputs", .array (l.outputInfos.map TensorInfo.toJson))]
    ++ (params.map ("params", ·)).toList
    ++ (l.backendHint.map fun hint => ("backend_hint", Json.string hint)).toList)

end Layer

/-- Appends the description of every visited layer. -/
def describer : Visitor (List Json) where
  input l binding s := s ++ [l.describe (some (.object [("binding", .int binding)]))]
  output l binding s := s ++ [l.describe (some (.object [("binding", .int binding)]))]
  addition l s := s ++ [l.describe none]
  multiplication l s := s ++ [l.describe none]
  fullyConnected l map s := s ++ [l.describe (some map.toJson)]
  pooling2d l pooling s := s ++ [l.describe (some pooling.toJson)]
  l2Normalization l normalization s := s ++ [l.describe (some normalization.toJson)]
  slice l window s := s ++ [l.describe (some window.toJson)]
  gatherNd l s := s ++ [l.describe none]

namespace Edge

def toJson (e : Edge) : Json :=
  .object [("from", .string e.source.text), ("to", .string e.target.text)]

end Edge

namespace Graph

def describe (g : Graph) : Except GraphError Json := do
  let layers ← describer.visit g []
  return .object [("layers", .array layers), ("connections", .array (g.edges.map Edge.toJson))]

end Graph

end LayerNet
