import LayerNet.Json.Decode
import LayerNet.Tensor.Info

/-!
Tensor descriptions as JSON. Members of an object are read in the order of their keys; a record
may also be written as an array of its fields, where fields with a default may be left out at
the end. The quantization facts are checked after the value has been read.
-/

set_option autoImplicit false
set_option relaxedAutoImplicit false

namespace LayerNet

namespace ElementType

def ofJson (j : Json) : Except DecodeError ElementType := j.decodeVariant name all

def describe (t : ElementType) : Json :=
  .object [("size", .nat t.size), ("quantized", .bool t.isQuantized), ("float", .bool t.isFloat),
    ("integer", .bool t.isInteger), ("name", .string t.name), ("display", .string t.name)]

end ElementType

namespace Shape

def ofJson (j : Json) : Except DecodeError Shape := do
  (ofList (← j.decodeList Json.decodeNat)).mapError .tensor

def toJson (s : Shape) : Json := .nats s.dims

def describe (s : Shape) : Json :=
  .object [("dims", s.toJson), ("rank", .nat s.rank), ("specified", .bool s.isSpecified),
    ("num_elements", .nat s.numElements), ("display", .string s.text),
    ("debug", .string s.debugText)]

end Shape

namespace Quantization

/-- The quantization parameters that a value describes. -/
def ofJson : Json → Except DecodeError Quantization
  | .object members => do
    let j := Json.object members
    let axis ← j.decodeMember "axis" (Json.decodeOption Json.decodeNat)
    let offset ← j.decodeMember "offset" (Json.decodeOption Json.decodeInt32)
    let scales ← j.decodeMember "scales" (Json.decodeList Json.decodeSingle)
    return { scales := scales.getD [], offset := offset.getD none, axis := axis.getD none }
  | .array items => do
    let scales ← (items[0]?).mapM (Json.decodeList Json.decodeSingle)
    let offset ← (items[1]?).mapM (Json.decodeOption Json.decodeInt32)
    let axis ← (items[2]?).mapM (Json.decodeOption Json.decodeNat)
    if 3 < items.length then .error .wrongLength
    else return { scales := scales.getD [], offset := offset.getD none, axis := axis.getD none }
  | _ => .error .wrongType

def toJson (q : Quantization) : Json :=
  .object [("scales", .array (q.scales.map .single)), ("offset", q.offset.elim .null .int),
    ("axis", q.axis.elim .null .nat)]

end Quantization

namespace TensorInfo

/-- The fields that a value describes, before the quantization facts are checked. -/
def fieldsOfJson : Json → Except DecodeError (Shape × ElementType × Quantization)
  | .object members => do
    let j := Json.object members
    let elementType ← j.decodeMember "data_type" ElementType.ofJson
    let quantization ← j.decodeMember "quantization" Quantization.ofJson
    let shape ← j.decodeMember "shape" Shape.ofJson
    let shape ← Json.require "shape" shape
    let elementType ← Json.require "data_type" elementType
    return (shape, elementType, quantization.getD {})
  | .array (shape :: rest) => do
    let shape ← Shape.ofJson shape
    match rest with
    | [] => .error .wrongLength
    | elementType :: rest => do
      let elementType ← ElementType.ofJson elementType
      match rest with
      | [] => return (shape, elementType, {})
      | quantization :: rest => do
        let quantization ← Quantization.ofJson quantization
        if rest.isEmpty then return (shape, elementType, quantization)
        else .error .wrongLength
  | .array [] => .error .wrongLength
  | _ => .error .wrongType

def ofJson (j : Json) : Except DecodeError TensorInfo := do
  let (shape, elementType, quantization) ← fieldsOfJson j
  (build shape elementType quantization).mapError .tensor

def toJson (t : TensorInfo) : Json :=
  .object [("shape", t.shape.toJson), ("data_type", .string t.elementType.name),
    ("quantization", t.quantization.toJson)]

end TensorInfo

end LayerNet
