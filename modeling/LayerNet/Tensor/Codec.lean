import LayerNet.Tensor.Bytes
import LayerNet.Tensor.Layout

/-!
Element codecs. Stored elements of any type are decoded to single precision numbers and encoded
from them; integers go through an affine map whose scale may follow an axis. A codec is resolved
from a tensor's description once and then reads and writes single elements.
-/

set_option autoImplicit false
set_option relaxedAutoImplicit false

-- Powers are those of the core library.
attribute [local instance (high)] instPowNat

namespace LayerNet

/-- How integers are stored: their bytes and whether they carry a sign. -/
structure IntegerFormat where
  size : Nat
  signed : Bool
  deriving DecidableEq, Repr

/-- The affine map between stored integers and numbers. -/
structure Scaling where
  scales : List Single
  offset : Int
  axisFactor : Nat
  deriving DecidableEq

/-- How the elements of a tensor are stored. -/
inductive Codec
  | float32
  | float16
  | bfloat16
  | boolean
  | integer (format : IntegerFormat) (scaling : Scaling)
  deriving DecidableEq

namespace IntegerFormat

def low (f : IntegerFormat) : Int := if f.signed then -(256 ^ f.size / 2 : Nat) else 0

def high (f : IntegerFormat) : Int :=
  if f.signed then (256 ^ f.size / 2 : Nat) - 1 else (256 ^ f.size : Nat) - 1

def ofWord (f : IntegerFormat) (word : Nat) : Int :=
  if f.signed then Int.bmod word (256 ^ f.size) else word

def toWord (f : IntegerFormat) (n : Int) : Nat := (n % (256 ^ f.size : Nat)).toNat

end IntegerFormat

namespace Scaling

/-- The scale of the element at a flat position. The position inside one run along the axis,
divided by the elements per step of the axis, is the coordinate on it. -/
def scaleAt (s : Scaling) (index : Nat) : Except Crash Single :=
  match s.scales with
  | [scale] => .ok scale
  | scales =>
    let perStep := s.axisFactor / scales.length
    if perStep = 0 then .error .divisionByZero
    else
      match scales[index % s.axisFactor / perStep]? with
      | some scale => .ok scale
      | none => .error .outOfRange

def dequantize (s : Scaling) (scale : Single) (stored : Int) : Single :=
  (Single.ofInt stored - Single.ofInt s.offset) * scale

/-- The stored integer nearest to a number under a scale, saturated to the format. What is not a
number is stored as the offset. -/
def quantize (s : Scaling) (format : IntegerFormat) (scale value : Single) : Int :=
  let quantized := (value / scale).round + Single.ofInt s.offset
  let target := if quantized.isNaN then Single.ofInt s.offset else quantized
  target.truncate format.low format.high

/-- The affine map of a tensor with integer elements. Several scales need as many steps on the
quantization axis. -/
def resolve (t : TensorInfo) (a : Arithmetic) : Except (Stop TensorError) Scaling :=
  if t.hasSeveralScales then do
    let (axisFactor, scales) ← t.perAxisParams a
    match t.axis with
    | some axis =>
      let extent ← orRefuse id (t.shape.dim axis)
      if extent ≠ scales.length then refuse (.scaleCount axis extent scales.length)
      else return ⟨scales, t.offset, axisFactor⟩
    | none => return ⟨scales, t.offset, axisFactor⟩
  else do
    let scale ← orCrash t.scale
    return ⟨[scale], t.offset, 1⟩

theorem safe_resolve {t : TensorInfo} {a : Arithmetic}
    (counted : ∀ axis, t.axis = some axis → ∃ n, a.product (t.dims.drop axis) = .ok n) :
    Safe (resolve t a) := by
  unfold resolve
  split
  · refine (TensorInfo.safe_perAxisParams counted).bind fun _ _ => ?_
    cases t.axis with
    | none => exact safe_ok _
    | some axis =>
      refine (safe_orRefuse id (t.shape.dim axis)).bind fun extent _ => ?_
      split
      · exact safe_refuse _
      · exact safe_ok _
  · rename_i few
    obtain ⟨scale, single⟩ := TensorInfo.exists_scale_of_not_hasSeveralScales few
    rw [single]
    exact safe_ok _

end Scaling

namespace Codec

def ofType {ε : Type} (type : ElementType) (scaling : Except ε Scaling) : Except ε Codec :=
  match type with
  | .float32 => .ok .float32
  | .float16 => .ok .float16
  | .bfloat16 => .ok .bfloat16
  | .boolean => .ok .boolean
  | .qasymmU8 => return .integer ⟨1, false⟩ (← scaling)
  | .qasymmS8 | .qsymmS8 => return .integer ⟨1, true⟩ (← scaling)
  | .qsymmS16 => return .integer ⟨2, true⟩ (← scaling)
  | .signed32 => return .integer ⟨4, true⟩ (← scaling)
  | .signed64 => return .integer ⟨8, true⟩ (← scaling)

def resolve (t : TensorInfo) (a : Arithmetic) : Except (Stop TensorError) Codec :=
  ofType t.elementType (Scaling.resolve t a)

theorem safe_ofType {ε : Type} {type : ElementType} {scaling : Except (Stop ε) Scaling}
    (safe : Safe scaling) : Safe (ofType type scaling) := by
  unfold ofType
  split
  all_goals first | exact safe_ok _ | exact safe.bind fun _ _ => safe_ok _

theorem safe_resolve {t : TensorInfo} {a : Arithmetic}
    (counted : ∀ axis, t.axis = some axis → ∃ n, a.product (t.dims.drop axis) = .ok n) :
    Safe (resolve t a) := safe_ofType (Scaling.safe_resolve counted)

def ofInfo (t : TensorInfo) : Except TensorError Codec :=
  settle (resolve t .unbounded) (safe_resolve fun _ _ => ⟨_, Arithmetic.product_unbounded _⟩)

def elementSize : Codec → Nat
  | .float32 => 4
  | .float16 | .bfloat16 => 2
  | .boolean => 1
  | .integer format _ => format.size

/-- The number that the stored word of the element at `index` stands for. -/
def decodeWord (c : Codec) (index word : Nat) : Except Crash Single :=
  match c with
  | .float32 => .ok (.ofWord word)
  | .float16 => .ok (.ofBinary16 word)
  | .bfloat16 => .ok (.ofBFloat16 word)
  | .boolean => .ok (if word = 0 then 0 else 1)
  | .integer format scaling => do
    let scale ← scaling.scaleAt index
    return scaling.dequantize scale (format.ofWord word)

def encodeWord (c : Codec) (index : Nat) (value : Single) : Except Crash Nat :=
  match c with
  | .float32 => .ok value.word
  | .float16 => .ok value.toBinary16
  | .bfloat16 => .ok value.toBFloat16
  | .boolean => .ok (if value.numEq 0 then 0 else 1)
  | .integer format scaling => do
    let scale ← scaling.scaleAt index
    return format.toWord (scaling.quantize format scale value)

def get (c : Codec) (data : Bytes) (index : Nat) : Except Crash Single :=
  match data.word? (index * c.elementSize) c.elementSize with
  | some word => c.decodeWord index word
  | none => .error .outOfRange

/-- The word to store for a number as the element at an index, if a buffer of the given size has
room for it. -/
def wordToStore (c : Codec) (size index : Nat) (value : Single) : Except Crash Nat := do
  let word ← c.encodeWord index value
  if index * c.elementSize + c.elementSize ≤ size then return word else .error .outOfRange

def store (c : Codec) (data : Bytes) (index word : Nat) : Bytes :=
  data.storeWord (index * c.elementSize) c.elementSize word

def set (c : Codec) (data : Bytes) (index : Nat) (value : Single) : Except Crash Bytes :=
  return c.store data index (← c.wordToStore data.size index value)

def decode (c : Codec) (data : Bytes) : Except Crash (Array Single) :=
  tabulate (data.size / c.elementSize) (c.get data)

def encodeFrom (c : Codec) : Nat → List Single → Bytes → Bytes × Option Crash
  | _, [], data => (data, none)
  | index, value :: values, data =>
    match c.wordToStore data.size index value with
    | .ok word => c.encodeFrom (index + 1) values (c.store data index word)
    | .error crash => (data, some crash)

def encode (c : Codec) (values : Array Single) (data : Bytes) : Bytes × Option Crash :=
  c.encodeFrom 0 values.toList data

end Codec

namespace TensorInfo

def checkSize (t : TensorInfo) (size : Nat) : Except TensorError Unit :=
  if size = t.numBytes then .ok () else .error (.dataSize t.numBytes size)

def checkLength (t : TensorInfo) (size : Nat) (a : Arithmetic) : Except (Stop TensorError) Unit := do
  let expected ← orCrash (t.countBytes a)
  if size = expected then return () else refuse (.dataSize expected size)

def decode (t : TensorInfo) (data : Bytes) (a : Arithmetic := .unbounded) :
    Except (Stop TensorError) (Array Single) := do
  t.checkLength data.size a
  let codec ← Codec.resolve t a
  orCrash (codec.decode data)

def writer (t : TensorInfo) (count size : Nat) (a : Arithmetic) :
    Except (Stop TensorError) Codec := do
  t.checkLength size a
  let expected ← orCrash (t.countElements a)
  if count = expected then Codec.resolve t a else refuse (.elementCount expected count)

/-- Writes values over a buffer of the right size: the buffer then, and what stops it if anything
does. -/
def encodeInto (t : TensorInfo) (values : Array Single) (data : Bytes)
    (a : Arithmetic := .unbounded) : Bytes × Option (Stop TensorError) :=
  match t.writer values.size data.size a with
  | .error stop => (data, some stop)
  | .ok codec => (codec.encode values data).map id (·.map .crashed)

def written {ε : Type} : Bytes × Option (Stop ε) → Except (Stop ε) Bytes
  | (data, none) => .ok data
  | (_, some stop) => .error stop

/-- A buffer of the right size with as many values written over it as the tensor has elements. -/
def encode (t : TensorInfo) (values : Array Single) (data : Bytes)
    (a : Arithmetic := .unbounded) : Except (Stop TensorError) Bytes :=
  written (t.encodeInto values data a)

def encodeNew (t : TensorInfo) (values : Array Single) (size : Nat) :
    Except (Stop TensorError) Bytes := do
  let codec ← t.writer values.size size .unbounded
  written ((codec.encode values (Bytes.zeros size)).map id (·.map .crashed))

end TensorInfo

end LayerNet
