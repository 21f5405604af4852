import LayerNet.Number.Single
import LayerNet.Tensor.Change
import LayerNet.Tensor.Shape

/-!
Tensor descriptions: a shape, an element type and affine quantization parameters. The setters
change a description in place and keep three facts: several scales need an axis, an axis needs an
integer type, and an axis lies inside a known shape.
-/

set_option autoImplicit false
set_option relaxedAutoImplicit false

-- Powers are those of the core library.
attribute [local instance (high)] instPowNat

namespace LayerNet

/-- Affine quantization: the scales, and optionally an offset and the axis that scales follow. -/
structure Quantization where
  scales : List Single := []
  offset : Option Int := none
  axis : Option Nat := none
  deriving DecidableEq

structure TensorInfo where
  shape : Shape := .unspecified
  elementType : ElementType := .float32
  quantization : Quantization := {}
  deriving DecidableEq, Inhabited

namespace Quantization

/-- Whether scales are as many and equal as numbers. -/
def sameScales (a b : Quantization) : Bool :=
  a.scales.length == b.scales.length
    && (a.scales.zip b.scales).all fun (x, y) => x.numEq y

def numEq (a b : Quantization) : Bool :=
  a.sameScales b && a.offset == b.offset && a.axis == b.axis

end Quantization

namespace TensorInfo

def plain (shape : Shape) (elementType : ElementType) : TensorInfo := { shape, elementType }

def ofDims (dims : List Nat) (elementType : ElementType) : Except TensorError TensorInfo :=
  return plain (← Shape.ofDims dims) elementType

def quantized (shape : Shape) (elementType : ElementType) (scale : Single) (offset : Int) :
    TensorInfo :=
  { shape, elementType, quantization := { scales := [scale], offset := some offset } }

def rank (t : TensorInfo) : Nat := t.shape.rank

def dims (t : TensorInfo) : List Nat := t.shape.dims

def numElements (t : TensorInfo) : Nat := t.shape.numElements

def numBytes (t : TensorInfo) : Nat := t.elementType.size * t.numElements

def countElements (t : TensorInfo) (a : Arithmetic) : Except Crash Nat := t.shape.countElements a

def countBytes (t : TensorInfo) (a : Arithmetic) : Except Crash Nat := do
  a.multiply t.elementType.size (← t.countElements a)

def scales (t : TensorInfo) : List Single := t.quantization.scales

def axis (t : TensorInfo) : Option Nat := t.quantization.axis

def offset (t : TensorInfo) : Int := t.quantization.offset.getD 0

def hasSeveralScales (t : TensorInfo) : Bool := 1 < t.scales.length

def isPerAxis (t : TensorInfo) : Bool := t.hasSeveralScales || t.axis.isSome

/-- Whether elements stand for real numbers through a scale and an offset. -/
def isQuantized (t : TensorInfo) : Bool := t.elementType.isQuantized

/-- The single scale, one if none is set, nothing if there are several. -/
def scale? (t : TensorInfo) : Option Single :=
  match t.scales with
  | [] => some 1
  | [scale] => some scale
  | _ => none

def scale (t : TensorInfo) : Except Crash Single :=
  match t.scale? with
  | some scale => .ok scale
  | none => .error (.severalScales t.elementType t.scales.length)

theorem exists_scale_of_not_hasSeveralScales {t : TensorInfo} (few : ¬t.hasSeveralScales) :
    ∃ scale, t.scale = .ok scale := by
  unfold scale scale?
  rcases scales : t.scales with _ | ⟨one, _ | ⟨two, rest⟩⟩
  · exact ⟨1, rfl⟩
  · exact ⟨one, rfl⟩
  · simp [hasSeveralScales, scales] at few

/-- An unsigned 64-bit number read as a signed one. -/
def signedWord (n : Nat) : Int := Int.bmod n (2 ^ (64 : Nat))

def checkAxis (axis : Nat) (shape : Shape) : Except TensorError Unit :=
  if shape.isSpecified ∧ shape.rank ≤ axis then .error (.axisOutside (signedWord axis) shape.rank)
  else .ok ()

def setScale (t : TensorInfo) (scale : Single) : TensorInfo :=
  { t with quantization := { t.quantization with scales := [scale] } }

def setOffset (t : TensorInfo) (offset : Int) : TensorInfo :=
  { t with quantization := { t.quantization with offset := some offset } }

end TensorInfo

abbrev TensorEdit := Change TensorError TensorInfo Unit

namespace TensorEdit

open Change (attempt refuseIf)

def assign (f : Quantization → Quantization) : TensorEdit :=
  modify fun t => { t with quantization := f t.quantization }

/-- Sets the shape, which must still hold the quantization axis. -/
def setShape (shape : Shape) : TensorEdit := do
  match (← get).axis with
  | some axis => attempt (TensorInfo.checkAxis axis shape)
  | none => pure ()
  modify fun t => { t with shape }

def setElementType (elementType : ElementType) : TensorEdit := do
  refuseIf ((← get).axis.isSome && !elementType.isInteger) (.perAxisOnNonInteger elementType)
  modify fun t => { t with elementType }

def setScales (scales : List Single) : TensorEdit := do
  refuseIf scales.isEmpty .emptyScales
  refuseIf (1 < scales.length && (← get).axis.isNone) (.missingAxis scales.length)
  assign fun q => { q with scales }

def setScale (scale : Single) : TensorEdit := modify (·.setScale scale)

def setOffset (offset : Int) : TensorEdit := modify (·.setOffset offset)

def setAxis (axis : Option Nat) : TensorEdit := do
  let t ← get
  match axis with
  | some axis =>
    refuseIf (!t.elementType.isInteger) (.perAxisOnNonInteger t.elementType)
    attempt (TensorInfo.checkAxis axis t.shape)
  | none => refuseIf t.hasSeveralScales (.missingAxis t.scales.length)
  assign fun q => { q with axis }

/-- Sets scales along an axis. They are assigned before the axis, so that between the two several
scales may have none. -/
def setPerAxis (scales : List Single) (axis : Nat) : TensorEdit := do
  refuseIf scales.isEmpty .emptyScales
  let t ← get
  refuseIf (!t.elementType.isInteger) (.perAxisOnNonInteger t.elementType)
  attempt (TensorInfo.checkAxis axis t.shape)
  assign fun q => { q with scales }
  assign fun q => { q with axis := some axis }

end TensorEdit

namespace TensorInfo

def setShape (t : TensorInfo) (shape : Shape) : Except TensorError TensorInfo :=
  (TensorEdit.setShape shape).result t

def setElementType (t : TensorInfo) (elementType : ElementType) :
    Except TensorError TensorInfo := (TensorEdit.setElementType elementType).result t

def setScales (t : TensorInfo) (scales : List Single) : Except TensorError TensorInfo :=
  (TensorEdit.setScales scales).result t

def setAxis (t : TensorInfo) (axis : Option Nat) : Except TensorError TensorInfo :=
  (TensorEdit.setAxis axis).result t

def setPerAxis (t : TensorInfo) (scales : List Single) (axis : Nat) :
    Except TensorError TensorInfo := (TensorEdit.setPerAxis scales axis).result t

def perAxis (shape : Shape) (elementType : ElementType) (scales : List Single) (axis : Nat) :
    Except TensorError TensorInfo :=
  (plain shape elementType).setPerAxis scales axis

/-- The description that quantization parameters complete, checked in the order axis and scales,
scales alone, offset. -/
def build (shape : Shape) (elementType : ElementType) (q : Quantization) :
    Except TensorError TensorInfo := do
  let t := plain shape elementType
  let t ← match q.axis with
    | some axis => t.setPerAxis q.scales axis
    | none => if q.scales.isEmpty then pure t else t.setScales q.scales
  return match q.offset with
    | some offset => t.setOffset offset
    | none => t

def numEq (a b : TensorInfo) : Bool :=
  a.shape == b.shape && a.elementType == b.elementType && a.quantization.numEq b.quantization

/-- Compares how elements stand for numbers: the types are equal and, for a quantized type, so are
the scales and offsets, per axis if either side is. -/
def compareTypeSpace (a b : TensorInfo) : Except Crash Bool :=
  if a.elementType ≠ b.elementType then return false
  else if ¬a.isQuantized then return true
  else if a.isPerAxis || b.isPerAxis then
    return a.quantization.sameScales b.quantization && a.axis == b.axis && a.offset == b.offset
  else do
    let x ← a.scale
    let y ← b.scale
    return x.numEq y && a.offset == b.offset

theorem exists_scale_of_not_isPerAxis {t : TensorInfo} (single : ¬t.isPerAxis) :
    ∃ scale, t.scale = .ok scale :=
  exists_scale_of_not_hasSeveralScales fun several => single (Bool.or_eq_true_iff.mpr (.inl several))

/-- Several scales are never asked for the single one. -/
theorem compareTypeSpace_ne_error (a b : TensorInfo) (crash : Crash) :
    compareTypeSpace a b ≠ .error crash := by
  unfold compareTypeSpace
  split
  · exact nofun
  · split
    · exact nofun
    · split
      · exact nofun
      · rename_i single
        obtain ⟨first, second⟩ := not_or.mp fun some => single (Bool.or_eq_true_iff.mpr some)
        obtain ⟨x, found⟩ := exists_scale_of_not_isPerAxis first
        obtain ⟨y, found'⟩ := exists_scale_of_not_isPerAxis second
        rw [found, found']
        exact nofun

/-- Whether equal elements stand for equal numbers. -/
def isTypeSpaceMatch (a b : TensorInfo) : Bool :=
  answered (compareTypeSpace a b) (compareTypeSpace_ne_error a b)

end TensorInfo

end LayerNet
