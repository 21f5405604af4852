import LayerNet.Tensor.Info

/-!
Data layouts of four-dimensional tensors, and questions about the axes of a shape.
-/

set_option autoImplicit false
set_option relaxedAutoImplicit false

namespace LayerNet

/-- The order in which batches, channels, rows and columns follow each other. -/
inductive DataLayout
  | nchw
  | nhwc
  deriving DecidableEq, Repr, Inhabited

/-- Four extents, or four coordinates. -/
structure Quad where
  first : Nat
  second : Nat
  third : Nat
  fourth : Nat
  deriving DecidableEq, Repr

namespace Quad

def toList (q : Quad) : List Nat := [q.first, q.second, q.third, q.fourth]

def count (q : Quad) : Nat := q.first * q.second * q.third * q.fourth

/-- The coordinates of a position below the product; the last entry varies fastest. -/
def coords (q : Quad) (position : Nat) : Quad :=
  ⟨position / (q.second * q.third * q.fourth), position / (q.third * q.fourth) % q.second,
    position / q.fourth % q.third, position % q.fourth⟩

def ofList? : List Nat → Option Quad
  | [a, b, c, d] => some ⟨a, b, c, d⟩
  | _ => none

end Quad

namespace DataLayout

def name : DataLayout → String
  | .nchw => "Nchw"
  | .nhwc => "Nhwc"

def all : List DataLayout := [.nchw, .nhwc]

def channelsAxis : DataLayout → Nat
  | .nchw => 1
  | .nhwc => 3

def heightAxis : DataLayout → Nat
  | .nchw => 2
  | .nhwc => 1

def widthAxis : DataLayout → Nat
  | .nchw => 3
  | .nhwc => 2

def channels : DataLayout → Quad → Nat
  | .nchw, q => q.second
  | .nhwc, q => q.fourth

def height : DataLayout → Quad → Nat
  | .nchw, q => q.third
  | .nhwc, q => q.second

def width : DataLayout → Quad → Nat
  | .nchw, q => q.fourth
  | .nhwc, q => q.third

/-- Batch, channel, row and column in the order of this layout. -/
def arrange : DataLayout → Nat → Nat → Nat → Nat → Quad
  | .nchw, n, c, h, w => ⟨n, c, h, w⟩
  | .nhwc, n, c, h, w => ⟨n, h, w, c⟩

def index (layout : DataLayout) (shape : Quad) (n c h w : Nat) : Nat :=
  let place := layout.arrange n c h w
  ((place.first * shape.second + place.second) * shape.third + place.third) * shape.fourth
    + place.fourth

def shapeOf (layout : DataLayout) (batches channels height width : Nat) : Shape :=
  ⟨(layout.arrange batches channels height width).toList, by simp [Quad.toList]⟩

end DataLayout

namespace Shape

/-- The shape with a unit extent inserted at an axis, which counts from the end if negative. -/
def expandDims (s : Shape) (axis : Int) : Except TensorError Shape :=
  let rank : Int := s.rank
  if axis < -(rank + 1) ∨ rank < axis then .error (.axisOutside axis s.rank)
  else
    let position := (if axis < 0 then rank + 1 + axis else axis).toNat
    ofDims (s.dims.insertIdx position 1)

def elementsBetween (s : Shape) (first last : Nat) (a : Arithmetic := .unbounded) :
    Except (Stop TensorError) Nat :=
  if last < first ∨ s.rank < last then refuse (.axisRange first last s.rank)
  else orCrash (a.product ((s.dims.drop first).take (last - first)))

theorem elementsBetween_rank {s : Shape} {axis : Nat} (inside : axis ≤ s.rank) (a : Arithmetic) :
    s.elementsBetween axis s.rank a = orCrash (a.product (s.dims.drop axis)) := by
  have ordered : ¬(s.rank < axis ∨ s.rank < s.rank) := by omega
  have whole : (s.dims.drop axis).take (s.rank - axis) = s.dims.drop axis :=
    List.take_of_length_le (Nat.le_of_eq List.length_drop)
  rw [elementsBetween, if_neg ordered, whole]

def elementsAfter (s : Shape) (axis : Nat) (a : Arithmetic := .unbounded) :
    Except (Stop TensorError) Nat :=
  if s.rank ≤ axis then refuse (.axisOutside (TensorInfo.signedWord axis) s.rank)
  else s.elementsBetween axis s.rank a

end Shape

/-- The axis of a tensor of given rank that a signed number names, from the end if negative. -/
def unsignedAxis (rank : Nat) (axis : Int) : Except TensorError Nat :=
  let extent := TensorInfo.signedWord rank
  if extent ≤ axis ∨ axis < -extent then .error (.axisOutside axis rank)
  else .ok (if axis < 0 then extent + axis else axis).toNat

/-- The elements that one step along the quantization axis spans together with the axis itself,
and the scales. -/
def TensorInfo.perAxisParams (t : TensorInfo) (a : Arithmetic := .unbounded) :
    Except (Stop TensorError) (Nat × List Single) :=
  match t.axis with
  | some axis => return (← t.shape.elementsAfter axis a, t.scales)
  | none => refuse (.perAxisParamsMissing t.elementType)

theorem TensorInfo.safe_perAxisParams {t : TensorInfo} {a : Arithmetic}
    (counted : ∀ axis, t.axis = some axis → ∃ n, a.product (t.dims.drop axis) = .ok n) :
    Safe (t.perAxisParams a) := by
  unfold perAxisParams
  cases follows : t.axis with
  | none => exact safe_refuse _
  | some axis =>
    refine Safe.bind ?_ fun _ _ => safe_ok _
    obtain ⟨n, product⟩ := counted axis follows
    unfold Shape.elementsAfter
    split
    · exact safe_refuse _
    · rename_i inside
      rw [Shape.elementsBetween_rank (Nat.le_of_not_le inside)]
      exact product ▸ safe_ok n

end LayerNet
