import LayerNet.Graph.Inference
import LayerNet.Kernel.Signature

/-!
Normalization of channel fibres to unit length. A tensor of lower rank is read as one of rank four
with leading unit extents.
-/

set_option autoImplicit false
set_option relaxedAutoImplicit false

namespace LayerNet.Normalization

/-- The extent on one of four axes, the last of which are those of a tensor. -/
def paddedExtent (dims : List Nat) (axis : Nat) : Nat :=
  let shift := 4 - dims.length
  if axis < shift then 1 else dims.getD (axis - shift) 1

/-- The extents on the axes that the layout names; a tensor of higher rank has none. -/
def padded? (d : Normalization) (dims : List Nat) : Option Quad :=
  if 4 < dims.length then none
  else
    let batches := if dims.length = 4 then dims.headD 1 else 1
    some (d.layout.arrange batches (paddedExtent dims d.layout.channelsAxis)
      (paddedExtent dims d.layout.heightAxis) (paddedExtent dims d.layout.widthAxis))

/-- The sum of squares of a channel fibre, in channel order. -/
def squareSum (d : Normalization) (shape : Quad) (input : Array Single) (n h w : Nat) :
    Except Crash Single :=
  foldRange (fun acc c => do
    let value ← Crash.at input (d.layout.index shape n c h w)
    return acc + value * value) (d.layout.channels shape) 0 0

def factor (d : Normalization) (sum : Single) : Single := 1 / (sum.max d.eps).sqrt

/-- The output with the values of one channel fibre scaled to unit length. -/
def scaleFibre (d : Normalization) (shape : Quad) (input output : Array Single) (n h w : Nat) :
    Except Crash (Array Single) := do
  let scale := d.factor (← d.squareSum shape input n h w)
  foldRange (fun output c => do
    let index := d.layout.index shape n c h w
    let value ← Crash.at input index
    Crash.set output index (value * scale)) (d.layout.channels shape) 0 output

def fibres (d : Normalization) (shape : Quad) : Quad :=
  ⟨shape.first, min 1 (d.layout.channels shape), d.layout.height shape, d.layout.width shape⟩

/-- The values scaled fibre by fibre. -/
def compute (d : Normalization) (dims : List Nat) (input : Array Single) :
    Except Crash (Array Single) :=
  match d.padded? dims with
  | none => .error .outOfRange
  | some shape =>
    foldRange (fun output k =>
      let place := (d.fibres shape).coords k
      d.scaleFibre shape input output place.first place.third place.fourth)
      (d.fibres shape).count 0 (Array.replicate input.size 0)

/-- The reference backend's verdict. -/
def support (d : Normalization) (input output : TensorInfo) : Support :=
  if 4 < input.rank then .malformed (.shape (.rankAboveFour input.shape))
  else if input.shape ≠ output.shape then .malformed .shapesDiffer
  else if ¬d.hasPositiveEps then .malformed (.shape (.epsNotPositive d.eps))
  else (numericTypes [input]).andThen (numericTypes [output])

end LayerNet.Normalization
