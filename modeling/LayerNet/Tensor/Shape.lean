import LayerNet.Tensor.Error

/-!
Tensor shapes: at most five extents. The shape without extents stands for a shape that is not
known yet; it has no elements.
-/

set_option autoImplicit false
set_option relaxedAutoImplicit false

-- Products are those of the core library.
attribute [local instance (high)] One.ofOfNat1

namespace LayerNet

/-- A list of at most five extents. -/
structure Shape where
  dims : List Nat
  rank_le : dims.length ≤ 5 := by decide
  deriving DecidableEq

namespace Shape

def maxRank : Nat := 5

theorem one_le_maxRank : 1 ≤ maxRank := by decide

theorem two_le_maxRank : 2 ≤ maxRank := by decide

def unspecified : Shape := ⟨[], by decide⟩

instance : Inhabited Shape := ⟨unspecified⟩

def rank (s : Shape) : Nat := s.dims.length

def isSpecified (s : Shape) : Bool := 0 < s.rank

def ofParts (rank : Nat) (sizes : List Nat) : Except TensorError Shape :=
  if rank < 1 then .error .zeroRank
  else if h : rank ≤ 5 then
    if sizes.length < rank then .error (.missingSizes rank sizes.length)
    else .ok ⟨sizes.take rank, Nat.le_trans (List.length_take_le rank sizes) h⟩
  else .error (.rankTooLarge rank maxRank)

def ofDims (dims : List Nat) : Except TensorError Shape := ofParts dims.length dims

def zeros (rank : Nat) : Except TensorError Shape :=
  if maxRank < rank then .error (.rankTooLarge rank maxRank)
  else ofParts rank (List.replicate rank 0)

def ofList (dims : List Nat) : Except TensorError Shape :=
  if dims.isEmpty then .ok unspecified else ofDims dims

/-- The number of elements: the product of the extents, and zero for a shape not known yet. -/
def numElements (s : Shape) : Nat := if s.dims = [] then 0 else s.dims.prod

def countElements (s : Shape) (a : Arithmetic) : Except Crash Nat :=
  if s.dims = [] then .ok 0 else a.product s.dims

def dim (s : Shape) (index : Nat) : Except TensorError Nat :=
  match s.dims[index]? with
  | some extent => .ok extent
  | none => .error (.dimensionIndex index s.rank)

def modifyDim (s : Shape) (index : Nat) (f : Nat → Nat) : Except TensorError Shape :=
  if index < s.rank then
    .ok ⟨s.dims.modify index f, by rw [List.length_modify]; exact s.rank_le⟩
  else .error (.dimensionIndex index s.rank)

def setDim (s : Shape) (index value : Nat) : Except TensorError Shape :=
  s.modifyDim index fun _ => value

/-- Numbers in brackets, separated by a comma and a blank. -/
def listText (ns : List Nat) : String := "[" ++ ", ".intercalate (ns.map toString) ++ "]"

/-- The extents in brackets, or a question mark for a shape not known yet. -/
def text (s : Shape) : String := if s.isSpecified then listText s.dims else "[?]"

/-- The extents in brackets after the name of the type. -/
def debugText (s : Shape) : String := "TensorShape" ++ listText s.dims

instance : ToString Shape := ⟨text⟩

end Shape

end LayerNet
