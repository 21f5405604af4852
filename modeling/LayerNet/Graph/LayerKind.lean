import LayerNet.Graph.Operator
import LayerNet.Tensor.Constant

/-!
The kinds of layers with their parameters, and the extent of a pooled axis.
-/

set_option autoImplicit false
set_option relaxedAutoImplicit false

namespace LayerNet

/-- How the values of a pooling window become one. -/
inductive PoolingMethod
  | max
  | average
  | l2
  deriving DecidableEq, Repr, Inhabited

/-- How a pooled extent that does not divide evenly is rounded. -/
inductive ExtentRounding
  | floor
  | ceiling
  deriving DecidableEq, Repr, Inhabited

/-- Whether padded positions count in the divisor of an average. -/
inductive PaddingMethod
  | ignoreValue
  | exclude
  deriving DecidableEq, Repr, Inhabited

structure Pooling where
  method : PoolingMethod := .max
  padLeft : Nat := 0
  padRight : Nat := 0
  padTop : Nat := 0
  padBottom : Nat := 0
  poolWidth : Nat := 1
  poolHeight : Nat := 1
  strideX : Nat := 1
  strideY : Nat := 1
  rounding : ExtentRounding := .floor
  padding : PaddingMethod := .ignoreValue
  layout : DataLayout := .nchw
  deriving DecidableEq, Repr, Inhabited

structure Normalization where
  eps : Single := .ofDecimal false 1 (-12)
  layout : DataLayout := .nchw
  deriving DecidableEq, Inhabited

/-- A window of a tensor: where it begins and how far it reaches on each axis. -/
structure Window where
  begins : List Nat := []
  sizes : List Nat := []
  deriving DecidableEq, Repr, Inhabited

/-- The parameters of a fully connected layer. -/
structure AffineMap where
  transposed : Bool
  weights : Constant
  bias : Option Constant
  deriving DecidableEq

inductive LayerKind
  | input (binding : Int)
  | output (binding : Int)
  | addition
  | multiplication
  | fullyConnected (map : AffineMap)
  | pooling2d (pooling : Pooling)
  | l2Normalization (normalization : Normalization)
  | slice (window : Window)
  | gatherNd
  deriving DecidableEq

namespace PoolingMethod

def name : PoolingMethod → String
  | .max => "Max"
  | .average => "Average"
  | .l2 => "L2"

def all : List PoolingMethod := [.max, .average, .l2]

end PoolingMethod

namespace ExtentRounding

def name : ExtentRounding → String
  | .floor => "Floor"
  | .ceiling => "Ceiling"

def all : List ExtentRounding := [.floor, .ceiling]

def divide : ExtentRounding → Nat → Nat → Nat
  | .floor, a, b => a / b
  | .ceiling, a, b => (a + b - 1) / b

/-- The number of windows of `pool` positions, `stride` apart, on an axis of `input` positions
between two pads. A last window that the rounding added must still start inside the input or its
leading pad. -/
def pooledExtent (rounding : ExtentRounding) (input padLow padHigh pool stride : Nat) :
    Option Nat :=
  let padded := input + padLow + padHigh
  if stride = 0 ∨ pool = 0 ∨ padded < pool then none
  else
    let extent := rounding.divide (padded - pool) stride + 1
    if rounding = .ceiling ∧ input + padLow ≤ (extent - 1) * stride then some (extent - 1)
    else some extent

end ExtentRounding

namespace PaddingMethod

def name : PaddingMethod → String
  | .ignoreValue => "IgnoreValue"
  | .exclude => "Exclude"

def all : List PaddingMethod := [.ignoreValue, .exclude]

end PaddingMethod

namespace LayerKind

def operator : LayerKind → Operator
  | .input _ => .input
  | .output _ => .output
  | .addition => .addition
  | .multiplication => .multiplication
  | .fullyConnected _ => .fullyConnected
  | .pooling2d _ => .pooling2d
  | .l2Normalization _ => .l2Normalization
  | .slice _ => .slice
  | .gatherNd => .gatherNd

def numInputs (k : LayerKind) : Nat := k.operator.numInputs

def numOutputs (k : LayerKind) : Nat := k.operator.numOutputs

/-- The number by which callers name a boundary layer. -/
def binding? : LayerKind → Option Int
  | .input binding | .output binding => some binding
  | _ => none

end LayerKind

end LayerNet
