/-!
The element types of a tensor.
-/

set_option autoImplicit false
set_option relaxedAutoImplicit false

namespace LayerNet

/-- The scalar type of a tensor's elements. -/
inductive ElementType
  | float16
  | bfloat16
  | float32
  | qasymmU8
  | qasymmS8
  | qsymmS8
  | qsymmS16
  | signed32
  | signed64
  | boolean
  deriving DecidableEq, Repr, Inhabited

namespace ElementType

def all : List ElementType :=
  [.float16, .bfloat16, .float32, .qasymmU8, .qasymmS8, .qsymmS8, .qsymmS16, .signed32, .signed64,
    .boolean]

def size : ElementType → Nat
  | .qasymmU8 | .qasymmS8 | .qsymmS8 | .boolean => 1
  | .float16 | .bfloat16 | .qsymmS16 => 2
  | .float32 | .signed32 => 4
  | .signed64 => 8

/-- Whether elements stand for real numbers through a scale and an offset. -/
def isQuantized : ElementType → Bool
  | .qasymmU8 | .qasymmS8 | .qsymmS8 | .qsymmS16 => true
  | _ => false

/-- Whether elements are binary floating-point numbers. -/
def isFloat : ElementType → Bool
  | .float16 | .bfloat16 | .float32 => true
  | _ => false

def isInteger (t : ElementType) : Bool := t.isQuantized || t == .signed32 || t == .signed64

def name : ElementType → String
  | .float16 => "Float16"
  | .bfloat16 => "BFloat16"
  | .float32 => "Float32"
  | .qasymmU8 => "QAsymmU8"
  | .qasymmS8 => "QAsymmS8"
  | .qsymmS8 => "QSymmS8"
  | .qsymmS16 => "QSymmS16"
  | .signed32 => "Signed32"
  | .signed64 => "Signed64"
  | .boolean => "Boolean"

instance : ToString ElementType := ⟨name⟩

end ElementType

end LayerNet
