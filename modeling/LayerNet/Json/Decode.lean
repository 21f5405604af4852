import LayerNet.Json.Basic
import LayerNet.Tensor.Error

/-!
Reading domain values from JSON values: numbers within bounds, names of variants, records written
as objects or as arrays of their fields.
-/

set_option autoImplicit false
set_option relaxedAutoImplicit false

-- Powers are those of the core library.
attribute [local instance (high)] instPowNat

namespace LayerNet

/-- Why a JSON value does not stand for a value of the domain. -/
inductive DecodeError
  | missingField (name : String)
  | unknownVariant (found : String) (expected : List String)
  | wrongType
  | wrongValue
  | wrongLength
  | tensor (error : TensorError)
  deriving DecidableEq, Repr

namespace DecodeError

def choices : List String → String
  | [name] => s!"`{name}`"
  | [first, second] => s!"`{first}` or `{second}`"
  | names => "one of " ++ ", ".intercalate (names.map fun name => s!"`{name}`")

def message : DecodeError → String
  | .missingField name => s!"missing field `{name}`"
  | .unknownVariant found expected =>
    s!"unknown variant `{found}`, expected " ++ choices expected
  | .wrongType => "invalid type"
  | .wrongValue => "invalid value"
  | .wrongLength => "invalid length"
  | .tensor error => error.message

end DecodeError

namespace Json

def decodeInt (low high : Int) : Json → Except DecodeError Int
  | .number (.integer n) => if low ≤ n ∧ n ≤ high then .ok n else .error .wrongValue
  | _ => .error .wrongType

def decodeNat (j : Json) : Except DecodeError Nat :=
  return (← j.decodeInt 0 (2 ^ (64 : Nat) - 1)).toNat

def decodeInt32 (j : Json) : Except DecodeError Int :=
  j.decodeInt (-2 ^ (31 : Nat)) (2 ^ (31 : Nat) - 1)

def decodeSingle : Json → Except DecodeError Single
  | .number value => .ok value.single
  | _ => .error .wrongType

def decodeList {α : Type} (item : Json → Except DecodeError α) :
    Json → Except DecodeError (List α)
  | .array items => items.mapM item
  | _ => .error .wrongType

def decodeOption {α : Type} (value : Json → Except DecodeError α) :
    Json → Except DecodeError (Option α)
  | .null => .ok none
  | j => return some (← value j)

/-- The variant that a value names, by a string or by an object with a single null member. -/
def decodeVariant {α : Type} (name : α → String) (variants : List α) (j : Json) :
    Except DecodeError α := do
  let (found, rest) ← match j with
    | .string found => .ok (found, Json.null)
    | .object [(found, rest)] => .ok (found, rest)
    | .object _ => .error .wrongValue
    | _ => .error .wrongType
  match variants.find? fun variant => name variant == found, rest with
  | none, _ => .error (.unknownVariant found (variants.map name))
  | some variant, .null => .ok variant
  | some _, _ => .error .wrongType

def decodeMember {α : Type} (key : String) (value : Json → Except DecodeError α) (j : Json) :
    Except DecodeError (Option α) :=
  match j.find? key with
  | some member => return some (← value member)
  | none => .ok none

def require {α : Type} (name : String) : Option α → Except DecodeError α
  | some value => .ok value
  | none => .error (.missingField name)

end Json

end LayerNet
