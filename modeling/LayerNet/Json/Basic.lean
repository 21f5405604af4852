import LayerNet.Number.Double

/-!
JSON values. A number is an integer of 64 bits or a double precision number, so that a reader can
tell the two apart. An object keeps its members in the order in which they were written; of several
members with one key the last counts.
-/

set_option autoImplicit false
set_option relaxedAutoImplicit false

-- Powers are those of the core library.
attribute [local instance (high)] instPowNat

namespace LayerNet

/-- A number: an integer, signed if it is negative and unsigned otherwise, or a decimal. -/
inductive JsonNumber
  | integer (value : Int)
  | decimal (value : Double)
  deriving DecidableEq, Repr

inductive Json
  | null
  | bool (value : Bool)
  | number (value : JsonNumber)
  | string (text : String)
  | array (items : List Json)
  | object (members : List (String × Json))
  deriving Repr, Inhabited

namespace JsonNumber

/-- The number that the literal `± digits * 10 ^ power` stands for; it is `whole` if it has neither
point nor exponent. What is not whole or leaves 64 bits is a decimal, and so is `-0`. -/
def ofLiteral (negative : Bool) (digits : Nat) (power : Int) (whole : Bool) : JsonNumber :=
  let value : Int := if negative then -(digits : Int) else digits
  if whole ∧ ¬(negative ∧ digits = 0) ∧ -2 ^ (63 : Nat) ≤ value ∧ value < 2 ^ (64 : Nat) then
    .integer value
  else .decimal (.ofDecimal negative digits power)

/-- Whether the number is not too large for its kind. -/
def isFinite : JsonNumber → Bool
  | .integer _ => true
  | .decimal value => value.isFinite

def double : JsonNumber → Double
  | .integer value => .ofInt value
  | .decimal value => value

def single : JsonNumber → Single
  | .integer value => .ofInt value
  | .decimal value => value.toSingle

end JsonNumber

namespace Json

def int (n : Int) : Json := .number (.integer n)

def nat (n : Nat) : Json := int n

def ints (ns : List Int) : Json := .array (ns.map int)

def nats (ns : List Nat) : Json := .array (ns.map nat)

def insertMember (members : List (String × Json)) (member : String × Json) :
    List (String × Json) :=
  if members.any (·.1 == member.1) then
    members.map fun old => if old.1 == member.1 then member else old
  else members ++ [member]

def ofMembers (members : List (String × Json)) : Json := .object (members.foldl insertMember [])

def find? (key : String) : Json → Option Json
  | .object members => (members.find? (·.1 == key)).map (·.2)
  | _ => none

def single (x : Single) : Json :=
  if x.isFinite then .number (.decimal (.ofSingle x)) else .null

end Json

end LayerNet
