import LayerNet.Json.Basic

/-!
Writing a JSON value without blanks. Quotes, backslashes and control characters are escaped; all
other characters stand for themselves.
-/

set_option autoImplicit false
set_option relaxedAutoImplicit false

-- Powers are those of the core library.
attribute [local instance (high)] instPowNat

namespace LayerNet.Json

/-- A character as it stands inside a string. -/
def escape (c : Char) : List Char :=
  if c = '"' then ['\\', '"']
  else if c = '\\' then ['\\', '\\']
  else if c.toNat < 0x20 then
    ['\\', 'u', '0', '0', Nat.digitChar (c.toNat / 16), Nat.digitChar (c.toNat % 16)]
  else [c]

def quote (text : String) : String :=
  String.ofList ('"' :: text.toList.flatMap escape ++ ['"'])

/-- A number literal. A decimal is written with all its digits and a power of ten; what is not
finite is written as null. -/
def numberText : JsonNumber → String
  | .integer value => toString value
  | .decimal value =>
    match value.datum with
    | .nan .. | .infinite _ => "null"
    | .finite negative significand exponent =>
      (if negative then "-" else "")
        ++ toString (significand * 2 ^ exponent.toNat * 5 ^ (-exponent).toNat)
        ++ "e" ++ toString (min exponent 0)

mutual

def appendValue (text : String) : Json → String
  | .null => text ++ "null"
  | .bool value => text ++ if value then "true" else "false"
  | .number value => text ++ numberText value
  | .string value => text ++ quote value
  | .array items => appendItems (text ++ "[") items ++ "]"
  | .object members => appendMembers (text ++ "\x7b") members ++ "\x7d"

/-- A text with the texts of array items behind it, separated by commas. -/
def appendItems (text : String) : List Json → String
  | [] => text
  | [item] => appendValue text item
  | item :: next :: items => appendItems (appendValue text item ++ ",") (next :: items)

/-- A text with the texts of object members behind it, separated by commas. -/
def appendMembers (text : String) : List (String × Json) → String
  | [] => text
  | [(key, value)] => appendValue (text ++ quote key ++ ":") value
  | (key, value) :: next :: members =>
    appendMembers (appendValue (text ++ quote key ++ ":") value ++ ",") (next :: members)

end

def render (value : Json) : String := appendValue "" value

end LayerNet.Json
