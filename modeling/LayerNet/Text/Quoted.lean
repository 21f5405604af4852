import LayerNet.Number.Hex
import LayerNet.Text.Combining
import LayerNet.Text.Invisible
import LayerNet.Text.Unassigned

/-!
Text in quotes. What a reader would not see, or would see joined to its neighbour, is written as an
escape: quotes, backslashes, invisible characters, combining marks and unassigned code points.
-/

set_option autoImplicit false
set_option relaxedAutoImplicit false

namespace LayerNet.Text

def isVisible (c : Char) : Bool :=
  !invisible.contains c && !combining.contains c && !unassigned.contains c

/-- A character as it stands between quotes: some escapes are short, all others give the code point
in hexadecimal digits. -/
def escaped (c : Char) : String :=
  if c = '"' then "\\\""
  else if c = '\\' then "\\\\"
  else if c = '\n' then "\\n"
  else if c = '\r' then "\\r"
  else if c = '\t' then "\\t"
  else if c.toNat = 0 then "\\0"
  else if isVisible c then c.toString
  else "\\u\x7b" ++ hexText 1 c.toNat ++ "\x7d"

def quoted (text : String) : String :=
  "\"" ++ String.join (text.toList.map escaped) ++ "\""

def quotedList (texts : List String) : String :=
  "[" ++ ", ".intercalate (texts.map quoted) ++ "]"

end LayerNet.Text
