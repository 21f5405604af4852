import LayerNet.Number.Hex
import LayerNet.Number.Single

/-!
Single precision numbers as the hexadecimal text of their words, which keeps every bit of a
number. All words that stand for no number have one text.
-/

set_option autoImplicit false
set_option relaxedAutoImplicit false

namespace LayerNet.Single

def wordText (x : Single) : String := if x.isNaN then "nan" else "0x" ++ hexText 8 x.word

/-- The number with a given text: a word after `0x`, or the name of a special number. -/
def ofWordText (text : String) : Single :=
  if text = "nan" then .notANumber
  else if text = "inf" then .infinity
  else if text = "-inf" then .negInfinity
  else .ofWord (hexValue (text.toList.drop 2))

end LayerNet.Single
