/-!
Sets of characters as closed ranges of code points.
-/

set_option autoImplicit false
set_option relaxedAutoImplicit false

namespace LayerNet.Text

abbrev CodeRanges := List (Nat × Nat)

def CodeRanges.contains (ranges : CodeRanges) (c : Char) : Bool :=
  ranges.any fun (first, last) => first ≤ c.toNat && c.toNat ≤ last

end LayerNet.Text
