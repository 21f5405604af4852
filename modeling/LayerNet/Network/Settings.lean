/-!
Settings that a process takes from its surroundings: which backends to prefer and whether to check
that inputs were written. Both are texts that may be missing.
-/

set_option autoImplicit false
set_option relaxedAutoImplicit false

namespace LayerNet

structure Settings where
  backends : Option String := none
  validateMemory : Option String := none
  deriving DecidableEq, Repr

namespace Settings

/-- Whether a character is white space: the controls from tab to carriage return, the blank, the
next-line control, the no-break blank, and the spaces and separators of general punctuation. -/
def isSpace (c : Char) : Bool :=
  let n := c.toNat
  (9 ≤ n && n ≤ 13) || n == 0x20 || n == 0x85 || n == 0xA0 || n == 0x1680
    || (0x2000 ≤ n && n ≤ 0x200A) || n == 0x2028 || n == 0x2029 || n == 0x202F || n == 0x205F
    || n == 0x3000

def trim (cs : List Char) : List Char :=
  ((cs.dropWhile isSpace).reverse.dropWhile isSpace).reverse

def splitCommas : List Char → List (List Char)
  | [] => [[]]
  | ',' :: cs => [] :: splitCommas cs
  | c :: cs =>
    match splitCommas cs with
    | part :: parts => (c :: part) :: parts
    | [] => [[c]]

def entries (text : String) : List String :=
  (((splitCommas text.toList).map trim).filter (! ·.isEmpty)).map String.ofList

def isYes (text : String) : Bool :=
  String.ofList ((trim text.toList).map Char.toLower) ∈ ["1", "true", "yes", "on"]

def preferences? (s : Settings) : Option (List String) :=
  match s.backends with
  | some text => if (entries text).isEmpty then none else some (entries text)
  | none => none

/-- Whether to check that inputs were written; yes unless a text that is not blank says no. -/
def checksMemory (s : Settings) : Bool :=
  match s.validateMemory with
  | some text => (trim text.toList).isEmpty || isYes text
  | none => true

end Settings

end LayerNet
