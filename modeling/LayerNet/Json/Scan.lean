import LayerNet.Json.Basic
import LayerNet.Number.Hex

/-!
Readers for the lexical parts of JSON: blanks, words, numbers and strings. Each takes the
characters that remain and gives back what it read and the characters after it. A text fails
either because it ends too early or because it holds a character that cannot stand where it does.
-/

set_option autoImplicit false
set_option relaxedAutoImplicit false

namespace LayerNet.Json

inductive TextFault
  | incomplete
  | malformed
  deriving DecidableEq, Repr

def isBlank (c : Char) : Bool := c == ' ' || c == '\n' || c == '\t' || c == '\r'

def skipBlank (cs : List Char) : List Char := cs.dropWhile isBlank

def faultAt : List Char → TextFault
  | [] => .incomplete
  | _ :: _ => .malformed

def scanWord : List Char → List Char → Except TextFault (Unit × List Char)
  | [], cs => .ok ((), cs)
  | w :: word, c :: cs => if w = c then scanWord word cs else .error .malformed
  | _ :: _, [] => .error .incomplete

def scanDigits (cs : List Char) : Except TextFault ((List Char) × List Char) :=
  match cs.takeWhile Char.isDigit with
  | [] => .error (faultAt cs)
  | digits => .ok (digits, cs.dropWhile Char.isDigit)

def digitsValue (digits : List Char) : Nat :=
  digits.foldl (fun n c => 10 * n + (c.toNat - '0'.toNat)) 0

/-- Reads the digits before the point; a zero stands alone. -/
def scanWhole : List Char → Except TextFault ((List Char) × List Char)
  | '0' :: cs =>
    match cs with
    | c :: _ => if c.isDigit then .error .malformed else .ok (['0'], cs)
    | [] => .ok (['0'], [])
  | cs => scanDigits cs

def scanFraction : List Char → Except TextFault ((Option (List Char)) × List Char)
  | '.' :: cs => do
    let (digits, cs) ← scanDigits cs
    return (some digits, cs)
  | cs => .ok (none, cs)

/-- Reads an optional sign and the digits of a power of ten. -/
def scanPower : List Char → Except TextFault (Int × List Char)
  | '+' :: cs => do
    let (digits, cs) ← scanDigits cs
    return ((digitsValue digits : Int), cs)
  | '-' :: cs => do
    let (digits, cs) ← scanDigits cs
    return (-(digitsValue digits : Int), cs)
  | cs => do
    let (digits, cs) ← scanDigits cs
    return ((digitsValue digits : Int), cs)

def scanExponent : List Char → Except TextFault ((Option Int) × List Char)
  | 'e' :: cs => do
    let (power, cs) ← scanPower cs
    return (some power, cs)
  | 'E' :: cs => do
    let (power, cs) ← scanPower cs
    return (some power, cs)
  | cs => .ok (none, cs)

def maxDigits : Nat := 21

/-- Reads a number without its sign. Digits after so many that they leave 64 bits only count for
the power of ten. -/
def scanUnsigned (negative : Bool) (cs : List Char) :
    Except TextFault (JsonNumber × List Char) := do
  let (whole, cs) ← scanWhole cs
  let (fraction, cs) ← scanFraction cs
  let (power, cs) ← scanExponent cs
  let places := fraction.getD []
  let digits := (whole ++ places).dropWhile (· == '0')
  let dropped := digits.length - maxDigits
  return (.ofLiteral negative (digitsValue (digits.take maxDigits))
    (power.getD 0 - places.length + dropped) (fraction.isNone && power.isNone), cs)

def scanLiteral : List Char → Except TextFault (JsonNumber × List Char)
  | '-' :: cs => scanUnsigned true cs
  | cs => scanUnsigned false cs

/-- Reads a number. One that is too large for double precision is malformed. -/
def scanNumber (cs : List Char) : Except TextFault (JsonNumber × List Char) := do
  let (value, cs) ← scanLiteral cs
  if value.isFinite then return (value, cs) else .error .malformed

/-- Skips a number of any size. A digit that it lacks is malformed even where the text ends. -/
def skipNumber (cs : List Char) : Except TextFault (List Char) := do
  let (_, cs) ← (scanLiteral cs).mapError fun _ => .malformed
  return cs

/-- Reads four hexadecimal digits. The text is incomplete when fewer than four bytes remain. -/
def scanHex (cs : List Char) : Except TextFault (Nat × List Char) :=
  let bytes := (cs.take 4).foldl (fun n c => n + c.utf8Size) 0
  if bytes < 4 then .error .incomplete
  else
    match cs with
    | a :: b :: c :: d :: rest =>
      match hexDigit? a, hexDigit? b, hexDigit? c, hexDigit? d with
      | some a, some b, some c, some d => .ok (((a * 16 + b) * 16 + c) * 16 + d, rest)
      | _, _, _, _ => .error .malformed
    | _ => .error .malformed

def isHighSurrogate (n : Nat) : Bool := 0xD800 ≤ n && n ≤ 0xDBFF

/-- Whether a code unit is the second half of a pair. -/
def isLowSurrogate (n : Nat) : Bool := 0xDC00 ≤ n && n ≤ 0xDFFF

def replacement : Char := Char.ofNat 0xFFFD

/-- Reads the character of a `\u` escape. Half of a pair is refused if `strict`. -/
def scanUnicode (strict : Bool) (cs : List Char) : Except TextFault (Char × List Char) := do
  let (first, rest) ← scanHex cs
  if isLowSurrogate first then
    if strict then .error .malformed else .ok (replacement, rest)
  else if isHighSurrogate first then
    if strict then
      match rest with
      | '\\' :: 'u' :: tail => do
        let (second, rest) ← scanHex tail
        if isLowSurrogate second then
          .ok (Char.ofNat (0x10000 + (first - 0xD800) * 0x400 + (second - 0xDC00)), rest)
        else .error .malformed
      | ['\\'] => .error .incomplete
      | _ => .error (faultAt rest)
    else .ok (replacement, rest)
  else .ok (Char.ofNat first, rest)

def scanEscape (strict : Bool) : List Char → Except TextFault (Char × List Char)
  | [] => .error .incomplete
  | '"' :: cs => .ok ('"', cs)
  | '\\' :: cs => .ok ('\\', cs)
  | '/' :: cs => .ok ('/', cs)
  | 'b' :: cs => .ok (Char.ofNat 8, cs)
  | 'f' :: cs => .ok (Char.ofNat 12, cs)
  | 'n' :: cs => .ok ('\n', cs)
  | 'r' :: cs => .ok ('\r', cs)
  | 't' :: cs => .ok ('\t', cs)
  | 'u' :: cs => scanUnicode strict cs
  | _ :: _ => .error .malformed

theorem length_lt_of_scanHex {cs rest : List Char} {n : Nat} (h : scanHex cs = .ok (n, rest)) :
    rest.length < cs.length := by
  unfold scanHex at h
  grind

theorem length_lt_of_scanUnicode {strict : Bool} {cs rest : List Char} {c : Char}
    (h : scanUnicode strict cs = .ok (c, rest)) : rest.length < cs.length := by
  unfold scanUnicode at h
  simp only [bind, Except.bind] at h
  grind [→ length_lt_of_scanHex]

theorem length_lt_of_scanEscape {strict : Bool} {cs rest : List Char} {c : Char}
    (h : scanEscape strict cs = .ok (c, rest)) : rest.length < cs.length := by
  unfold scanEscape at h
  split at h <;> grind [→ length_lt_of_scanUnicode]

/-- Reads the rest of a string, up to its closing quote, after the characters read, last first. -/
def scanChars (strict : Bool) (read : List Char) :
    List Char → Except TextFault (String × List Char)
  | [] => .error .incomplete
  | '"' :: cs => .ok (String.ofList read.reverse, cs)
  | '\\' :: cs =>
    match _h : scanEscape strict cs with
    | .ok (c, cs) => scanChars strict (c :: read) cs
    | .error fault => .error fault
  | c :: cs => if c.toNat < 0x20 then .error .malformed else scanChars strict (c :: read) cs
termination_by cs => cs.length
decreasing_by
  · exact Nat.lt_succ_of_lt (length_lt_of_scanEscape _h)
  · exact Nat.lt_succ_self _

/-- Reads a string after its opening quote. Halves of surrogate pairs are refused if `strict`. -/
def scanString (strict : Bool) (cs : List Char) : Except TextFault (String × List Char) :=
  scanChars strict [] cs

def scanKey (strict : Bool) (cs : List Char) : Except TextFault (String × List Char) :=
  match skipBlank cs with
  | '"' :: cs => do
    let (key, cs) ← scanString strict cs
    match skipBlank cs with
    | ':' :: cs => .ok (key, cs)
    | cs => .error (faultAt cs)
  | cs => .error (faultAt cs)

end LayerNet.Json
