import LayerNet.Json.Scan

/-!
Reading a JSON value from a text, and passing over one. What both need to end is bounded by the
length of the text, which serves as fuel: of two steps in a row at least one spends a character.
A value that is passed over may nest without limit; the brackets still open are a list.
-/

set_option autoImplicit false
set_option relaxedAutoImplicit false

namespace LayerNet.Json

/-! ## Reading -/

mutual

def scanValue : Nat → List Char → Except TextFault (Json × List Char)
  | 0, cs => .error (faultAt cs)
  | fuel + 1, cs =>
    match skipBlank cs with
    | [] => .error .incomplete
    | 'n' :: cs => do
      let (_, cs) ← scanWord ['u', 'l', 'l'] cs
      return (.null, cs)
    | 't' :: cs => do
      let (_, cs) ← scanWord ['r', 'u', 'e'] cs
      return (.bool true, cs)
    | 'f' :: cs => do
      let (_, cs) ← scanWord ['a', 'l', 's', 'e'] cs
      return (.bool false, cs)
    | '"' :: cs => do
      let (text, cs) ← scanString true cs
      return (.string text, cs)
    | '[' :: cs =>
      match skipBlank cs with
      | ']' :: cs => .ok (.array [], cs)
      | cs => scanItems fuel [] cs
    | '{' :: cs =>
      match skipBlank cs with
      | '}' :: cs => .ok (.object [], cs)
      | cs => scanMembers fuel [] cs
    | c :: cs =>
      if c = '-' ∨ c.isDigit then do
        let (value, cs) ← scanNumber (c :: cs)
        return (.number value, cs)
      else .error .malformed

/-- Reads the items of an array that follow those read, last first, and its closing bracket. -/
def scanItems : Nat → List Json → List Char → Except TextFault (Json × List Char)
  | 0, _, cs => .error (faultAt cs)
  | fuel + 1, read, cs => do
    let (item, cs) ← scanValue fuel cs
    match skipBlank cs with
    | ',' :: cs => scanItems fuel (item :: read) cs
    | ']' :: cs => .ok (.array (item :: read).reverse, cs)
    | cs => .error (faultAt cs)

/-- Reads the members of an object that follow those read, last first, and its closing brace. -/
def scanMembers : Nat → List (String × Json) → List Char → Except TextFault (Json × List Char)
  | 0, _, cs => .error (faultAt cs)
  | fuel + 1, read, cs => do
    let (key, cs) ← scanKey true cs
    let (value, cs) ← scanValue fuel cs
    match skipBlank cs with
    | ',' :: cs => scanMembers fuel ((key, value) :: read) cs
    | '}' :: cs => .ok (.ofMembers ((key, value) :: read).reverse, cs)
    | cs => .error (faultAt cs)

end

def parse (text : String) : Except TextFault Json := do
  let cs := text.toList
  let (value, cs) ← scanValue (2 * cs.length + 2) cs
  match skipBlank cs with
  | [] => .ok value
  | _ :: _ => .error .malformed

/-! ## Passing over -/

inductive Bracket
  | array
  | object
  deriving DecidableEq, Repr

def Bracket.close : Bracket → Char
  | .array => ']'
  | .object => '}'

/-- Passes over what stands before a value inside a bracket. -/
def Bracket.skipKey : Bracket → List Char → Except TextFault (List Char)
  | .array, cs => .ok cs
  | .object, cs => do
    let (_, cs) ← scanKey false cs
    return cs

def skipLeaf : List Char → Except TextFault (List Char)
  | [] => .error .incomplete
  | 'n' :: cs => return (← scanWord ['u', 'l', 'l'] cs).2
  | 't' :: cs => return (← scanWord ['r', 'u', 'e'] cs).2
  | 'f' :: cs => return (← scanWord ['a', 'l', 's', 'e'] cs).2
  | '"' :: cs => return (← scanString false cs).2
  | c :: cs => if c = '-' ∨ c.isDigit then skipNumber (c :: cs) else .error .malformed

/-- What comes next in a value that is passed over: a value, the first entry of a bracket just
opened, or what follows a value. -/
inductive Expected
  | value
  | first
  | more
  deriving DecidableEq, Repr

/-- Passes over the rest of a value with the given brackets still open, the last one first. -/
def skipRest : Nat → List Bracket → Expected → List Char → Except TextFault (List Char)
  | 0, _, _, cs => .error (faultAt cs)
  | fuel + 1, opened, .value, cs =>
    match skipBlank cs with
    | '[' :: cs => skipRest fuel (.array :: opened) .first cs
    | '{' :: cs => skipRest fuel (.object :: opened) .first cs
    | cs => do
      let cs ← skipLeaf cs
      skipRest fuel opened .more cs
  | _ + 1, [], _, cs => .ok cs
  | fuel + 1, bracket :: opened, expected, cs =>
    match skipBlank cs with
    | [] => .error .incomplete
    | c :: cs =>
      if c = bracket.close then skipRest fuel opened .more cs
      else if expected = .first then do
        let cs ← bracket.skipKey (c :: cs)
        skipRest fuel (bracket :: opened) .value cs
      else if c = ',' then do
        let cs ← bracket.skipKey cs
        skipRest fuel (bracket :: opened) .value cs
      else .error .malformed

/-- Passes over one value, in at least twice as many steps as there are characters. Halves of
surrogate pairs pass unseen, a number may have any size, and any fault of a number is malformed. -/
def skipValue (fuel : Nat) (cs : List Char) : Except TextFault (List Char) :=
  skipRest fuel [] .value cs

end LayerNet.Json
