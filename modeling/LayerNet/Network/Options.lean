import LayerNet.Json.Parser
import LayerNet.Network.Settings

/-!
Network options and their JSON form. The text is read from left to right and the first fault
counts, whether the text is not JSON from there on or says something that is not an option: a
record or its fields in order, with defaults for what is missing and unknown members skipped.
-/

set_option autoImplicit false
set_option relaxedAutoImplicit false

namespace LayerNet

structure NetworkOptions where
  backendPreferences : List String
  validateMemory : Bool
  deriving DecidableEq, Repr

/-- Why a text does not give network options. -/
inductive OptionsFault
  | text (fault : Json.TextFault)
  | data
  deriving DecidableEq, Repr

def OptionsFault.category : OptionsFault → String
  | .text .incomplete => "Eof"
  | .text .malformed => "Syntax"
  | .data => "Data"

namespace NetworkOptions

def ofSettings (s : Settings) : NetworkOptions where
  backendPreferences := s.preferences?.getD ["cpu-ref"]
  validateMemory := s.checksMemory

def default : NetworkOptions := ofSettings {}

def withBackends (backends : List String) : NetworkOptions :=
  { default with backendPreferences := backends }

def toJson (o : NetworkOptions) : Json :=
  .object [("backend_preferences", .array (o.backendPreferences.map .string)),
    ("validate_memory", .bool o.validateMemory)]

end NetworkOptions

namespace OptionsReader

open Json

structure Fields where
  backends : Option (List String) := none
  validate : Option Bool := none

def Fields.complete (f : Fields) : NetworkOptions where
  backendPreferences := f.backends.getD NetworkOptions.default.backendPreferences
  validateMemory := f.validate.getD NetworkOptions.default.validateMemory

def lexical {α : Type} (answer : Except TextFault α) : Except OptionsFault α :=
  answer.mapError .text

def stuck {α : Type} (cs : List Char) : Except OptionsFault α := .error (.text (faultAt cs))

/-- Refuses a value of the wrong form. A word, number or string is read to its end before it is
refused, so that a fault inside it counts first. -/
def mismatch {α : Type} (cs : List Char) : Except OptionsFault α := do
  match cs with
  | '[' :: _ | '{' :: _ => .error .data
  | 'n' :: cs => do
    let _ ← lexical (scanWord ['u', 'l', 'l'] cs)
    .error .data
  | 't' :: cs => do
    let _ ← lexical (scanWord ['r', 'u', 'e'] cs)
    .error .data
  | 'f' :: cs => do
    let _ ← lexical (scanWord ['a', 'l', 's', 'e'] cs)
    .error .data
  | '"' :: cs => do
    let _ ← lexical (scanString true cs)
    .error .data
  | cs =>
    if (cs.head?.any fun c => c == '-' || c.isDigit) then do
      let _ ← lexical (scanNumber cs)
      .error .data
    else stuck cs

def truth (cs : List Char) : Except OptionsFault (Bool × List Char) := do
  match skipBlank cs with
  | 't' :: cs => do
    let (_, cs) ← lexical (scanWord ['r', 'u', 'e'] cs)
    return (true, cs)
  | 'f' :: cs => do
    let (_, cs) ← lexical (scanWord ['a', 'l', 's', 'e'] cs)
    return (false, cs)
  | cs => mismatch cs

def text (cs : List Char) : Except OptionsFault (String × List Char) :=
  match skipBlank cs with
  | '"' :: cs => lexical (scanString true cs)
  | cs => mismatch cs

/-- Reads the strings of an array after its first, and its closing bracket; `fuel` bounds their
number. -/
def moreTexts : Nat → List Char → Except OptionsFault (List String × List Char)
  | 0, cs => stuck cs
  | fuel + 1, cs =>
    match skipBlank cs with
    | ']' :: cs => .ok ([], cs)
    | ',' :: cs =>
      match skipBlank cs with
      | ']' :: _ => .error (.text .malformed)
      | cs => do
        let (entry, cs) ← text cs
        let (entries, cs) ← moreTexts fuel cs
        return (entry :: entries, cs)
    | cs => stuck cs

def texts (cs : List Char) : Except OptionsFault (List String × List Char) :=
  match skipBlank cs with
  | '[' :: cs =>
    match skipBlank cs with
    | ']' :: cs => .ok ([], cs)
    | [] => .error (.text .incomplete)
    | cs => do
      let (entry, cs) ← text cs
      let (entries, cs) ← moreTexts cs.length cs
      return (entry :: entries, cs)
  | cs => mismatch cs

def colon (cs : List Char) : Except OptionsFault (List Char) :=
  match skipBlank cs with
  | ':' :: cs => .ok cs
  | cs => stuck cs

/-- Reads the member with the given key. A known key that comes again is refused at once; `fuel`
bounds the steps through a value that is skipped. -/
def member (fuel : Nat) (key : String) (fields : Fields) (cs : List Char) :
    Except OptionsFault (Fields × List Char) := do
  if key = "backend_preferences" then
    if fields.backends.isSome then .error .data
    else
      let (backends, cs) ← texts (← colon cs)
      return ({ fields with backends := some backends }, cs)
  else if key = "validate_memory" then
    if fields.validate.isSome then .error .data
    else
      let (validate, cs) ← truth (← colon cs)
      return ({ fields with validate := some validate }, cs)
  else
    let cs ← lexical (skipValue fuel (← colon cs))
    return (fields, cs)

/-- Reads the members of an object from a key on, and the closing brace; `fuel` bounds their
number, and no less than two units are left for each character that remains. -/
def members : Nat → Fields → List Char → Except OptionsFault (Fields × List Char)
  | 0, _, cs => stuck cs
  | fuel + 1, fields, cs =>
    match cs with
    | '"' :: cs => do
      let (key, cs) ← lexical (scanString true cs)
      let (fields, cs) ← member fuel key fields cs
      match skipBlank cs with
      | '}' :: cs => return (fields, cs)
      | ',' :: cs => members fuel fields (skipBlank cs)
      | cs => stuck cs
    | cs => stuck cs

/-- Reads the fields in order, up to the closing bracket. -/
def items (cs : List Char) : Except OptionsFault (Fields × List Char) := do
  match skipBlank cs with
  | ']' :: cs => return ({}, cs)
  | [] => .error (.text .incomplete)
  | cs => do
    let (backends, cs) ← texts cs
    match skipBlank cs with
    | ']' :: cs => return ({ backends := some backends }, cs)
    | ',' :: cs =>
      match skipBlank cs with
      | ']' :: _ => .error (.text .malformed)
      | cs => do
        let (validate, cs) ← truth cs
        match skipBlank cs with
        | ']' :: cs => return ({ backends := some backends, validate := some validate }, cs)
        | [] => .error (.text .incomplete)
        | _ => .error (.text .malformed)
    | cs => stuck cs

/-- Reads options written as an object or as an array. -/
def options (cs : List Char) : Except OptionsFault (Fields × List Char) :=
  match skipBlank cs with
  | '{' :: cs =>
    match skipBlank cs with
    | '}' :: cs => .ok ({}, cs)
    | cs => members (2 * cs.length + 3) {} cs
  | '[' :: cs => items cs
  | cs => mismatch cs

end OptionsReader

def NetworkOptions.ofText (text : String) : Except OptionsFault NetworkOptions := do
  let (fields, cs) ← OptionsReader.options text.toList
  match Json.skipBlank cs with
  | [] => return fields.complete
  | _ :: _ => .error (.text .malformed)

end LayerNet
