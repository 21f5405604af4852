/-!
Changes of a state in place. What is assigned before a refusal stays assigned, so a change that is
to leave no trace when it is refused has to check before it assigns.
-/

set_option autoImplicit false
set_option relaxedAutoImplicit false

namespace LayerNet

/-- Steps that change a state in place and may be refused on the way. -/
abbrev Change (ε σ α : Type) := EStateM ε σ α

namespace Change

variable {ε σ α : Type}

def attempt (answer : Except ε α) : Change ε σ α :=
  match answer with
  | .ok a => pure a
  | .error error => throw error

def refuseIf (condition : Bool) (error : ε) : Change ε σ Unit :=
  if condition then throw error else pure ()

/-- The answer and the state that a change leaves, unless it is refused. -/
def apply (change : Change ε σ α) (s : σ) : Except ε (α × σ) :=
  match change.run s with
  | .ok a s' => .ok (a, s')
  | .error error _ => .error error

def result (change : Change ε σ Unit) (s : σ) : Except ε σ := (change.apply s).map (·.2)

end Change

end LayerNet
