import LayerNet.Backend.Factory

/-!
Backends by name. A name that is registered again takes its new factory.
-/

set_option autoImplicit false
set_option relaxedAutoImplicit false

namespace LayerNet

structure Registry where
  entries : List (String × Factory)

namespace Registry

def initial : Registry :=
  ⟨[(ReferenceBackend.table.backend, .reference), (DenseBackend.table.backend, .dense)]⟩

/-- The registry with a factory under a name. Every factory that it gives out is a new one, whose
logs nobody can read. -/
def register (r : Registry) (name : String) (f : Factory) : Registry :=
  ⟨(name, f.unrecorded) :: r.entries.filter (·.1 != name)⟩

def find? (r : Registry) (name : String) : Option Factory :=
  (r.entries.find? (·.1 == name)).map (·.2)

def contains (r : Registry) (name : String) : Bool := (r.find? name).isSome

def names (r : Registry) : List String := (r.entries.map (·.1)).mergeSort (· ≤ ·)

end Registry

end LayerNet
