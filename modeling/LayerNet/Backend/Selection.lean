import LayerNet.Backend.Factory

/-!
Choosing a backend for a layer. Candidates are asked in order; a backend that does not support the
layer leaves it to the next, one that finds it malformed ends the search.
-/

set_option autoImplicit false
set_option relaxedAutoImplicit false

namespace LayerNet.Selection

def candidates (hint : Option String) (factories : List Factory) : List (Factory × Nat) :=
  match hint with
  | some hint => factories.zipIdx.filter fun (f, _) => f.backend == hint
  | none => factories.zipIdx

def exhausted (operator : Operator) (factories : List Factory)
    (rejections : List (String × Reason)) : BackendError :=
  let backends := ", ".intercalate (factories.map Factory.backend)
  .unsupported backends operator
    (if rejections.isEmpty then .noBackends else .rejected rejections)

/-- Asks candidates in order, with the rejections so far. Answers the request as the last of them
left it, and the place of the first that supports it. -/
def ask {ε : Type} (factories : List Factory) :
    List (Factory × Nat) → List (String × Reason) → Request →
    Action ε (Except BackendError Nat × Request)
  | [], rejections, request =>
    return (.error (exhausted request.operator factories rejections), request)
  | (f, place) :: rest, rejections, request => do
    let (verdict, request) ← request.validateWith f
    match verdict with
    | .supported =>
      Action.report (.assigned f.backend request.layer request.operator)
      return (.ok place, request)
    | .unsupported reason =>
      Action.report (.rejected f.backend request.layer request.operator reason)
      ask factories rest (rejections ++ [(f.backend, reason)]) request
    | .malformed reason => return (.error (.malformed request.layer reason), request)

def select {ε : Type} (hint : Option String) (factories : List Factory) (request : Request) :
    Action ε (Except BackendError Nat × Request) :=
  match hint, candidates hint factories with
  | some hint, [] =>
    return (.error (.unsupported hint request.operator (.pinned request.layer)), request)
  | _, candidates => ask factories candidates [] request

end LayerNet.Selection
