import LayerNet.Backend.Reason
import LayerNet.Json.Basic
import LayerNet.Text.Quoted

/-!
The journal of a host: the events of assignment, loading and execution, and what recording
backends were asked.
-/

set_option autoImplicit false
set_option relaxedAutoImplicit false

namespace LayerNet

/-- Something worth reporting. -/
inductive Event
  | assigned (backend layer : String) (operator : Operator)
  | rejected (backend layer : String) (operator : Operator) (reason : Reason)
  | creating (backend layer : String) (operator : Operator)
  | loaded (layers workloads : Nat) (backends : List String)
  | executing (layer workload : String)
  | executingOnMemory (layer workload : String)

/-- A question put to a backend. -/
inductive FactoryCall
  | validate (operator : Operator)
  | create (layer : String) (operator : Operator)
  deriving DecidableEq, Repr

/-- Events and recorded questions, oldest first; each recording backend has a log of its own. -/
structure Journal where
  events : List Event := []
  logs : List (List FactoryCall) := []

namespace Event

def level : Event → String
  | .assigned .. | .creating .. => "debug"
  | .rejected .. => "warn"
  | .loaded .. => "info"
  | .executing .. | .executingOnMemory .. => "trace"

def message : Event → String
  | .assigned .. => "assigned backend"
  | .rejected .. => "backend rejected layer, falling back"
  | .creating .. => "creating workload"
  | .loaded .. => "network loaded"
  | .executing .. => "execute"
  | .executingOnMemory .. => "execute async"

def details : Event → List (String × Json)
  | .assigned backend layer operator | .creating backend layer operator =>
    [("backend", .string backend), ("layer", .string layer), ("operator", .string operator.name)]
  | .rejected backend layer operator reason =>
    [("backend", .string backend), ("layer", .string layer), ("operator", .string operator.name),
      ("reason", .string reason.message)]
  | .loaded layers workloads backends =>
    [("layers", .nat layers), ("workloads", .nat workloads),
      ("backends", .string (Text.quotedList backends))]
  | .executing layer workload | .executingOnMemory layer workload =>
    [("layer", .string layer), ("workload", .string workload)]

def toJson (e : Event) : Json :=
  .object [("level", .string e.level),
    ("fields", .object (("message", .string e.message) :: e.details))]

end Event

namespace FactoryCall

def toJson : FactoryCall → Json
  | .validate operator => .array [.string "validate", .string operator.name]
  | .create layer operator => .array [.string "create", .string layer, .string operator.name]

end FactoryCall

namespace Journal

def report (j : Journal) (event : Event) : Journal := { j with events := j.events ++ [event] }

def openLog (j : Journal) : Nat × Journal :=
  (j.logs.length, { j with logs := j.logs ++ [[]] })

def record (j : Journal) (log : Nat) (call : FactoryCall) : Journal :=
  { j with logs := j.logs.modify log (· ++ [call]) }

def calls (j : Journal) (log : Nat) : List FactoryCall := (j.logs[log]?).getD []

end Journal

end LayerNet
