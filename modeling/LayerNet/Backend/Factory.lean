import LayerNet.Backend.Workload

/-!
Backends. A kernel table says which operators a backend covers, how it judges a layer and what it
makes of one; a factory is a table or a recorder of the questions put to another factory.
-/

set_option autoImplicit false
set_option relaxedAutoImplicit false

namespace LayerNet

structure KernelTable where
  backend : String
  operators : List Operator
  judge : LayerKind → List TensorInfo → List TensorInfo → Support
  build : LayerKind → Except (Stop BackendError) Task

namespace KernelTable

def covered (t : KernelTable) : List Operator := Operator.all.filter (· ∈ t.operators)

/-- The verdict on a layer: its tensors must be as many as the operator takes and known, and the
table must have a kernel for it. -/
def support (t : KernelTable) (kind : LayerKind) (inputs outputs : List TensorInfo) : Support :=
  let operator := kind.operator
  if inputs.length ≠ operator.numInputs ∨ outputs.length ≠ operator.numOutputs then
    .malformed (.arity operator inputs.length outputs.length)
  else
    match inputs.findIdx? fun info => !info.shape.isSpecified,
        outputs.findIdx? fun info => !info.shape.isSpecified with
    | some slot, _ => .malformed (.unspecifiedShape .input slot)
    | none, some slot => .malformed (.unspecifiedShape .output slot)
    | none, none =>
      if operator ∈ t.operators then t.judge kind inputs outputs
      else .unsupported (.noKernel t.backend operator)

/-- A workload for a request that this backend accepted last, on memory that fits it. -/
def create (t : KernelTable) (request : Request) (memory : BoundMemory) :
    Action BackendError Workload := do
  if request.stamp ≠ some t.backend then
    Action.refuse (.notValidated request.layer t.backend)
  else if request.operator ∉ t.operators then
    Action.refuse (.unsupported t.backend request.operator .noKernelRegistered)
  else
    let store ← Action.store
    Action.attempt ((BoundMemory.check store request.signature memory).mapError
      (.malformed request.layer))
    Action.report (.creating t.backend request.layer request.operator)
    let task ← Action.ofExcept (t.build request.kind)
    Workload.create request task memory

end KernelTable

namespace ReferenceBackend

def judge : LayerKind → List TensorInfo → List TensorInfo → Support
  | .addition, [lhs, rhs], [output] => Elementwise.support lhs rhs output
  | .multiplication, [lhs, rhs], [output] => Elementwise.support lhs rhs output
  | .fullyConnected map, [input], [output] => map.support input output
  | .pooling2d pooling, [input], [output] => pooling.support input output
  | .l2Normalization normalization, [input], [output] => normalization.support input output
  | .slice window, [input], [output] => window.support input output
  | .gatherNd, [params, indices], [output] => Gather.support params indices output
  | kind, inputs, outputs => .malformed (.arity kind.operator inputs.length outputs.length)

def build : LayerKind → Except (Stop BackendError) Task
  | .addition => return .kernel (.elementwise .add)
  | .multiplication => return .kernel (.elementwise .mul)
  | .fullyConnected map => return .kernel (.fullyConnected (← map.decode))
  | .pooling2d pooling => return .kernel (.pooling2d pooling)
  | .l2Normalization normalization => return .kernel (.l2Normalization normalization)
  | .slice window => return .kernel (.slice window)
  | .gatherNd => return .gather
  | .input _ | .output _ => return .idle

def table : KernelTable where
  backend := "cpu-ref"
  operators := [.addition, .multiplication, .fullyConnected, .pooling2d, .l2Normalization, .slice,
    .gatherNd]
  judge := judge
  build := build

end ReferenceBackend

namespace DenseBackend

def judge : LayerKind → List TensorInfo → List TensorInfo → Support
  | .addition, [lhs, rhs], [output] => Elementwise.denseSupport lhs rhs output
  | .multiplication, [lhs, rhs], [output] => Elementwise.denseSupport lhs rhs output
  | .fullyConnected map, [input], [output] => map.denseSupport input output
  | .slice window, [input], [output] => window.nativeSupport input output
  | kind, inputs, outputs => .malformed (.arity kind.operator inputs.length outputs.length)

def build : LayerKind → Except (Stop BackendError) Task
  | .addition => return .kernel (.denseElementwise .add)
  | .multiplication => return .kernel (.denseElementwise .mul)
  | .fullyConnected map => return .kernel (.denseFullyConnected (← map.decode))
  | .slice window => return .kernel (.nativeSlice window)
  | _ => return .idle

/-- The dense kernels cover sums, products, fully connected layers and slices. -/
def table : KernelTable where
  backend := "faer"
  operators := [.addition, .multiplication, .fullyConnected, .slice]
  judge := judge
  build := build

end DenseBackend

/-- The verdict of a table without kernels of its own. -/
inductive Verdict
  | accept
  | floatOnly
  | malformed
  deriving DecidableEq, Repr

namespace Verdict

def judge (v : Verdict) (inputs : List TensorInfo) : Support :=
  match v with
  | .accept => .supported
  | .floatOnly =>
    if inputs.all (·.elementType == .float32) then .supported else .unsupported .floatOnly
  | .malformed => .malformed .alwaysMalformed

/-- A table whose workloads check their memory and do nothing. -/
def table (v : Verdict) (backend : String) (operators : List Operator) : KernelTable where
  backend := backend
  operators := operators
  judge _ inputs _ := v.judge inputs
  build _ := return .idle

end Verdict

/-- A backend, or a recorder of the questions put to one. A recorder without a backend of its own
accepts every layer that computes and makes workloads that do nothing; it may have no log. -/
inductive Factory
  | reference
  | dense
  | stub (backend : String) (operators : List Operator) (verdict : Verdict)
  | recorder (log : Option Nat)
  | recording (log : Nat) (inner : Factory)
  deriving DecidableEq, Inhabited

namespace Factory

def backend : Factory → String
  | .reference => ReferenceBackend.table.backend
  | .dense => DenseBackend.table.backend
  | .stub backend _ _ => backend
  | .recorder _ => "recording"
  | .recording _ inner => inner.backend

def covered : Factory → List Operator
  | .reference => ReferenceBackend.table.covered
  | .dense => DenseBackend.table.covered
  | .stub backend operators verdict => (verdict.table backend operators).covered
  | .recorder _ => []
  | .recording _ inner => inner.covered

def verdict : Factory → LayerKind → List TensorInfo → List TensorInfo → Support
  | .reference => ReferenceBackend.table.support
  | .dense => DenseBackend.table.support
  | .stub backend operators verdict => (verdict.table backend operators).support
  | .recorder _ => fun kind _ _ =>
    if kind.operator.isBoundary then .unsupported .boundaryLayer else .supported
  | .recording _ inner => inner.verdict

/-- The journal after a question has been put to the factory: recorders note it from the outside
in. -/
def record : Factory → FactoryCall → Journal → Journal
  | .recorder (some log), call, journal => journal.record log call
  | .recording log inner, call, journal => inner.record call (journal.record log call)
  | _, _, journal => journal

def unrecorded : Factory → Factory
  | .recorder _ => .recorder none
  | .recording _ inner => inner.unrecorded
  | f => f

def note {ε : Type} (f : Factory) (call : FactoryCall) : Action ε Unit :=
  modify fun host => { host with journal := f.record call host.journal }

def support {ε : Type} (f : Factory) (kind : LayerKind) (inputs outputs : List TensorInfo) :
    Action ε Support := do
  f.note (.validate kind.operator)
  return f.verdict kind inputs outputs

def make : Factory → Request → BoundMemory → Action BackendError Workload
  | .reference => ReferenceBackend.table.create
  | .dense => DenseBackend.table.create
  | .stub backend operators verdict => (verdict.table backend operators).create
  | .recorder _ => fun request memory =>
    if request.stamp ≠ some "recording" then
      Action.refuse (.notValidated request.layer "recording")
    else Workload.create request .idle memory
  | .recording _ inner => inner.make

def create (f : Factory) (request : Request) (memory : BoundMemory) :
    Action BackendError Workload := do
  f.note (.create request.layer request.operator)
  f.make request memory

end Factory

namespace Request

/-- Asks a factory for its verdict; an acceptance stamps the request, a refusal clears the
stamp. -/
def validateWith {ε : Type} (r : Request) (f : Factory) : Action ε (Support × Request) := do
  let verdict ← f.support r.kind r.signature.inputs r.signature.outputs
  return (verdict, { r with stamp := if verdict.isSupported then some f.backend else none })

end Request

end LayerNet
