import LayerNet.Backend.Registry
import LayerNet.Backend.Selection
import LayerNet.Network.Options

/-!
Loaded networks. Loading resolves the shapes of a graph, gives every written tensor a buffer,
assigns each computing layer to a backend and creates its workload. A network runs its workloads
in topological order, on its own memory or on working memory that was made for it.
-/

set_option autoImplicit false
set_option relaxedAutoImplicit false

namespace LayerNet

/-- Why a network cannot be loaded or run. -/
inductive NetworkError
  | graph (error : GraphError)
  | validation (error : ValidationError)
  | tensor (error : TensorError)
  | unknownBackend (name : String)
  | noBackends
  | backend (layer : String) (error : BackendError)
  | unknownInput (binding : Int)
  | unknownOutput (binding : Int)
  | duplicateBinding (direction : Direction) (binding : Int)
  | inputNotSet (binding : Int)

def NetworkError.message : NetworkError → String
  | .graph error => error.message
  | .validation error => error.message
  | .tensor error => error.message
  | .unknownBackend name => s!"backend '{name}' is not registered"
  | .noBackends => "no backends to load the network onto"
  | .backend layer error => s!"layer '{layer}': " ++ error.message
  | .unknownInput binding => s!"no input layer is bound to id {binding}"
  | .unknownOutput binding => s!"no output layer is bound to id {binding}"
  | .duplicateBinding direction binding =>
    s!"{direction} binding id {binding} is used by more than one layer"
  | .inputNotSet binding => s!"input {binding} was never set"

def NetworkError.kind : NetworkError → String
  | .graph error => "Graph." ++ error.kind
  | .validation _ => "Validation"
  | .tensor error => "InvalidArgument." ++ error.kind
  | .unknownBackend _ => "UnknownBackend"
  | .noBackends => "NoBackends"
  | .backend _ error => "Backend." ++ error.kind
  | .unknownInput _ => "UnknownInput"
  | .unknownOutput _ => "UnknownOutput"
  | .duplicateBinding .. => "DuplicateBinding"
  | .inputNotSet _ => "InputNotSet"

/-- Memory for all tensors of a network, with the bindings by which callers name its ends and the
inputs that were written. -/
structure WorkingMemory where
  tensors : List (OutputRef × Handle)
  inputs : List (Int × OutputRef)
  outputs : List (Int × OutputRef)
  written : List Int := []
  deriving DecidableEq

/-- A workload in a network, with the tensors that it reads and writes. -/
structure Step where
  layer : LayerId
  name : String
  backend : String
  workload : Workload
  inputs : List OutputRef
  outputs : List OutputRef

structure LoadedNetwork where
  graph : Graph
  options : NetworkOptions
  factories : List Factory
  memory : WorkingMemory
  steps : List Step

namespace WorkingMemory

def handle? (m : WorkingMemory) (slot : OutputRef) : Option Handle :=
  (m.tensors.find? (·.1 = slot)).map (·.2)

def bind (m : WorkingMemory) (inputs outputs : List OutputRef) : BoundMemory :=
  { inputs := inputs.filterMap m.handle?, outputs := outputs.filterMap m.handle? }

def boundHandle? (m : WorkingMemory) (bindings : List (Int × OutputRef)) (binding : Int) :
    Option Handle := do
  let (_, slot) ← bindings.find? (·.1 == binding)
  m.handle? slot

/-- Writes an input. The input counts as written only if that succeeds. -/
def setInput (m : WorkingMemory) (binding : Int) (values : Array Single) :
    Action NetworkError WorkingMemory := do
  match m.boundHandle? m.inputs binding with
  | none => Action.refuse (.unknownInput binding)
  | some h =>
    let store ← Action.store
    Action.setStore (← Action.ofExcept ((store.write h values).mapError (·.map .tensor)))
    return { m with written := if binding ∈ m.written then m.written else binding :: m.written }

def output (m : WorkingMemory) (binding : Int) : Action NetworkError (Array Single) := do
  match m.boundHandle? m.outputs binding with
  | none => Action.refuse (.unknownOutput binding)
  | some h => Action.ofExcept (((← Action.store).read h).mapError (·.map .tensor))

/-- Refuses memory with an input that was never written, the least binding first. -/
def checkWritten (m : WorkingMemory) : Except NetworkError Unit :=
  match m.inputs.find? fun (binding, _) => binding ∉ m.written with
  | some (binding, _) => .error (.inputNotSet binding)
  | none => .ok ()

end WorkingMemory

/-- Puts a binding in its place among bindings in ascending order; nothing if it is taken. -/
def insertBinding? (binding : Int) (slot : OutputRef) :
    List (Int × OutputRef) → Option (List (Int × OutputRef))
  | [] => some [(binding, slot)]
  | (other, otherSlot) :: rest =>
    if binding < other then some ((binding, slot) :: (other, otherSlot) :: rest)
    else if binding = other then none
    else (insertBinding? binding slot rest).map ((other, otherSlot) :: ·)

namespace Graph

def producerOf (g : Graph) (target : InputRef) : Except NetworkError OutputRef :=
  match g.producer? target with
  | some source => .ok source
  | none =>
    let name := ((g.layer? target.layer).map (·.name)).getD target.layer.text
    .error (.validation ⟨name, .unconnected target.slot⟩)

/-- The input bindings with the slots that carry them, in ascending order. -/
def inputBindings (g : Graph) : Except NetworkError (List (Int × OutputRef)) :=
  g.inputLayers.foldlM (fun bindings (binding, id) =>
    match insertBinding? binding ⟨id, 0⟩ bindings with
    | some bindings => .ok bindings
    | none => .error (.duplicateBinding .input binding)) []

/-- The output bindings with the slots that carry them, in ascending order. -/
def outputBindings (g : Graph) : Except NetworkError (List (Int × OutputRef)) :=
  g.outputLayers.foldlM (fun bindings (binding, id) => do
    let source ← g.producerOf ⟨id, 0⟩
    match insertBinding? binding source bindings with
    | some bindings => return bindings
    | none => .error (.duplicateBinding .output binding)) []

def writtenSlots (g : Graph) (order : List LayerId) : List (OutputRef × TensorInfo) :=
  order.flatMap fun id =>
    match g.layer? id with
    | some l => l.outputInfos.zipIdx.map fun (info, slot) => (⟨id, slot⟩, info)
    | none => []

end Graph

namespace LoadedNetwork

/-- The step of a layer: a backend takes it and makes a configured workload of it. Boundary layers
have none. -/
def loadStep (g : Graph) (factories : List Factory) (memory : WorkingMemory) (id : LayerId) :
    Action NetworkError (Option Step) := do
  let l ← Action.attempt ((g.layer id).mapError .graph)
  if l.operator.isBoundary then return none
  else
    let request ← Action.attempt ((Request.ofGraph g id).mapError .validation)
    let (choice, request) ← Selection.select l.backendHint factories request
    let place ← Action.attempt (choice.mapError (.backend l.name))
    let inputs ← (List.range l.numInputs).mapM fun slot =>
      Action.attempt (g.producerOf ⟨id, slot⟩)
    let outputs := (List.range l.numOutputs).map fun slot => (⟨id, slot⟩ : OutputRef)
    let f ← Action.orCrash (Crash.nth factories place)
    let workload ← Action.mapError (.backend l.name)
      (f.create request (memory.bind inputs outputs))
    let workload ← Action.attempt (workload.configure.mapError (.backend l.name))
    return some { layer := id, name := l.name, backend := f.backend, workload, inputs, outputs }

def loadSteps (g : Graph) (factories : List Factory) (memory : WorkingMemory) :
    List LayerId → Action NetworkError (List Step)
  | [] => return []
  | id :: ids => do
    let step ← loadStep g factories memory id
    let steps ← loadSteps g factories memory ids
    return step.toList ++ steps

/-- New buffers of zeros for described tensors. -/
def allocate (slots : List (OutputRef × TensorInfo)) :
    Action NetworkError (List (OutputRef × Handle)) := do
  let handles ← Action.allocateAll (slots.map (·.2))
  return (slots.map (·.1)).zip handles

def loadOn (g : Graph) (factories : List Factory) (options : NetworkOptions) :
    Action NetworkError LoadedNetwork := do
  if factories.isEmpty then Action.refuse .noBackends
  else
    let (g, verdict) := g.inferShapes
    Action.attempt (verdict.mapError .validation)
    let order ← Action.attempt (g.topologicalOrder.mapError .graph)
    let tensors ← allocate (g.writtenSlots order)
    let inputs ← Action.attempt g.inputBindings
    let outputs ← Action.attempt g.outputBindings
    let memory : WorkingMemory := { tensors, inputs, outputs }
    let steps ← loadSteps g factories memory order
    Action.report (.loaded g.numLayers steps.length (factories.map Factory.backend))
    return { graph := g, options, factories, memory, steps }

def preferred (registry : Registry) (options : NetworkOptions) :
    Except NetworkError (List Factory) :=
  options.backendPreferences.mapM fun name =>
    match registry.find? name with
    | some f => .ok f
    | none => .error (.unknownBackend name)

def load (registry : Registry) (g : Graph) (options : NetworkOptions) :
    Action NetworkError LoadedNetwork := do
  loadOn g (← Action.attempt (preferred registry options)) options

def backendFor (n : LoadedNetwork) (id : LayerId) : Option String :=
  (n.steps.find? (·.layer = id)).map (·.backend)

def setInput (n : LoadedNetwork) (binding : Int) (values : Array Single) :
    Action NetworkError LoadedNetwork :=
  return { n with memory := ← n.memory.setInput binding values }

def output (n : LoadedNetwork) (binding : Int) : Action NetworkError (Array Single) :=
  n.memory.output binding

def newMemory (n : LoadedNetwork) : Action NetworkError WorkingMemory := do
  let tensors ← allocate (n.memory.tensors.map fun (slot, h) => (slot, h.info))
  return { n.memory with tensors, written := [] }

variable [LinearAlgebra]

def runSteps : List Step → Action NetworkError Unit
  | [] => return ()
  | step :: steps => do
    Action.report (.executing step.name step.workload.layer)
    Action.mapError (.backend step.name) step.workload.run
    runSteps steps

def runStepsOn (m : WorkingMemory) : List Step → Action NetworkError Unit
  | [] => return ()
  | step :: steps => do
    Action.report (.executingOnMemory step.name step.workload.layer)
    Action.mapError (.backend step.name)
      (step.workload.runOn (m.bind step.inputs step.outputs))
    runStepsOn m steps

def execute (n : LoadedNetwork) : Action NetworkError Unit := do
  if n.options.validateMemory then Action.attempt n.memory.checkWritten
  runSteps n.steps

def executeOn (n : LoadedNetwork) (m : WorkingMemory) : Action NetworkError Unit := do
  if n.options.validateMemory then Action.attempt m.checkWritten
  runStepsOn m n.steps

end LoadedNetwork

end LayerNet
