import LayerNet.Backend.Request
import LayerNet.Kernel.Basic
import LayerNet.Kernel.Gather

/-!
Workloads: what a backend makes of a request. A workload keeps the memory that it was created
with, and runs on it or on other memory of the same signature.
-/

set_option autoImplicit false
set_option relaxedAutoImplicit false

namespace LayerNet

/-- What a workload does when it runs: a kernel between decoding and encoding, a gather that reads
and writes its memory directly, or nothing. -/
inductive Task
  | kernel (kernel : Kernel)
  | gather
  | idle

structure Codecs where
  inputs : List Codec
  outputs : List Codec
  deriving DecidableEq

structure Workload where
  layer : String
  task : Task
  signature : Signature
  memory : BoundMemory
  codecs : Option Codecs := none

namespace Codecs

def resolve (inputs outputs : List TensorInfo) : Except TensorError Codecs := do
  return { inputs := ← inputs.mapM Codec.ofInfo, outputs := ← outputs.mapM Codec.ofInfo }

def ofSignature (s : Signature) : Except TensorError Codecs := resolve s.inputs s.outputs

def ofMemory (m : BoundMemory) : Except TensorError Codecs :=
  resolve (m.inputs.map (·.info)) (m.outputs.map (·.info))

def decodeInputs (c : Codecs) (store : Store) (m : BoundMemory) :
    Except Crash (List (Array Single)) :=
  (m.inputs.zip c.inputs).mapM fun (h, codec) => codec.decode (store.bytes h)

/-- Writes vectors into outputs one after the other. What was written before a failure stays
written. -/
def encodeEach : List (Handle × Codec) → List (Array Single) → Action BackendError Unit
  | (h, codec) :: targets, values :: rest => do
    if values.size ≠ h.info.numElements then
      Action.refuse (.execution (.outputSize values.size h.info.numElements))
    else
      let store ← Action.store
      let (data, crash) := codec.encode values (store.bytes h)
      Action.setStore (store.setBytes h data)
      match crash with
      | some crash => Action.orCrash (.error crash)
      | none => encodeEach targets rest
  | _, _ => return ()

def encodeOutputs (c : Codecs) (m : BoundMemory) (values : List (Array Single)) :
    Action BackendError Unit :=
  if values.length ≠ m.outputs.length then
    Action.refuse (.execution (.outputCount values.length m.outputs.length))
  else encodeEach (m.outputs.zip c.outputs) values

end Codecs

namespace Workload

def checkMemory (w : Workload) (m : BoundMemory) : Action BackendError Unit := do
  let store ← Action.store
  Action.attempt ((BoundMemory.check store w.signature m).mapError (.malformed w.layer))

def create (request : Request) (task : Task) (memory : BoundMemory) :
    Action BackendError Workload := do
  let w : Workload := { layer := request.layer, task, signature := request.signature, memory }
  w.checkMemory memory
  return w

/-- The workload made ready to run on its own memory. -/
def configure (w : Workload) : Except BackendError Workload :=
  match w.task with
  | .kernel _ => do
    let codecs ← (Codecs.ofSignature w.signature).mapError .tensor
    return { w with codecs := some codecs }
  | .gather | .idle => .ok w

variable [LinearAlgebra]

def runKernel (w : Workload) (kernel : Kernel) (codecs : Codecs) (m : BoundMemory) :
    Action BackendError Unit := do
  let values ← Action.orCrash (codecs.decodeInputs (← Action.store) m)
  let results ← Action.ofExcept (kernel.compute w.signature values)
  codecs.encodeOutputs m results

/-- Gathers from the first input what the second addresses into the first output. -/
def runGather (m : BoundMemory) : Action BackendError Unit := do
  let store ← Action.store
  let params ← Action.orCrash (Crash.nth m.inputs 0)
  let indices ← Action.orCrash (Crash.nth m.inputs 1)
  let paramValues ← Action.ofExcept ((store.read params).mapError (·.map .tensor))
  let indexValues ← Action.ofExcept ((store.read indices).mapError (·.map .tensor))
  let values ← Action.ofExcept ((Gather.compute params.info.dims indices.info.dims paramValues
    indexValues).mapError (·.map .execution))
  let output ← Action.orCrash (Crash.nth m.outputs 0)
  Action.setStore (← Action.ofExcept ((store.write output values).mapError (·.map .tensor)))

def runOn (w : Workload) (m : BoundMemory) : Action BackendError Unit := do
  w.checkMemory m
  match w.task with
  | .kernel kernel =>
    let codecs ← Action.attempt ((Codecs.ofMemory m).mapError .tensor)
    w.runKernel kernel codecs m
  | .gather => runGather m
  | .idle => return ()

def run (w : Workload) : Action BackendError Unit :=
  match w.task with
  | .kernel kernel =>
    match w.codecs with
    | some codecs => w.runKernel kernel codecs w.memory
    | none => Action.refuse (.execution (.notConfigured w.layer))
  | .gather => w.runOn w.memory
  | .idle => return ()

end Workload

end LayerNet
