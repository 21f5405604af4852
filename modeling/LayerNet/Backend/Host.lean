import LayerNet.Backend.Journal
import LayerNet.Memory.Store

/-!
The host that backends and networks work on: its tensor memory and its journal. An action changes
the host and may end early; what it has changed until then stays changed.
-/

set_option autoImplicit false
set_option relaxedAutoImplicit false

namespace LayerNet

structure Host where
  store : Store := {}
  journal : Journal := {}

abbrev Action (ε : Type) := ExceptT (Stop ε) (StateM Host)

namespace Action

variable {ε δ α : Type}

def ofExcept (answer : Except (Stop ε) α) : Action ε α := ExceptT.mk (pure answer)

def refuse (error : ε) : Action ε α := ofExcept (.error (.refused error))

def attempt (answer : Except ε α) : Action ε α := ofExcept (answer.mapError .refused)

def orCrash (answer : Except Crash α) : Action ε α := ofExcept (LayerNet.orCrash answer)

def mapError (f : ε → δ) (action : Action ε α) : Action δ α :=
  ExceptT.mk (do return (← action.run).mapError (·.map f))

def store : Action ε Store := return (← get).store

def setStore (store : Store) : Action ε Unit := modify fun host => { host with store }

def report (event : Event) : Action ε Unit :=
  modify fun host => { host with journal := host.journal.report event }

/-- New buffers of zeros, one for each description. -/
def allocateAll (infos : List TensorInfo) : Action ε (List Handle) := do
  let (handles, store) ← Action.orCrash ((← Action.store).allocateAll infos)
  setStore store
  return handles

end Action

end LayerNet
