import LayerNet.Network.Basic
import LayerNet.Proofs.Backend.Execution
import LayerNet.Proofs.Graph.Resolution

/-!
What the tensors of a graph stand for, apart from memory and order. An input stands for the values
last written to its binding, and for zeros if there were none. Every other tensor stands for what
the kernel of its layer's backend makes of the tensors that the layer reads.
-/

set_option autoImplicit false
set_option relaxedAutoImplicit false

namespace LayerNet

def KernelTable.ofName? (name : String) : Option KernelTable :=
  [ReferenceBackend.table, DenseBackend.table].find? (·.backend == name)

/-- The kernel table of the backend that runs a layer. -/
def LoadedNetwork.tableFor? (n : LoadedNetwork) (id : LayerId) : Option KernelTable :=
  (n.backendFor id).bind KernelTable.ofName?

namespace Graph

def sources? (g : Graph) (id : LayerId) : Option (List OutputRef) := do
  let l ← g.layer? id
  (List.range l.numInputs).mapM fun slot => g.producer? ⟨id, slot⟩

/-- The bytes that a tensor of a graph stands for, under an assignment of kernel tables to layers
and the values that were last written to the inputs. -/
inductive Evaluates [LinearAlgebra] (g : Graph) (assigned : LayerId → Option KernelTable)
    (written : Int → Option (Array Single)) : OutputRef → Bytes → Prop
  | untouched {id : LayerId} {l : Layer} {binding : Int} {info : TensorInfo}
    (live : g.layer? id = some l) (kind : l.kind = .input binding)
    (known : g.outputInfo ⟨id, 0⟩ = .ok info) (unset : written binding = none) :
    Evaluates g assigned written ⟨id, 0⟩ (Bytes.zeros info.numBytes)
  | set {id : LayerId} {l : Layer} {binding : Int} {info : TensorInfo} {values : Array Single}
    {data : Bytes}
    (live : g.layer? id = some l) (kind : l.kind = .input binding)
    (known : g.outputInfo ⟨id, 0⟩ = .ok info) (found : written binding = some values)
    (encoded : info.encodeNew values info.numBytes = .ok data) :
    Evaluates g assigned written ⟨id, 0⟩ data
  | computed {id : LayerId} {l : Layer} {request : Request} {table : KernelTable} {task : Task}
    {sources : List OutputRef} {inputs outputs : List Bytes} {slot : Nat} {data : Bytes}
    (live : g.layer? id = some l) (computes : l.operator.isBoundary = false)
    (asked : Request.ofGraph g id = .ok request) (backend : assigned id = some table)
    (built : table.build l.kind = .ok task) (fed : g.sources? id = some sources)
    (count : inputs.length = sources.length)
    (producers : ∀ (i : Nat) (source : OutputRef) (input : Bytes), sources[i]? = some source →
      inputs[i]? = some input → Evaluates g assigned written source input)
    (evaluated : task.evaluate request.signature inputs = .ok outputs)
    (result : outputs[slot]? = some data) :
    Evaluates g assigned written ⟨id, slot⟩ data

theorem Evaluates.unique [LinearAlgebra] {g : Graph} {assigned : LayerId → Option KernelTable}
    {written : Int → Option (Array Single)} {slot : OutputRef} {a b : Bytes}
    (first : Evaluates g assigned written slot a) (second : Evaluates g assigned written slot b) :
    a = b := by
  -- The layer of a slot and what was written tell which rule applies, so both derivations end in
  -- the same one.
  induction first generalizing b with
  | untouched live kind known unset =>
    cases second with
    | untouched _ _ known' _ =>
      cases known.symm.trans known'
      rfl
    | set live' kind' known' found' _ =>
      cases live.symm.trans live'
      cases kind.symm.trans kind'
      cases unset.symm.trans found'
    | computed live' computes =>
      cases live.symm.trans live'
      cases (Graph.isBoundary_of_input kind).symm.trans computes
  | set live kind known found encoded =>
    cases second with
    | untouched live' kind' _ unset' =>
      cases live.symm.trans live'
      cases kind.symm.trans kind'
      cases found.symm.trans unset'
    | set live' kind' known' found' encoded' =>
      cases live.symm.trans live'
      cases kind.symm.trans kind'
      cases known.symm.trans known'
      cases found.symm.trans found'
      cases encoded.symm.trans encoded'
      rfl
    | computed live' computes =>
      cases live.symm.trans live'
      cases (Graph.isBoundary_of_input kind).symm.trans computes
  | @computed id l request table task sources inputs outputs slot data live computes asked backend
    built fed count producers evaluated result ih =>
    cases second with
    | untouched live' kind' =>
      cases live.symm.trans live'
      cases (Graph.isBoundary_of_input kind').symm.trans computes
    | set live' kind' =>
      cases live.symm.trans live'
      cases (Graph.isBoundary_of_input kind').symm.trans computes
    | @computed _ _ _ _ _ _ inputs' _ _ _ live' _ asked' backend' built' fed' count' producers'
      evaluated' result' =>
      cases live.symm.trans live'
      cases asked.symm.trans asked'
      cases backend.symm.trans backend'
      cases built.symm.trans built'
      cases fed.symm.trans fed'
      have same : inputs = inputs' := by
        refine List.ext_getElem (count.trans count'.symm) fun i inside inside' => ?_
        have found : sources[i]? = some sources[i] := List.getElem?_eq_getElem (count ▸ inside)
        exact ih i _ _ found (List.getElem?_eq_getElem inside)
          (producers' i _ _ found (List.getElem?_eq_getElem inside'))
      subst same
      cases evaluated.symm.trans evaluated'
      exact Option.some.inj (result.symm.trans result')

end Graph

end LayerNet
