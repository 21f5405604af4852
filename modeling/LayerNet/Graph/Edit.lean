import LayerNet.Graph.Order
import LayerNet.Tensor.Change

/-!
Changing graphs in place. Every new layer takes the next number of a supply that is shared by all
graphs, so that no two layers of any graphs have the same number.
-/

set_option autoImplicit false
set_option relaxedAutoImplicit false

namespace LayerNet

/-- The numbers that have not been given to a layer yet: all from `next` on. -/
structure GuidSupply where
  next : Nat := 1
  deriving DecidableEq, Repr

def GuidSupply.take : StateM GuidSupply Nat := do
  let supply ← get
  set ({ next := supply.next + 1 } : GuidSupply)
  return supply.next

def Layer.duplicate (l : Layer) : StateM GuidSupply Layer :=
  return { l with guid := ← GuidSupply.take }

namespace Graph

def insert (g : Graph) (l : Layer) : LayerId × Graph :=
  (⟨g.layers.length⟩, { g with layers := g.layers ++ [some l] })

def addLayer (g : Graph) (kind : LayerKind) (name : String) :
    StateM GuidSupply (LayerId × Graph) :=
  return g.insert (.ofKind kind name (← GuidSupply.take))

def addInput (g : Graph) (binding : Int) (name : String) (info : TensorInfo) :
    StateM GuidSupply (LayerId × Graph) := do
  let l := Layer.ofKind (.input binding) name (← GuidSupply.take)
  return g.insert { l with outputs := [{ info, declared := true }] }

def addOutput (g : Graph) (binding : Int) (name : String) :
    StateM GuidSupply (LayerId × Graph) :=
  g.addLayer (.output binding) name

end Graph

abbrev GraphEdit (α : Type) := Change GraphError Graph α

namespace GraphEdit

open Change (attempt refuseIf)

/-- Removes a layer and every edge at it; its place stays empty. -/
def removeLayer (id : LayerId) : GraphEdit Layer := do
  let l ← attempt ((← get).layer id)
  modify fun g => { g with layers := g.layers.set id.index none }
  modify fun g =>
    { g with edges := g.edges.filter fun e => e.source.layer ≠ id ∧ e.target.layer ≠ id }
  return l

def setOutputInfo (slot : OutputRef) (info : TensorInfo) : GraphEdit Unit := do
  let l ← attempt ((← get).layer slot.layer)
  refuseIf (l.outputs.length ≤ slot.slot) (.outputSlotOutOfRange slot.layer slot.slot)
  modify fun g => g.setLayer slot.layer
    { l with outputs := l.outputs.set slot.slot { info, declared := true } }

def setHint (id : LayerId) (hint : Option String) : GraphEdit Unit := do
  let l ← attempt ((← get).layer id)
  modify fun g => g.setLayer id { l with backendHint := hint }

/-- Connects two slots. The input slot must be free, and no path may lead back from its layer. -/
def connect (source : OutputRef) (target : InputRef) : GraphEdit Unit := do
  attempt ((← get).checkOutput source)
  attempt ((← get).checkInput target)
  refuseIf ((← get).producer? target).isSome (.alreadyConnected target)
  refuseIf ((← get).reaches target.layer source.layer) (.cycle source target)
  modify fun g => { g with edges := g.edges ++ [⟨source, target⟩] }

def disconnect (source : OutputRef) (target : InputRef) : GraphEdit Unit := do
  attempt ((← get).checkOutput source)
  attempt ((← get).checkInput target)
  refuseIf ((⟨source, target⟩ : Edge) ∉ (← get).edges) (.notConnected source target)
  modify fun g => { g with edges := g.edges.erase ⟨source, target⟩ }

end GraphEdit

namespace Graph

def removeLayer (g : Graph) (id : LayerId) : Except GraphError (Layer × Graph) :=
  (GraphEdit.removeLayer id).apply g

def setOutputInfo (g : Graph) (slot : OutputRef) (info : TensorInfo) :
    Except GraphError Graph := (GraphEdit.setOutputInfo slot info).result g

def setHint (g : Graph) (id : LayerId) (hint : Option String) : Except GraphError Graph :=
  (GraphEdit.setHint id hint).result g

def connect (g : Graph) (source : OutputRef) (target : InputRef) : Except GraphError Graph :=
  (GraphEdit.connect source target).result g

def disconnect (g : Graph) (source : OutputRef) (target : InputRef) : Except GraphError Graph :=
  (GraphEdit.disconnect source target).result g

/-- Copies a layer, without its connections, to the next place of another graph. -/
def cloneLayer (g : Graph) (id : LayerId) (target : Graph) :
    ExceptT GraphError (StateM GuidSupply) (LayerId × Graph) := do
  match g.layer id with
  | .ok l => return target.insert (← l.duplicate)
  | .error error => throw error

def renamed (mapping : List (LayerId × LayerId)) (id : LayerId) : Option LayerId :=
  (mapping.find? (·.1 == id)).map (·.2)

def renameEdge (mapping : List (LayerId × LayerId)) (e : Edge) : Option Edge := do
  let source ← renamed mapping e.source.layer
  let target ← renamed mapping e.target.layer
  return ⟨⟨source, e.source.slot⟩, ⟨target, e.target.slot⟩⟩

/-- Copies the living layers, under new numbers, into places without gaps, and the edges with
them. Answers the copy and the pairs of old and new places. -/
def deepClone (g : Graph) : StateM GuidSupply (Graph × List (LayerId × LayerId)) := do
  let live := g.liveLayers
  let copies ← live.mapM fun (_, l) => l.duplicate
  let mapping := live.zipIdx.map fun ((id, _), index) => (id, (⟨index⟩ : LayerId))
  return ({ layers := copies.map some, edges := g.edges.filterMap (renameEdge mapping) }, mapping)

end Graph

end LayerNet
