import LayerNet.Graph.LayerKind

/-!
Layer graphs. Layers sit in numbered places that are never reused, so a layer's number stays its
own after removals; edges lead from output slots to input slots.
-/

set_option autoImplicit false
set_option relaxedAutoImplicit false

namespace LayerNet

structure LayerId where
  index : Nat
  deriving DecidableEq, Repr, Inhabited

structure OutputRef where
  layer : LayerId
  slot : Nat
  deriving DecidableEq, Repr, Inhabited

structure InputRef where
  layer : LayerId
  slot : Nat
  deriving DecidableEq, Repr, Inhabited

/-- A connection of two slots. -/
structure Edge where
  source : OutputRef
  target : InputRef
  deriving DecidableEq, Repr

/-- What is known about a written tensor, and whether the user declared it. -/
structure OutputSlot where
  info : TensorInfo := {}
  declared : Bool := false
  deriving DecidableEq

structure Layer where
  name : String
  guid : Nat
  kind : LayerKind
  outputs : List OutputSlot
  backendHint : Option String := none
  deriving DecidableEq

/-- A graph of layers. An empty place is that of a removed layer. -/
structure Graph where
  layers : List (Option Layer) := []
  edges : List Edge := []
  deriving DecidableEq, Inhabited

/-- Why a request to a graph is refused. -/
inductive GraphError
  | unknownLayer (layer : LayerId)
  | outputSlotOutOfRange (layer : LayerId) (slot : Nat)
  | inputSlotOutOfRange (layer : LayerId) (slot : Nat)
  | alreadyConnected (target : InputRef)
  | cycle (source : OutputRef) (target : InputRef)
  | notConnected (source : OutputRef) (target : InputRef)
  | notAcyclic (layer : LayerId)
  deriving DecidableEq, Repr

def LayerId.text (id : LayerId) : String := "#" ++ toString id.index

instance : ToString LayerId := ⟨LayerId.text⟩

def OutputRef.text (r : OutputRef) : String := s!"{r.layer}.out[{r.slot}]"

instance : ToString OutputRef := ⟨OutputRef.text⟩

def InputRef.text (r : InputRef) : String := s!"{r.layer}.in[{r.slot}]"

instance : ToString InputRef := ⟨InputRef.text⟩

def GraphError.message : GraphError → String
  | .unknownLayer layer => s!"layer {layer} does not exist in this graph"
  | .outputSlotOutOfRange layer slot => s!"layer {layer} has no output slot {slot}"
  | .inputSlotOutOfRange layer slot => s!"layer {layer} has no input slot {slot}"
  | .alreadyConnected target => s!"input slot {target} is already connected"
  | .cycle source target => s!"connecting {source} -> {target} would introduce a cycle"
  | .notConnected source target => s!"no connection {source} -> {target}"
  | .notAcyclic layer => s!"graph contains a cycle through layer {layer}"

def GraphError.kind : GraphError → String
  | .unknownLayer .. => "UnknownLayer"
  | .outputSlotOutOfRange .. => "OutputSlotOutOfRange"
  | .inputSlotOutOfRange .. => "InputSlotOutOfRange"
  | .alreadyConnected .. => "AlreadyConnected"
  | .cycle .. => "Cycle"
  | .notConnected .. => "NotConnected"
  | .notAcyclic .. => "NotAcyclic"

namespace Layer

/-- A new layer; its output slots are as many as its kind says, and nothing is known of them. -/
def ofKind (kind : LayerKind) (name : String) (guid : Nat) : Layer :=
  { name, guid, kind, outputs := List.replicate kind.numOutputs {} }

def operator (l : Layer) : Operator := l.kind.operator

def numInputs (l : Layer) : Nat := l.kind.numInputs

def numOutputs (l : Layer) : Nat := l.outputs.length

/-- The number by which callers name a boundary layer. -/
def binding? (l : Layer) : Option Int := l.kind.binding?

def outputInfos (l : Layer) : List TensorInfo := l.outputs.map (·.info)

/-- The globally unique number of the layer in hexadecimal. -/
def guidText (l : Layer) : String := "0x" ++ hexText 1 l.guid

end Layer

namespace Graph

def layer? (g : Graph) (id : LayerId) : Option Layer := (g.layers[id.index]?).join

def layer (g : Graph) (id : LayerId) : Except GraphError Layer :=
  match g.layer? id with
  | some l => .ok l
  | none => .error (.unknownLayer id)

def liveLayers (g : Graph) : List (LayerId × Layer) :=
  g.layers.zipIdx.filterMap fun (place, index) => place.map fun l => (⟨index⟩, l)

def liveIds (g : Graph) : List LayerId := g.liveLayers.map (·.1)

def numLayers (g : Graph) : Nat := g.liveLayers.length

def setLayer (g : Graph) (id : LayerId) (l : Layer) : Graph :=
  { g with layers := g.layers.set id.index (some l) }

def outputInfo (g : Graph) (slot : OutputRef) : Except GraphError TensorInfo := do
  let l ← g.layer slot.layer
  match l.outputs[slot.slot]? with
  | some output => return output.info
  | none => .error (.outputSlotOutOfRange slot.layer slot.slot)

def checkOutput (g : Graph) (slot : OutputRef) : Except GraphError Unit := do
  let l ← g.layer slot.layer
  if slot.slot < l.numOutputs then return ()
  else .error (.outputSlotOutOfRange slot.layer slot.slot)

def checkInput (g : Graph) (slot : InputRef) : Except GraphError Unit := do
  let l ← g.layer slot.layer
  if slot.slot < l.numInputs then return ()
  else .error (.inputSlotOutOfRange slot.layer slot.slot)

def producer? (g : Graph) (target : InputRef) : Option OutputRef :=
  (g.edges.find? fun e => e.target = target).map (·.source)

def consumers (g : Graph) (source : OutputRef) : List InputRef :=
  (g.edges.filter fun e => e.source = source).map (·.target)

def inputLayers (g : Graph) : List (Int × LayerId) :=
  g.liveLayers.filterMap fun (id, l) =>
    match l.kind with
    | .input binding => some (binding, id)
    | _ => none

def outputLayers (g : Graph) : List (Int × LayerId) :=
  g.liveLayers.filterMap fun (id, l) =>
    match l.kind with
    | .output binding => some (binding, id)
    | _ => none

def inputLayer? (g : Graph) (binding : Int) : Option LayerId :=
  (g.inputLayers.find? (·.1 == binding)).map (·.2)

def outputLayer? (g : Graph) (binding : Int) : Option LayerId :=
  (g.outputLayers.find? (·.1 == binding)).map (·.2)

end Graph

end LayerNet
