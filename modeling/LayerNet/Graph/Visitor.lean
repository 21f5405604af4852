import LayerNet.Graph.Order

/-!
Walking over the layers of a graph with one action for each kind of layer.
-/

set_option autoImplicit false
set_option relaxedAutoImplicit false

namespace LayerNet

/-- An action for each kind of layer on a state; an action that is not given does nothing. -/
structure Visitor (σ : Type) where
  input : Layer → Int → σ → σ := fun _ _ s => s
  output : Layer → Int → σ → σ := fun _ _ s => s
  addition : Layer → σ → σ := fun _ s => s
  multiplication : Layer → σ → σ := fun _ s => s
  fullyConnected : Layer → AffineMap → σ → σ := fun _ _ s => s
  pooling2d : Layer → Pooling → σ → σ := fun _ _ s => s
  l2Normalization : Layer → Normalization → σ → σ := fun _ _ s => s
  slice : Layer → Window → σ → σ := fun _ _ s => s
  gatherNd : Layer → σ → σ := fun _ s => s

namespace Visitor

def visitLayer {σ : Type} (v : Visitor σ) (l : Layer) (s : σ) : σ :=
  match l.kind with
  | .input binding => v.input l binding s
  | .output binding => v.output l binding s
  | .addition => v.addition l s
  | .multiplication => v.multiplication l s
  | .fullyConnected map => v.fullyConnected l map s
  | .pooling2d pooling => v.pooling2d l pooling s
  | .l2Normalization normalization => v.l2Normalization l normalization s
  | .slice window => v.slice l window s
  | .gatherNd => v.gatherNd l s

def visitLayers {σ : Type} (v : Visitor σ) (g : Graph) : List LayerId → σ → Except GraphError σ
  | [], s => .ok s
  | id :: ids, s => do
    let l ← g.layer id
    v.visitLayers g ids (v.visitLayer l s)

def visit {σ : Type} (v : Visitor σ) (g : Graph) (s : σ) : Except GraphError σ := do
  v.visitLayers g (← g.topologicalOrder) s

end Visitor

end LayerNet
