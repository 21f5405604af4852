import LayerNet.Proofs.Graph.Pooling
import LayerNet.Proofs.Graph.Propagation
import LayerNet.Proofs.Tensor.Sizes

/-!
Graphs whose tensors are small enough to be counted in words. All that a run of such a graph counts
is the same in every arithmetic: the sizes, codecs and strides of its tensors and constants, and the
places and areas of its pooling windows.
-/

set_option autoImplicit false
set_option relaxedAutoImplicit false

namespace LayerNet

namespace Graph

variable {g g' : Graph}

/-- The tensors that the layers of the graph write, its constants and the windows of its pooling
layers are small enough to be counted in words. -/
structure Sized (g : Graph) : Prop where
  slots : ∀ id l, g.layer? id = some l → ∀ info ∈ l.outputInfos, info.Sized
  constants : ∀ id l, g.layer? id = some l → ∀ c ∈ l.kind.constants, c.info.Sized
  windows : ∀ id l p input shape, g.layer? id = some l → l.kind = .pooling2d p →
    g.inputInfos id = .ok [input] → input.dims = shape.toList → p.Sized shape

/-- What is counted for the graph is the same in every arithmetic. Pooling runs to its end in each,
with one result. -/
structure Exact (g : Graph) : Prop where
  slots : ∀ id l, g.layer? id = some l → ∀ info ∈ l.outputInfos, info.Exact
  constants : ∀ id l, g.layer? id = some l → ∀ c ∈ l.kind.constants, c.info.Exact
  windows : ∀ id l p input output shape values, g.layer? id = some l → l.kind = .pooling2d p →
    g.inputInfos id = .ok [input] → l.outputInfos = [output] → input.dims = shape.toList →
    values.size = input.numElements →
      ∃ outShape result, output.dims = outShape.toList ∧
        ∀ a, p.compute shape outShape outShape.count values a = .ok result

theorem exists_output_of_pooling {id : LayerId} {l : Layer} {p : Pooling}
    {input output : TensorInfo} (inferred : g.inferShapes = (g', .ok ()))
    (live : g'.layer? id = some l) (pools : l.kind = .pooling2d p)
    (read : g'.inputInfos id = .ok [input]) (written : l.outputInfos = [output]) :
    ∃ result, p.output input = .ok result ∧ output.shape = result.shape := by
  obtain ⟨before, -, inputs, infos, outputs, read', inference, resolved, found⟩ :=
    settled_of_inferShapes inferred live
  cases read.symm.trans read'
  cases live.symm.trans found
  have kind : before.kind = .pooling2d p := pools
  have one : outputs.length = 1 := by
    have listed := congrArg List.length written
    rwa [Layer.outputInfos, List.length_map] at listed
  -- A pooling layer infers a single tensor, and resolving keeps its shape.
  have single : ∃ result, p.output input = .ok result ∧ [result] = infos := by
    unfold Layer.inferOutputs at inference
    split at inference
    · cases inference
    · simpa only [kind, Except.bind_eq_ok_iff, Except.pure_eq_ok_iff] using inference
  obtain ⟨result, made, rfl⟩ := single
  have shapes := OutputSlot.shapes_of_resolveAll resolved one
  have only : outputs.map (·.info) = [output] := written
  rw [only] at shapes
  exact ⟨result, made, List.head_eq_of_cons_eq shapes⟩

theorem Sized.exact (sized : g'.Sized) (inferred : g.inferShapes = (g', .ok ()))
    (fitting : ∀ id l, g'.layer? id = some l → ∀ info ∈ l.outputInfos, info.Fitting) :
    g'.Exact where
  slots id l live info member := (sized.slots id l live info member).exact
  constants id l live c member := (sized.constants id l live c member).exact
  windows id l p input output shape values live pools read written extents whole := by
    obtain ⟨result, inference, shaped⟩ :=
      exists_output_of_pooling inferred live pools read written
    have dims : output.dims = result.dims := congrArg Shape.dims shaped
    have room : result.numElements < Crash.capacity := by
      have fits := fitting id l live output (written ▸ List.mem_cons_self)
      rw [TensorInfo.numElements, ← shaped]
      exact fits.numElements_lt
    obtain ⟨outShape, pooled, extents', computed, -⟩ :=
      Pooling.exists_pools_of_sized extents inference whole
        (sized.windows id l p input shape live pools read extents) room
    exact ⟨outShape, pooled, dims.trans extents', computed⟩

end Graph

end LayerNet
