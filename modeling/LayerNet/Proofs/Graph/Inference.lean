import LayerNet.Proofs.Backend.Totality
import LayerNet.Proofs.Graph.Wiring

/-!
Shape inference and the backends agree. The tensors that inference gives to a layer fit each other
as the backends ask, with outputs that have the extents for what the layer writes. In topological
order a layer's inputs are settled before the layer is, so this holds of the graph that is left.
-/

set_option autoImplicit false
set_option relaxedAutoImplicit false

namespace LayerNet

namespace TensorInfo

variable {t info : TensorInfo} {s : Shape}

theorem of_setShape_eq_ok (h : t.setShape s = .ok info) : info = { t with shape := s } := by
  rw [setShape_eq] at h
  split at h
  · simp only [Except.bind_eq_ok_iff, Except.pure_eq_ok_iff] at h
    obtain ⟨-, -, rfl⟩ := h
    rfl
  · cases h
    rfl

def Reshapes (t info : TensorInfo) : Prop := ∃ shape, t.reshaped shape = .ok info

theorem of_reshaped_eq_ok (h : t.reshaped s = .ok info) :
    info.shape = s ∧ info.elementType = t.elementType := by
  unfold reshaped at h
  split at h
  · cases h
    exact ⟨rfl, rfl⟩
  · rw [of_setShape_eq_ok (Except.mapError_eq_ok_iff.mp h)]
    exact ⟨rfl, rfl⟩

end TensorInfo

section Kinds

variable {lhs rhs input output : TensorInfo}

theorem Elementwise.agrees_of_output {info : TensorInfo} (h : elementwiseOutput lhs rhs = .ok info)
    (same : output.shape = info.shape) :
    Agrees lhs rhs output ∧ output.shape.isSpecified = true ∧ lhs.Reshapes info := by
  unfold elementwiseOutput at h
  split at h
  · cases h
  · rename_i types
    simp only [Except.bind_eq_ok_iff] at h
    obtain ⟨shape, paired, made⟩ := h
    have shapes : output.shape = shape := same.trans (TensorInfo.of_reshaped_eq_ok made).1
    refine ⟨⟨not_not.mp types, shapes ▸ paired⟩, ?_, shape, made⟩
    exact shapes ▸ (Shape.broadcast_eq_ok_iff.mp paired).1

theorem AffineMap.agrees_of_output {m : AffineMap} {info : TensorInfo}
    (h : m.output input = .ok info) (same : output.shape = info.shape) :
    m.Agrees input output ∧ output.shape.isSpecified = true ∧ input.Reshapes info := by
  unfold AffineMap.output at h
  split at h
  · rename_i batch next rest read
    simp only [Except.bind_eq_ok_iff] at h
    obtain ⟨⟨inputs, outputs⟩, counted, h⟩ := h
    split at h
    · cases h
    · rename_i flat
      rw [Except.bind_eq_ok_iff] at h
      obtain ⟨shape, inferred, made⟩ := h
      have shapes : output.shape = shape := same.trans (TensorInfo.of_reshaped_eq_ok made).1
      obtain ⟨dims, known⟩ := Shape.inferred_eq_ok_iff.mp inferred
      exact ⟨⟨batch, next, rest, inputs, outputs, counted, read, not_not.mp flat,
        (congrArg Shape.dims shapes).trans dims⟩, shapes ▸ known, shape, made⟩
  · cases h

theorem Pooling.positive_of_pooledExtent {rounding : ExtentRounding}
    {extent low high pool stride count : Nat}
    (h : rounding.pooledExtent extent low high pool stride = some count) :
    stride ≠ 0 ∧ pool ≠ 0 := by
  unfold ExtentRounding.pooledExtent at h
  simp only at h
  split at h
  · cases h
  · rename_i positive
    rw [not_or, not_or] at positive
    exact ⟨positive.1, positive.2.1⟩

theorem Pooling.agrees_of_output {p : Pooling} {info : TensorInfo} (h : p.output input = .ok info)
    (same : output.shape = info.shape) :
    p.Agrees input output ∧ (LayerKind.pooling2d p).OutputFits [input] [output] ∧
      output.shape.isSpecified = true ∧ input.Reshapes info := by
  unfold Pooling.output at h
  split at h
  · cases h
  · rename_i dims read
    simp only at h
    split at h
    · cases h
    · cases h
    · rename_i rows columns tall wide
      have shapes := same.trans (TensorInfo.of_reshaped_eq_ok h).1
      obtain ⟨strideY, poolHeight⟩ := positive_of_pooledExtent tall
      obtain ⟨strideX, poolWidth⟩ := positive_of_pooledExtent wide
      have extents : input.dims = dims.toList := Quad.ofList?_eq_some_iff.mp read
      have written : output.dims =
          (p.layout.arrange dims.first (p.layout.channels dims) rows columns).toList :=
        congrArg Shape.dims shapes
      refine ⟨⟨?_, ?_, ?_⟩, ?_, ?_, _, h⟩
      · exact congrArg List.length extents
      · exact congrArg List.length written
      · simp [strideX, strideY, poolWidth, poolHeight]
      · intro inShape outShape quad quad'
        rw [quadOf, extents] at quad
        rw [quadOf, written] at quad'
        cases quad
        cases quad'
        exact placesFit_of_eq (p.layout.first_arrange _ _ _ _) (p.layout.channels_arrange _ _ _ _)
      · rw [shapes]
        rfl

theorem Normalization.agrees_of_output {d : Normalization} {info : TensorInfo}
    (h : d.output input = .ok info) (same : output.shape = info.shape) :
    d.Agrees input output ∧ input.Reshapes info := by
  unfold Normalization.output at h
  split at h
  · cases h
  · rename_i rank
    split at h
    · cases h
    · rename_i positive
      exact ⟨⟨Nat.le_of_not_lt rank, (same.trans (TensorInfo.of_reshaped_eq_ok h).1).symm,
        not_not.mp positive⟩, _, h⟩

theorem Window.fitsAll_of_checkFrom {axis : Nat} {begins sizes dims : List Nat}
    (h : checkFrom axis begins sizes dims = .ok ()) : fitsAll true begins sizes dims = true := by
  induction begins generalizing axis sizes dims with
  | nil => rfl
  | cons start begins ih =>
    rcases sizes with _ | ⟨size, sizes⟩
    · rfl
    · rcases dims with _ | ⟨extent, dims⟩
      · rfl
      · unfold checkFrom at h
        split at h
        · rename_i inside
          have rest := ih h
          unfold fits at inside
          simpa [fitsAll, rest] using inside
        · cases h

theorem Window.agrees_of_output {w : Window} {info : TensorInfo} (h : w.output input = .ok info)
    (same : output.shape = info.shape) :
    w.Agrees input output ∧ output.shape.isSpecified = true ∧ input.Reshapes info := by
  unfold Window.output at h
  split at h
  · cases h
  · rename_i rank
    rw [not_or, not_not, not_not] at rank
    simp only [Except.bind_eq_ok_iff] at h
    obtain ⟨⟨⟩, checked, shape, inferred, made⟩ := h
    have shapes : output.shape = shape := same.trans (TensorInfo.of_reshaped_eq_ok made).1
    obtain ⟨dims, known⟩ := Shape.inferred_eq_ok_iff.mp inferred
    exact ⟨⟨rank.1, rank.2, fitsAll_of_checkFrom checked, (congrArg Shape.dims shapes).trans dims⟩,
      shapes ▸ known, shape, made⟩

private theorem Gather.numTuples {indices : TensorInfo} (filled : indices.dims.getLastD 0 ≠ 0) :
    indices.numElements / indices.dims.getLastD 0 = indices.dims.dropLast.prod := by
  have extents : indices.dims ≠ [] := by
    intro empty
    rw [empty] at filled
    exact filled rfl
  have last : indices.dims.dropLast ++ [indices.dims.getLastD 0] = indices.dims := by
    rw [List.getLastD_eq_getLast?, List.getLast?_eq_some_getLast extents]
    exact List.dropLast_append_getLast extents
  have count : indices.numElements = indices.dims.dropLast.prod * indices.dims.getLastD 0 :=
    calc indices.numElements = indices.dims.prod := if_neg extents
      _ = (indices.dims.dropLast ++ [indices.dims.getLastD 0]).prod := by rw [last]
      _ = indices.dims.dropLast.prod * indices.dims.getLastD 0 := by
        rw [List.prod_append, List.prod_singleton]
  rw [count]
  exact Nat.mul_div_cancel _ (Nat.pos_of_ne_zero filled)

theorem Gather.agrees_of_output {params indices info : TensorInfo}
    (h : gatherOutput params indices = .ok info) (same : output.shape = info.shape) :
    Agrees params indices ∧ LayerKind.gatherNd.OutputFits [params, indices] [output] ∧
      output.shape.isSpecified = true ∧ params.Reshapes info := by
  unfold gatherOutput at h
  split at h
  · cases h
  · rename_i integer
    simp only at h
    split at h
    · cases h
    · rename_i depth
      simp only [Except.bind_eq_ok_iff] at h
      obtain ⟨shape, inferred, made⟩ := h
      have shapes : output.shape = shape := same.trans (TensorInfo.of_reshaped_eq_ok made).1
      obtain ⟨dims, known⟩ := Shape.inferred_eq_ok_iff.mp inferred
      have known : output.shape.isSpecified = true := shapes ▸ known
      refine ⟨⟨not_not.mp integer, depth⟩, ?_, known, shape, made⟩
      have written : output.dims.prod = indices.dims.dropLast.prod *
          (params.dims.drop (indices.dims.getLastD 0)).prod := by
        rw [TensorInfo.dims, shapes, dims, ← List.prod_append]
        split
        · rename_i empty
          rw [List.isEmpty_iff.mp empty]
          rfl
        · rfl
      change output.numElements = _
      rw [numTuples (not_or.mp depth).1, TensorInfo.numElements_of_known known, written]

end Kinds

namespace Layer

variable {l : Layer} {inputs infos outputs : List TensorInfo}

theorem known_of_inferOutputs (h : l.inferOutputs inputs = .ok infos) :
    ∀ info ∈ inputs, info.shape.isSpecified = true := by
  unfold inferOutputs at h
  split at h
  · cases h
  · rename_i none
    intro info member
    simpa using List.findIdx?_eq_none_iff.mp none info member

private theorem exists_single {made : Except ShapeFault TensorInfo}
    (h : (made >>= fun info => pure [info]) = .ok infos)
    (same : outputs.map (·.shape) = infos.map (·.shape)) :
    ∃ info output, made = .ok info ∧ infos = [info] ∧ outputs = [output] ∧
      output.shape = info.shape := by
  simp only [Except.bind_eq_ok_iff, Except.pure_eq_ok_iff] at h
  obtain ⟨info, inferred, rfl⟩ := h
  obtain ⟨output, rfl⟩ := List.length_eq_one_iff.mp (by simpa using congrArg List.length same)
  exact ⟨info, output, inferred, rfl, rfl, by simpa using same⟩

/-- The tensors that a layer reads, and outputs of the shapes that are inferred from them, fit. What
is inferred is what the layer reads first in another shape. -/
theorem agrees_of_inferOutputs (h : l.inferOutputs inputs = .ok infos)
    (computes : l.operator.isBoundary = false)
    (same : outputs.map (·.shape) = infos.map (·.shape)) :
    l.kind.Agrees inputs outputs ∧ l.kind.OutputFits inputs outputs ∧
      (∀ info ∈ inputs ++ outputs, info.shape.isSpecified = true) ∧
        ∀ info ∈ infos, ∃ first ∈ inputs.head?, first.Reshapes info := by
  have known := known_of_inferOutputs h
  have all : ∀ output : TensorInfo, output.shape.isSpecified = true →
      ∀ info ∈ inputs ++ [output], info.shape.isSpecified = true := fun output written =>
    List.forall_mem_append.mpr ⟨known, (List.forall_mem_singleton (a := output)).mpr written⟩
  have only : ∀ {first info : TensorInfo} {rest : List TensorInfo}, first.Reshapes info →
      ∀ i ∈ [info], ∃ f ∈ (first :: rest).head?, f.Reshapes i := fun {first info _} reshapes =>
    (List.forall_mem_singleton (a := info)).mpr ⟨first, rfl, reshapes⟩
  -- One case for each kind; those that compute infer a single tensor.
  unfold inferOutputs at h
  split at h
  · cases h
  · split at h
    case h_1 kind _ => simp [operator, kind, LayerKind.operator, Operator.isBoundary] at computes
    case h_2 kind _ => simp [operator, kind, LayerKind.operator, Operator.isBoundary] at computes
    case h_3 kind _ =>
      obtain ⟨info, output, inferred, rfl, rfl, shape⟩ := exists_single h same
      obtain ⟨agrees, written, reshapes⟩ := Elementwise.agrees_of_output inferred shape
      rw [kind]
      exact ⟨.addition agrees, trivial, all output written, only reshapes⟩
    case h_4 kind _ =>
      obtain ⟨info, output, inferred, rfl, rfl, shape⟩ := exists_single h same
      obtain ⟨agrees, written, reshapes⟩ := Elementwise.agrees_of_output inferred shape
      rw [kind]
      exact ⟨.multiplication agrees, trivial, all output written, only reshapes⟩
    case h_5 kind _ =>
      obtain ⟨info, output, inferred, rfl, rfl, shape⟩ := exists_single h same
      obtain ⟨agrees, written, reshapes⟩ := AffineMap.agrees_of_output inferred shape
      rw [kind]
      exact ⟨.fullyConnected agrees, trivial, all output written, only reshapes⟩
    case h_6 kind _ =>
      obtain ⟨info, output, inferred, rfl, rfl, shape⟩ := exists_single h same
      obtain ⟨agrees, fits, written, reshapes⟩ := Pooling.agrees_of_output inferred shape
      rw [kind]
      exact ⟨.pooling2d agrees, fits, all output written, only reshapes⟩
    case h_7 kind _ =>
      obtain ⟨info, output, inferred, rfl, rfl, shape⟩ := exists_single h same
      obtain ⟨agrees, reshapes⟩ := Normalization.agrees_of_output inferred shape
      rw [kind]
      exact ⟨.l2Normalization agrees, trivial,
        all output (agrees.shapes ▸ known _ List.mem_cons_self), only reshapes⟩
    case h_8 kind _ =>
      obtain ⟨info, output, inferred, rfl, rfl, shape⟩ := exists_single h same
      obtain ⟨agrees, written, reshapes⟩ := Window.agrees_of_output inferred shape
      rw [kind]
      exact ⟨.slice agrees, trivial, all output written, only reshapes⟩
    case h_9 kind _ =>
      obtain ⟨info, output, inferred, rfl, rfl, shape⟩ := exists_single h same
      obtain ⟨agrees, fits, written, reshapes⟩ := Gather.agrees_of_output inferred shape
      rw [kind]
      exact ⟨.gatherNd agrees, fits, all output written, only reshapes⟩
    case h_10 => cases h

end Layer

namespace OutputSlot

theorem shape_of_resolve {s s' : OutputSlot} {info : TensorInfo} (h : s.resolve info = .ok s') :
    s'.info.shape = info.shape := by
  unfold resolve at h
  split at h
  · cases h
    rfl
  · split at h
    · split at h
      · rename_i same
        cases h
        exact same
      · cases h
    · simp only [Except.bind_eq_ok_iff, Except.mapError_eq_ok_iff, Except.pure_eq_ok_iff] at h
      obtain ⟨shaped, made, rfl⟩ := h
      rw [TensorInfo.of_setShape_eq_ok made]

theorem length_eq_of_resolveAll {slots resolved : List OutputSlot} {infos : List TensorInfo}
    (h : resolveAll slots infos = .ok resolved) :
    resolved.length = min slots.length infos.length := by
  rw [← length_of_mapM_eq_ok h, List.length_zip]

theorem shapes_of_resolveAll {slots resolved : List OutputSlot} {infos : List TensorInfo}
    (h : resolveAll slots infos = .ok resolved) (count : resolved.length = infos.length) :
    (resolved.map (·.info)).map (·.shape) = infos.map (·.shape) := by
  unfold resolveAll at h
  induction slots generalizing infos resolved with
  | nil =>
    cases h
    cases List.length_eq_zero_iff.mp count.symm
    rfl
  | cons slot slots ih =>
    cases infos with
    | nil =>
      cases h
      rfl
    | cons info infos =>
      simp only [List.zip_cons_cons, List.mapM_cons, Except.bind_eq_ok_iff,
        Except.pure_eq_ok_iff] at h
      obtain ⟨first, made, rest, later, rfl⟩ := h
      rw [List.map_cons, List.map_cons, List.map_cons, shape_of_resolve made,
        ih later (Nat.succ.inj count)]

end OutputSlot

namespace Graph

variable {g g' : Graph} {id other : LayerId} {ids : List LayerId} {l l' : Layer}

theorem outputInfo_congr {slot : OutputRef} (same : (g'.layer? slot.layer).map (·.outputs) =
    (g.layer? slot.layer).map (·.outputs)) : g'.outputInfo slot = g.outputInfo slot := by
  unfold outputInfo layer
  generalize g.layer? slot.layer = a, g'.layer? slot.layer = b at same ⊢
  cases a with
  | none =>
    cases b with
    | none => rfl
    | some l' => cases same
  | some l =>
    cases b with
    | none => cases same
    | some l' =>
      have slots : l'.outputs = l.outputs := Option.some.inj same
      simp only [Except.ok_bind, slots]

theorem inputInfos_congr (live : g.layer? id = some l) (live' : g'.layer? id = some l')
    (name : l'.name = l.name) (kind : l'.kind = l.kind) (edges : g'.edges = g.edges)
    (producers : ∀ e ∈ g.edges, e.target.layer = id →
      (g'.layer? e.source.layer).map (·.outputs) = (g.layer? e.source.layer).map (·.outputs)) :
    g'.inputInfos id = g.inputInfos id := by
  have reads : l'.numInputs = l.numInputs := congrArg LayerKind.numInputs kind
  unfold inputInfos
  rw [layer_eq_ok_iff.mpr live, layer_eq_ok_iff.mpr live']
  simp only [Except.mapError_ok, Except.ok_bind, name, reads]
  congr 1
  funext slot
  have fed : g'.producer? ⟨id, slot⟩ = g.producer? ⟨id, slot⟩ := by
    unfold producer?
    rw [edges]
  rw [fed]
  cases found : g.producer? ⟨id, slot⟩ with
  | none => rfl
  | some source =>
    have same := producers _ (mem_edges_of_producer? found) rfl
    simp only [outputInfo_congr same]

theorem frame_of_inferLayers (h : g.inferLayers ids = (g', .ok ())) :
    g'.edges = g.edges ∧ ∀ other ∉ ids, g'.layer? other = g.layer? other := by
  induction ids generalizing g with
  | nil =>
    cases h
    exact ⟨rfl, fun _ _ => rfl⟩
  | cons id ids ih =>
    unfold inferLayers at h
    split at h
    · rename_i next inferred
      obtain ⟨l, outputs, live, -, rfl⟩ := of_inferLayer_eq_ok inferred
      obtain ⟨edges, others⟩ := ih h
      refine ⟨edges, fun other absent => ?_⟩
      rw [List.mem_cons, not_or] at absent
      rw [others other absent.2, layer?_setLayer live, if_neg absent.1]
    · cases h

/-- Inference has settled a layer: its slots are those that it had before, resolved for what it
reads. -/
def Settled (g : Graph) (id : LayerId) (before : Layer) : Prop :=
  ∃ inputs infos outputs, g.inputInfos id = .ok inputs ∧ before.inferOutputs inputs = .ok infos ∧
    OutputSlot.resolveAll before.outputs infos = .ok outputs ∧
    g.layer? id = some { before with outputs }

theorem settled_of_inferLayers (h : g.inferLayers ids = (g', .ok ())) (ordered : g.Ordered ids)
    (distinct : ids.Nodup) : ∀ id ∈ ids, ∃ l, g.layer? id = some l ∧ g'.Settled id l := by
  induction ids generalizing g with
  | nil => exact List.forall_mem_nil _
  | cons id ids ih =>
    obtain ⟨fresh, distinct⟩ := List.nodup_cons.mp distinct
    have whole := h
    unfold inferLayers at h
    split at h
    · rename_i next inferred
      unfold inferLayer at inferred
      simp only [Except.bind_eq_ok_iff, Except.mapError_eq_ok_iff, Except.pure_eq_ok_iff,
        layer_eq_ok_iff] at inferred
      obtain ⟨inputs, read, l, live, outputs, ⟨infos, written, resolved⟩, rfl⟩ := inferred
      have placed := layer?_setLayer live { l with outputs }
      have edges : (g.setLayer id { l with outputs }).edges = g.edges := rfl
      refine List.forall_mem_cons.mpr ⟨⟨l, live, inputs, infos, outputs, ?_, written, resolved, ?_⟩,
        fun other member => ?_⟩
      · -- The producers come before the layer, so the rest of the walk leaves them alone.
        have found : g'.layer? id = some { l with outputs } := by
          rw [(frame_of_inferLayers h).2 id fresh, placed, if_pos rfl]
        have frame := frame_of_inferLayers whole
        rw [← read]
        exact inputInfos_congr live found rfl rfl frame.1 fun e edge target =>
          congrArg _ (frame.2 _ (ordered.1 e edge target))
      · rw [(frame_of_inferLayers h).2 id fresh, placed, if_pos rfl]
      · obtain ⟨m, found, settled⟩ := ih h ((ordered_congr edges).mpr ordered.2) distinct
          other member
        have apart : other ≠ id := fun same => fresh (same ▸ member)
        rw [placed, if_neg apart] at found
        exact ⟨m, found, settled⟩
    · cases h

theorem inferLayers_of_inferShapes (h : g.inferShapes = (g', .ok ())) :
    ∃ order, g.topologicalOrder = .ok order ∧ g.inferLayers order = (g', .ok ()) := by
  unfold inferShapes at h
  split at h
  · rename_i order sorted
    exact ⟨order, sorted, h⟩
  · cases h

theorem settled_of_inferShapes (h : g.inferShapes = (g', .ok ())) (live : g'.layer? id = some l') :
    ∃ l, g.layer? id = some l ∧ g'.Settled id l := by
  obtain ⟨order, sorted, inferred⟩ := inferLayers_of_inferShapes h
  refine settled_of_inferLayers inferred (ordered_topologicalOrder sorted)
    (nodup_topologicalOrder sorted) id ?_
  have found : (g.inferLayers order).1.layer? id = some l' := by rw [inferred]; exact live
  obtain ⟨l, before, -⟩ := layer?_of_inferLayers found
  exact (mem_topologicalOrder_iff sorted).mpr ⟨l, before⟩

/-- The tensors of a layer that inference has settled fit each other, and its outputs have the
extents for what it writes. -/
theorem fits_of_inferShapes (h : g.inferShapes = (g', .ok ())) (live : g'.layer? id = some l)
    (computes : l.operator.isBoundary = false) (slots : l.outputs.length = l.kind.numOutputs) :
    ∃ inputs, g'.inputInfos id = .ok inputs ∧ l.kind.Agrees inputs l.outputInfos ∧
      l.kind.OutputFits inputs l.outputInfos ∧
      ∀ info ∈ inputs ++ l.outputInfos, info.shape.isSpecified = true := by
  obtain ⟨before, -, inputs, infos, outputs, read, inferred, resolved, found⟩ :=
    settled_of_inferShapes h live
  cases live.symm.trans found
  have count : outputs.length = infos.length :=
    slots.trans (Layer.length_of_inferOutputs inferred).symm
  have shapes := OutputSlot.shapes_of_resolveAll resolved count
  obtain ⟨agrees, fits, known, -⟩ :=
    @Layer.agrees_of_inferOutputs before _ _ _ inferred computes shapes
  exact ⟨inputs, read, agrees, fits, known⟩

theorem exists_edge_of_inputInfos {inputs : List TensorInfo} (h : g.inputInfos id = .ok inputs) :
    ∀ info ∈ inputs, ∃ e ∈ g.edges, e.target.layer = id ∧
      ∃ l, g.layer? e.source.layer = some l ∧ info ∈ l.outputInfos := by
  unfold inputInfos at h
  simp only [Except.bind_eq_ok_iff] at h
  obtain ⟨l, -, read⟩ := h
  intro info member
  obtain ⟨slot, -, found⟩ := exists_of_mem_mapM read member
  split at found
  · cases found
  · rename_i source fed
    rw [Except.mapError_eq_ok_iff, outputInfo_eq_ok_iff] at found
    obtain ⟨producer, live, written⟩ := found
    exact ⟨_, mem_edges_of_producer? fed, rfl, producer, live, List.mem_of_getElem? written⟩

theorem exists_producer_of_inputInfos {inputs : List TensorInfo} (live : g.layer? id = some l)
    (read : g.inputInfos id = .ok inputs) {slot : Nat} (inside : slot < l.numInputs) :
    ∃ source, g.producer? ⟨id, slot⟩ = some source := by
  unfold inputInfos at read
  rw [layer_eq_ok_iff.mpr live] at read
  obtain ⟨info, found⟩ := exists_mapM_iff.mp ⟨inputs, read⟩ slot (List.mem_range.mpr inside)
  split at found
  · cases found
  · rename_i source fed
    exact ⟨source, fed⟩

/-- Every layer has the output slots of its kind. -/
def Slotted (g : Graph) : Prop :=
  ∀ id l, g.layer? id = some l → l.outputs.length = l.kind.numOutputs

theorem Wired.slotted (wired : g.Wired) : g.Slotted := wired.outputs

theorem Slotted.inferShapes (slotted : g.Slotted) (h : g.inferShapes = (g', .ok ())) :
    g'.Slotted := by
  intro id l live
  obtain ⟨before, start, inputs, infos, outputs, -, inferred, resolved, found⟩ :=
    settled_of_inferShapes h live
  cases live.symm.trans found
  rw [OutputSlot.length_eq_of_resolveAll resolved, slotted id before start,
    Layer.length_of_inferOutputs inferred, Nat.min_self]

/-- After inference, no layer that computes is malformed to the reference backend or the dense
one. -/
theorem verdict_ne_malformed (slotted : g.Slotted) (inferred : g.inferShapes = (g', .ok ()))
    (small : ∀ other l, g'.layer? other = some l →
      ∀ info ∈ l.outputInfos, ∀ extent ∈ info.dims, extent < 2 ^ 63)
    (live : g'.layer? id = some l) (computes : l.operator.isBoundary = false) :
    ∃ request, Request.ofGraph g' id = .ok request ∧
      ∀ f, f = .reference ∨ f = .dense → ∀ reason,
        Factory.verdict f request.kind request.signature.inputs request.signature.outputs ≠
          .malformed reason := by
  obtain ⟨inputs, read, agrees, -, known⟩ :=
    fits_of_inferShapes inferred live computes (slotted.inferShapes inferred id l live)
  refine ⟨{ layer := l.name, kind := l.kind, signature := ⟨inputs, l.outputInfos⟩ }, ?_, ?_⟩
  · unfold Request.ofGraph
    rw [read, layer_eq_ok_iff.mpr live]
    rfl
  · rintro f (rfl | rfl) reason
    · exact ReferenceBackend.support_ne_malformed agrees known reason
    · refine DenseBackend.support_ne_malformed_of_agrees agrees known (fun _ info member => ?_)
        reason
      obtain ⟨e, -, -, producer, found, listed⟩ := exists_edge_of_inputInfos read info member
      exact small _ producer found info listed

def cropping (shape : Shape) : Graph where
  layers :=
    [some { name := "x", guid := 1, kind := .input 0, outputs := [
       { info := .plain ⟨[2, 3], by decide⟩ .float32, declared := true }] },
     some { name := "crop", guid := 2, kind := .slice { begins := [0, 1], sizes := [2, 2] },
            outputs := [{ info := .plain shape .qasymmU8, declared := true }] },
     some { name := "y", guid := 3, kind := .output 7, outputs := [] }]
  edges := [⟨⟨⟨0⟩, 0⟩, ⟨⟨1⟩, 0⟩⟩, ⟨⟨⟨1⟩, 0⟩, ⟨⟨2⟩, 0⟩⟩]

/-- Neither backend finds the crop malformed. -/
theorem verdict_cropping :
    (cropping .unspecified).inferShapes = (cropping ⟨[2, 2], by decide⟩, .ok ()) ∧
      ∃ request, Request.ofGraph (cropping ⟨[2, 2], by decide⟩) ⟨1⟩ = .ok request ∧
        ∀ f, f = .reference ∨ f = .dense → ∀ reason,
          Factory.verdict f request.kind request.signature.inputs request.signature.outputs ≠
            .malformed reason := by
  have inferred : (cropping .unspecified).inferShapes = (cropping ⟨[2, 2], by decide⟩, .ok ()) :=
    Prod.ext (by decide +kernel) (by decide +kernel)
  refine ⟨inferred, verdict_ne_malformed ?_ inferred ?_ rfl rfl⟩
  · intro id l live
    have member := mem_layers_of_layer? live
    simp only [cropping, List.mem_cons, Option.some.injEq, List.not_mem_nil, or_false] at member
    rcases member with rfl | rfl | rfl <;> rfl
  · intro other l live info listed extent inside
    have member := mem_layers_of_layer? live
    simp only [cropping, List.mem_cons, Option.some.injEq, List.not_mem_nil, or_false] at member
    rcases member with rfl | rfl | rfl
    · cases List.mem_singleton.mp listed
      revert extent
      decide
    · cases List.mem_singleton.mp listed
      revert extent
      decide
    · cases listed

end Graph

end LayerNet
