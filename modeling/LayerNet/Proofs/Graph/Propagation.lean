import LayerNet.Proofs.Graph.Inference

/-!
What tensors inherit along a graph. The tensor that inference describes for a layer is the first
that the layer reads with another shape, so from numeric inputs on every tensor is numeric, and the
reference backend supports every layer.
-/

set_option autoImplicit false
set_option relaxedAutoImplicit false

namespace LayerNet

/-- A tensor with a codec keeps one in another shape: several scales stay with their axis or are
dropped. -/
theorem TensorInfo.HasCodec.reshaped {t info : TensorInfo} {shape : Shape} (codec : t.HasCodec)
    (h : t.reshaped shape = .ok info) : info.HasCodec := by
  unfold TensorInfo.reshaped at h
  split at h
  · cases h
    exact ScalesFit.hasCodec fun several => absurd several (Nat.not_lt_zero 1)
  · rename_i kept
    rw [of_setShape_eq_ok (Except.mapError_eq_ok_iff.mp h)]
    by_cases along : t.isPerAxis
    · have same : shape = t.shape := by_contra fun changed => kept ⟨along, changed⟩
      rw [same]
      exact codec
    · refine ScalesFit.hasCodec fun several => absurd ?_ along
      exact Bool.or_eq_true_iff.mpr (.inl (decide_eq_true several))

theorem TensorInfo.Numeric.reshaped {t info : TensorInfo} {shape : Shape} (numeric : t.Numeric)
    (h : t.reshaped shape = .ok info) : info.Numeric :=
  ⟨(of_reshaped_eq_ok h).2 ▸ numeric.1, numeric.2.reshaped h⟩

theorem Layer.eq_nil_of_inferOutputs {l : Layer} {inputs infos : List TensorInfo}
    (h : l.inferOutputs inputs = .ok infos) (inner : l.operator ≠ .input)
    (boundary : l.operator.isBoundary = true) : infos = [] := by
  apply List.length_eq_zero_iff.mp
  rw [length_of_inferOutputs h]
  cases kind : l.kind with
  | input binding => exact absurd (congrArg LayerKind.operator kind) inner
  | output binding => rfl
  | _ => simp [operator, kind, LayerKind.operator, Operator.isBoundary] at boundary

theorem Layer.reshapes_of_inferOutputs {l : Layer} {inputs infos : List TensorInfo}
    (h : l.inferOutputs inputs = .ok infos) (inner : l.operator ≠ .input) :
    ∀ info ∈ infos, ∃ first ∈ inputs.head?, first.Reshapes info := by
  cases computes : l.operator.isBoundary with
  | false =>
    obtain ⟨-, -, -, reshapes⟩ := agrees_of_inferOutputs h computes rfl
    exact reshapes
  | true =>
    rw [eq_nil_of_inferOutputs h inner computes]
    exact List.forall_mem_nil _

theorem Layer.declared_of_inferOutputs {l : Layer} {inputs infos : List TensorInfo}
    (h : l.inferOutputs inputs = .ok infos) (outer : l.operator = .input) :
    ∃ slot rest, l.outputs = slot :: rest ∧ slot.declared = true ∧
      slot.info.shape.isSpecified = true ∧ infos = [slot.info] := by
  unfold inferOutputs at h
  split at h
  · cases h
  · split at h
    case h_1 =>
      split at h
      · rename_i slot rest listed
        split at h
        · rename_i known
          cases h
          rw [Bool.and_eq_true] at known
          exact ⟨slot, rest, listed, known.1, known.2, rfl⟩
        · cases h
      · cases h
    case h_10 => cases h
    all_goals
      rename_i kind _
      simp [operator, kind, LayerKind.operator] at outer

namespace OutputSlot

variable {slots resolved : List OutputSlot} {infos : List TensorInfo}

theorem mem_of_resolveAll (h : resolveAll slots infos = .ok resolved)
    (undeclared : ∀ slot ∈ slots, slot.declared = false) :
    ∀ slot ∈ resolved, slot.info ∈ infos := by
  intro slot member
  obtain ⟨⟨before, info⟩, paired, made⟩ := exists_of_mem_mapM h member
  obtain ⟨among, inferred⟩ := List.of_mem_zip paired
  have made : before.resolve info = .ok slot := made
  rw [resolve, undeclared before among, if_pos Bool.false_ne_true] at made
  cases made
  exact inferred

theorem eq_of_resolveAll {slot : OutputSlot} {rest : List OutputSlot}
    (h : resolveAll (slot :: rest) [slot.info] = .ok resolved) (declared : slot.declared = true)
    (known : slot.info.shape.isSpecified = true) : resolved = [slot] := by
  simp only [resolveAll, List.zip_cons_cons, List.zip_nil_right, List.mapM_cons, List.mapM_nil,
    Except.bind_eq_ok_iff, Except.pure_eq_ok_iff, resolve, declared, known, not_true_eq_false,
    if_true, if_false, Except.ok.injEq] at h
  obtain ⟨_, rfl, _, rfl, rfl⟩ := h
  rfl

end OutputSlot

namespace Graph

variable {g g' : Graph} {id : LayerId} {l : Layer} {order : List LayerId}

theorem kinds_of_inferShapes (h : g.inferShapes = (g', .ok ())) (id : LayerId) :
    (g'.layer? id).map (·.kind) = (g.layer? id).map (·.kind) := by
  obtain ⟨order, sorted, inferred⟩ := inferLayers_of_inferShapes h
  by_cases member : id ∈ order
  · obtain ⟨before, found, _, _, outputs, -, -, -, after⟩ := settled_of_inferLayers inferred
      (ordered_topologicalOrder sorted) (nodup_topologicalOrder sorted) id member
    rw [found, after]
    rfl
  · rw [(frame_of_inferLayers inferred).2 id member]

theorem topologicalOrder_of_inferShapes (h : g.inferShapes = (g', .ok ())) :
    ∃ order, g.topologicalOrder = .ok order ∧ g'.topologicalOrder = .ok order := by
  obtain ⟨order, sorted, inferred⟩ := inferLayers_of_inferShapes h
  refine ⟨order, sorted, ?_⟩
  rw [← sorted]
  exact topologicalOrder_congr (kinds_of_inferShapes h) (frame_of_inferLayers inferred).1

/-- Of the layers that are not inputs nothing was declared about what they write. -/
def InputsDeclare (g : Graph) : Prop :=
  ∀ id l, g.layer? id = some l → l.operator ≠ .input → ∀ slot ∈ l.outputs, slot.declared = false

/-- The tensors that users describe are numeric: what inputs declare, and constants. -/
structure NumericSources (g : Graph) : Prop where
  inputs : ∀ id l, g.layer? id = some l → l.operator = .input → ∀ slot ∈ l.outputs,
    slot.declared = true → slot.info.Numeric
  constants : ∀ id l, g.layer? id = some l → ∀ c ∈ l.kind.constants, c.info.Numeric

/-- What a layer writes after inference is what it reads first in another shape, if nothing else
was declared. -/
theorem reshapes_of_settled {before : Layer} (settled : g.Settled id before)
    (live : g.layer? id = some l) (inner : before.operator ≠ .input)
    (undeclared : ∀ slot ∈ before.outputs, slot.declared = false) :
    ∃ inputs, g.inputInfos id = .ok inputs ∧
      ∀ info ∈ l.outputInfos, ∃ first ∈ inputs.head?, first.Reshapes info := by
  obtain ⟨inputs, infos, outputs, read, inferred, resolved, found⟩ := settled
  cases live.symm.trans found
  refine ⟨inputs, read, List.forall_mem_map.mpr fun slot member => ?_⟩
  exact Layer.reshapes_of_inferOutputs inferred inner _
    (OutputSlot.mem_of_resolveAll resolved undeclared slot member)

theorem numeric_of_inferShapes (h : g.inferShapes = (g', .ok ())) (sources : g.NumericSources)
    (declare : g.InputsDeclare) :
    ∀ id l, g'.layer? id = some l → ∀ info ∈ l.outputInfos, info.Numeric := by
  obtain ⟨order, -, sorted⟩ := topologicalOrder_of_inferShapes h
  have listed : ∀ {id l}, g'.layer? id = some l → id ∈ order := fun {_ l} live =>
    (mem_topologicalOrder_iff sorted).mpr ⟨l, live⟩
  suffices each : ∀ id ∈ order, ∀ l, g'.layer? id = some l → ∀ info ∈ l.outputInfos, info.Numeric
    from fun id l live => each id (listed live) l live
  -- An input keeps what it declares; any other layer reshapes what a layer before it wrote.
  refine (ordered_topologicalOrder sorted).induction fun id member handed l live => ?_
  obtain ⟨before, start, settled⟩ := settled_of_inferShapes h live
  by_cases outer : before.operator = .input
  · obtain ⟨inputs, infos, outputs, read, inferred, resolved, found⟩ := settled
    cases live.symm.trans found
    obtain ⟨slot, rest, slots, declared, known, rfl⟩ :=
      Layer.declared_of_inferOutputs inferred outer
    rw [slots] at resolved
    cases OutputSlot.eq_of_resolveAll resolved declared known
    refine (List.forall_mem_singleton (a := slot.info)).mpr ?_
    exact sources.inputs id before start outer slot (slots ▸ List.mem_cons_self) declared
  · obtain ⟨inputs, read, shaped⟩ :=
      reshapes_of_settled settled live outer (declare id before start outer)
    intro info written
    obtain ⟨first, ahead, shape, made⟩ := shaped info written
    obtain ⟨e, edge, target, producer, alive, held⟩ :=
      exists_edge_of_inputInfos read first (List.mem_of_head? ahead)
    exact (handed e edge target (listed alive) producer alive first held).reshaped made

theorem support_of_inferShapes (h : g.inferShapes = (g', .ok ())) (slotted : g.Slotted)
    (sources : g.NumericSources) (declare : g.InputsDeclare) (live : g'.layer? id = some l)
    (computes : l.operator.isBoundary = false) :
    ∃ inputs, g'.inputInfos id = .ok inputs ∧
      ReferenceBackend.table.support l.kind inputs l.outputInfos = .supported ∧
      ∀ info ∈ inputs ++ l.outputInfos ++ l.kind.constants.map (·.info), info.Numeric := by
  obtain ⟨before, start, settled⟩ := settled_of_inferShapes h live
  obtain ⟨inputs, read, agrees, -, known⟩ :=
    fits_of_inferShapes h live computes (slotted.inferShapes h id l live)
  have kind : before.kind = l.kind := by
    obtain ⟨_, _, _, -, -, -, found⟩ := settled
    cases live.symm.trans found
    rfl
  have inner : before.operator ≠ .input := by
    intro outer
    have outer : l.operator = .input := (congrArg LayerKind.operator kind.symm).trans outer
    rw [outer] at computes
    cases computes
  obtain ⟨inputs', read', shaped⟩ :=
    reshapes_of_settled settled live inner (declare id before start inner)
  cases read.symm.trans read'
  have tensors := numeric_of_inferShapes h sources declare
  have numeric : ∀ info ∈ inputs ++ l.outputInfos ++ l.kind.constants.map (·.info),
      info.Numeric := by
    refine List.forall_mem_append.mpr ⟨List.forall_mem_append.mpr
      ⟨fun info member => ?_, tensors id l live⟩, List.forall_mem_map.mpr fun c member => ?_⟩
    · obtain ⟨e, -, -, producer, alive, written⟩ := exists_edge_of_inputInfos read info member
      exact tensors _ producer alive info written
    · exact sources.constants id before start c (kind ▸ member)
  refine ⟨inputs, read, ReferenceBackend.support_eq_supported agrees known numeric ?_, numeric⟩
  intro first ahead result member
  obtain ⟨first', ahead', shape, made⟩ := shaped result member
  cases Option.mem_unique ahead ahead'
  exact (TensorInfo.of_reshaped_eq_ok made).2

end Graph

end LayerNet
