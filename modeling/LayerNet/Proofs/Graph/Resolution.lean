import LayerNet.Graph.Inference
import LayerNet.Proofs.Graph.Order

/-!
What shape inference does to a graph: it changes what is known of output slots and nothing else,
and a layer that it has resolved writes at most as many tensors as its kind says.
-/

set_option autoImplicit false
set_option relaxedAutoImplicit false

namespace LayerNet

namespace Layer

/-- The layer has at most as many output slots as its kind says. -/
def Bounded (l : Layer) : Prop := l.outputs.length ≤ l.kind.numOutputs

theorem length_of_inferOutputs {l : Layer} {inputs infos : List TensorInfo}
    (h : l.inferOutputs inputs = .ok infos) : infos.length = l.kind.numOutputs := by
  unfold inferOutputs at h
  split at h
  · cases h
  · split at h
    case h_1 kind _ =>
      split at h
      · split at h
        · cases h
          rw [kind]
          rfl
        · cases h
      · cases h
    case h_2 kind _ =>
      cases h
      rw [kind]
      rfl
    case h_10 => cases h
    all_goals
      rename_i kind _
      simp only [Except.bind_eq_ok_iff, Except.pure_eq_ok_iff] at h
      obtain ⟨_, -, rfl⟩ := h
      rw [kind]
      rfl

end Layer

theorem OutputSlot.length_of_resolveAll {slots resolved : List OutputSlot}
    {inferred : List TensorInfo} (h : resolveAll slots inferred = .ok resolved) :
    resolved.length ≤ inferred.length := by
  rw [← length_of_mapM_eq_ok h, List.length_zip]
  exact Nat.min_le_right _ _

namespace Graph

variable {g g' : Graph} {id other : LayerId} {l : Layer}

theorem isBoundary_of_input {binding : Int} (input : l.kind = .input binding) :
    l.operator.isBoundary = true := by
  rw [Layer.operator, input]
  rfl

theorem layer_eq_ok_iff : g.layer id = .ok l ↔ g.layer? id = some l := by
  unfold layer
  cases g.layer? id <;> simp

theorem mem_layers_of_layer? (live : g.layer? id = some l) : some l ∈ g.layers := by
  unfold layer? at live
  rw [Option.join_eq_some_iff] at live
  exact List.mem_of_getElem? live

theorem forall_layer? {p : Layer → Prop} (holds : ∀ entry ∈ g.layers, ∀ l ∈ entry, p l) :
    ∀ id l, g.layer? id = some l → p l :=
  fun _ l live => holds _ (mem_layers_of_layer? live) l rfl

theorem outputInfo_eq_ok_iff {slot : OutputRef} {info : TensorInfo} : g.outputInfo slot = .ok info ↔
    ∃ l, g.layer? slot.layer = some l ∧ l.outputInfos[slot.slot]? = some info := by
  unfold outputInfo
  simp only [Except.bind_eq_ok_iff, layer_eq_ok_iff, Layer.outputInfos, List.getElem?_map,
    Option.map_eq_some_iff]
  refine exists_congr fun l => and_congr_right fun _ => ?_
  cases l.outputs[slot.slot]? <;> simp

theorem mem_edges_of_producer? {target : InputRef} {source : OutputRef}
    (h : g.producer? target = some source) : (⟨source, target⟩ : Edge) ∈ g.edges := by
  unfold producer? at h
  obtain ⟨e, found, rfl⟩ := Option.map_eq_some_iff.mp h
  have target_eq : e.target = target := by simpa using List.find?_some found
  subst target_eq
  exact List.mem_of_find?_eq_some found

theorem layer?_setLayer (live : g.layer? id = some l) (l' : Layer) (other : LayerId) :
    (g.setLayer id l').layer? other = if other = id then some l' else g.layer? other := by
  have inside : id.index < g.layers.length := by
    unfold layer? at live
    rw [Option.join_eq_some_iff] at live
    exact (List.getElem?_eq_some_iff.mp live).1
  unfold layer? setLayer
  by_cases same : other = id
  · subst same
    simp [inside]
  · have distinct : id.index ≠ other.index := fun equal => same (by
      cases id
      cases other
      exact congrArg LayerId.mk equal.symm)
    simp [List.getElem?_set_ne distinct, same]

theorem of_inferLayer_eq_ok (h : g.inferLayer id = .ok g') :
    ∃ l outputs, g.layer? id = some l ∧ { l with outputs }.Bounded ∧
      g' = g.setLayer id { l with outputs } := by
  unfold inferLayer at h
  simp only [Except.bind_eq_ok_iff, Except.mapError_eq_ok_iff, Except.pure_eq_ok_iff,
    layer_eq_ok_iff] at h
  obtain ⟨inputs, -, l, live, outputs, ⟨infos, inferred, resolved⟩, rfl⟩ := h
  refine ⟨l, outputs, live, ?_, rfl⟩
  unfold Layer.Bounded
  rw [← Layer.length_of_inferOutputs inferred]
  exact OutputSlot.length_of_resolveAll resolved

theorem layer?_of_inferLayers {ids : List LayerId} {l' : Layer}
    (h : (g.inferLayers ids).1.layer? other = some l') :
    ∃ l, g.layer? other = some l ∧ l' = { l with outputs := l'.outputs } := by
  induction ids generalizing g with
  | nil => exact ⟨l', h, rfl⟩
  | cons id ids ih =>
    unfold inferLayers at h
    split at h
    · rename_i next inferred
      obtain ⟨l, outputs, live, -, rfl⟩ := of_inferLayer_eq_ok inferred
      obtain ⟨m, found, same⟩ := ih h
      rw [layer?_setLayer live] at found
      by_cases equal : other = id
      · rw [if_pos equal] at found
        cases found
        exact ⟨l, equal ▸ live, same⟩
      · rw [if_neg equal] at found
        exact ⟨m, found, same⟩
    · exact ⟨l', h, rfl⟩

private theorem bounded_of_inferLayers {ids : List LayerId} {l' : Layer}
    (h : g.inferLayers ids = (g', .ok ())) (live : g'.layer? other = some l')
    (start : other ∈ ids ∨ ∀ l, g.layer? other = some l → l.Bounded) : l'.Bounded := by
  induction ids generalizing g with
  | nil =>
    cases h
    exact start.resolve_left List.not_mem_nil l' live
  | cons id ids ih =>
    unfold inferLayers at h
    split at h
    · rename_i next inferred
      obtain ⟨l, outputs, found, bounded, rfl⟩ := of_inferLayer_eq_ok inferred
      refine ih h ?_
      rcases start with member | before
      · rcases List.mem_cons.mp member with rfl | later
        · right
          intro m found'
          rw [layer?_setLayer found, if_pos rfl] at found'
          cases found'
          exact bounded
        · exact .inl later
      · right
        intro m found'
        rw [layer?_setLayer found] at found'
        by_cases equal : other = id
        · rw [if_pos equal] at found'
          cases found'
          exact bounded
        · rw [if_neg equal] at found'
          exact before m found'
    · cases h

/-- After inference every living layer writes at most as many tensors as its kind says. -/
theorem bounded_of_inferShapes {l' : Layer} (h : g.inferShapes = (g', .ok ()))
    (live : g'.layer? id = some l') : l'.Bounded := by
  unfold inferShapes at h
  split at h
  · rename_i order sorted
    refine bounded_of_inferLayers h live (.inl ?_)
    have found : (g.inferLayers order).1.layer? id = some l' := by rw [h]; exact live
    obtain ⟨l, before, -⟩ := layer?_of_inferLayers found
    exact (mem_topologicalOrder_iff sorted).mpr ⟨l, before⟩
  · cases h

end Graph

end LayerNet
