import LayerNet.Proofs.Graph.Propagation

/-!
What a layer's result has of the tensor that the layer reads first: its element type, a codec, and
its quantization as long as no parameter could lose its step of the axis. Parameters along an axis
are kept in the same shape only; all others do not ask for the shape.
-/

set_option autoImplicit false
set_option relaxedAutoImplicit false

namespace LayerNet

namespace TensorInfo

variable {t info : TensorInfo} {s : Shape}

/-- What a description has of the one that it is derived from. -/
structure Inherits (t info : TensorInfo) : Prop where
  elementType_eq : info.elementType = t.elementType
  wellQuantized : info.WellQuantized
  hasCodec : info.HasCodec
  /-- Parameters along an axis are kept just if the shape is. -/
  kept_iff : t.isPerAxis = true → (info.quantization = t.quantization ↔ info.shape = t.shape)
  /-- What is not kept leaves nothing behind. -/
  quantization_eq : info.quantization =
    if t.isPerAxis = true ∧ info.shape ≠ t.shape then {} else t.quantization

theorem WellQuantized.reshaped (well : t.WellQuantized) (h : t.reshaped s = .ok info) :
    info.WellQuantized := by
  unfold TensorInfo.reshaped at h
  split at h
  · cases h
    exact .plain s t.elementType
  · exact well.setShape (Except.mapError_eq_ok_iff.mp h)

theorem quantization_of_reshaped (h : t.reshaped s = .ok info) : info.quantization =
    if t.isPerAxis = true ∧ info.shape ≠ t.shape then {} else t.quantization := by
  rw [(of_reshaped_eq_ok h).1]
  unfold reshaped at h
  split at h
  · rename_i dropped
    cases h
    exact (if_pos dropped).symm
  · rename_i kept
    rw [of_setShape_eq_ok (Except.mapError_eq_ok_iff.mp h)]
    exact (if_neg kept).symm

theorem quantization_ne_of_isPerAxis (along : t.isPerAxis = true) : {} ≠ t.quantization := by
  intro none
  unfold isPerAxis hasSeveralScales scales axis at along
  rw [← none] at along
  cases along

theorem inherits_of_reshaped (well : t.WellQuantized) (codec : t.HasCodec)
    (h : t.reshaped s = .ok info) : t.Inherits info := by
  have given := quantization_of_reshaped h
  refine ⟨(of_reshaped_eq_ok h).2, well.reshaped h, codec.reshaped h, fun along => ?_, given⟩
  by_cases same : info.shape = t.shape
  · rw [given, if_neg fun dropped => dropped.2 same]
    exact iff_of_true rfl same
  · rw [given, if_pos ⟨along, same⟩]
    exact iff_of_false (quantization_ne_of_isPerAxis along) same

end TensorInfo

theorem Operator.numOutputs_of_computes {op : Operator} (computes : op.isBoundary = false) :
    op.numOutputs = 1 := by
  cases op with
  | input => cases computes
  | output => cases computes
  | _ => rfl

namespace Layer

/-- A layer between the ends of a graph writes one tensor, which inherits from the first tensor that
the layer reads. -/
theorem inherits_of_inferOutputs {l : Layer} {first : TensorInfo} {rest infos : List TensorInfo}
    (inferred : l.inferOutputs (first :: rest) = .ok infos)
    (computes : l.operator.isBoundary = false) (well : first.WellQuantized)
    (codec : first.HasCodec) : ∃ info, infos = [info] ∧ first.Inherits info := by
  have inner : l.operator ≠ .input := by
    intro outer
    rw [outer] at computes
    cases computes
  have one : infos.length = 1 :=
    (length_of_inferOutputs inferred).trans (Operator.numOutputs_of_computes computes)
  obtain ⟨info, rfl⟩ := List.length_eq_one_iff.mp one
  refine ⟨info, rfl, ?_⟩
  obtain ⟨_, ⟨⟩, _, reshaped⟩ := reshapes_of_inferOutputs inferred inner info List.mem_cons_self
  exact TensorInfo.inherits_of_reshaped well codec reshaped

def scaledRows (extent : Nat) : TensorInfo :=
  ⟨⟨[2, extent], Shape.two_le_maxRank⟩, .qsymmS8, ⟨[1, 0], none, some 0⟩⟩

/-- A layer that takes the first two bytes of each row. -/
def shortening : Layer where
  name := "crop"
  guid := 2
  kind := .slice { begins := [0, 0], sizes := [2, 2] }
  outputs := [{}]

/-- Rows that are cut lose their scales, though there are as many rows as before; rows of two bytes
keep them. -/
theorem inherits_scaledRows :
    ((scaledRows 3).WellQuantized ∧ (scaledRows 3).HasCodec ∧
      ∃ info, shortening.inferOutputs [scaledRows 3] = .ok [info] ∧
        (scaledRows 3).Inherits info ∧ info.quantization = {}) ∧
      ∃ info, shortening.inferOutputs [scaledRows 2] = .ok [info] ∧
        (scaledRows 2).Inherits info ∧ info.quantization = (scaledRows 2).quantization := by
  have well : ∀ extent, (scaledRows extent).WellQuantized := by
    intro extent
    have made : TensorInfo.perAxis (scaledRows extent).shape .qsymmS8 [1, 0] 0 =
        .ok (scaledRows extent) := rfl
    exact (TensorInfo.Made.perAxis made).wellQuantized
  have codec : ∀ extent, (scaledRows extent).HasCodec := by
    intro extent
    exact TensorInfo.ScalesFit.hasCodec fun _ => ⟨0, rfl, rfl⟩
  have cut : shortening.inferOutputs [scaledRows 3] =
      .ok [.plain ⟨[2, 2], Shape.two_le_maxRank⟩ .qsymmS8] := rfl
  have kept : shortening.inferOutputs [scaledRows 2] = .ok [scaledRows 2] := rfl
  obtain ⟨info, listed, inherits⟩ := inherits_of_inferOutputs cut rfl (well 3) (codec 3)
  obtain ⟨info', listed', inherits'⟩ := inherits_of_inferOutputs kept rfl (well 2) (codec 2)
  cases listed
  cases listed'
  exact ⟨⟨well 3, codec 3, _, cut, inherits, rfl⟩, _, kept, inherits', rfl⟩

end Layer

end LayerNet
