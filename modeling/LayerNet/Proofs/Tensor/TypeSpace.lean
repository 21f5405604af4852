import LayerNet.Proofs.Number.Equality
import LayerNet.Proofs.Tensor.Resolution

/-!
Tensors of one type space hold the same numbers in the same bytes: they have one codec, so what is
read from a buffer and what is written into it does not depend on which of them describes it. For
the two plain integer types this asks for equal scalings besides, which the match does not compare.
-/

set_option autoImplicit false
set_option relaxedAutoImplicit false

namespace LayerNet

theorem Quantization.scales_eq_of_sameScales {a b : Quantization} (same : a.sameScales b = true)
    (ordinary : ∀ scale ∈ a.scales, scale.abs ≠ 0) : a.scales = b.scales := by
  unfold sameScales at same
  rw [Bool.and_eq_true, beq_iff_eq, List.all_eq_true] at same
  obtain ⟨count, equal⟩ := same
  refine List.ext_getElem count fun i first second => ?_
  have entry : (a.scales[i], b.scales[i]) ∈ a.scales.zip b.scales := by
    rw [← List.getElem_zip (h := by rw [List.length_zip]; omega)]
    exact List.getElem_mem _
  obtain ⟨-, -, one | ⟨zero, -⟩⟩ := Single.numEq_iff.mp (equal _ entry)
  · exact one
  · exact absurd zero (ordinary _ (List.getElem_mem first))

namespace TensorInfo

variable {a b : TensorInfo}

/-- Stored integers stand for the same numbers under both descriptions: through the same scale or,
if there are several, the same scales on the same axis, and from the same offset. -/
structure SameScaling (a b : TensorInfo) : Prop where
  scale?_eq : a.scale? = b.scale?
  offset_eq : a.offset = b.offset
  several : a.scale? = none → a.scales = b.scales ∧ a.axis = b.axis

/-- Buffers hold the same numbers under both descriptions, and the same numbers are written as the
same bytes. -/
structure SameContents (a b : TensorInfo) : Prop where
  decode_eq : ∀ data, a.decode data = b.decode data
  encode_eq : ∀ values data, a.encode values data = b.encode values data

private theorem scale_ne_zero {x : Single} (ordinary : ∀ scale ∈ a.scales, scale.abs ≠ 0)
    (single : a.scale? = some x) : x.abs ≠ 0 := by
  unfold scale? at single
  split at single
  · cases single
    decide
  · rename_i listed
    cases single
    exact ordinary x (listed ▸ List.mem_singleton_self x)
  · cases single

theorem sameScaling_of_isTypeSpaceMatch (matching : a.isTypeSpaceMatch b = true)
    (quantized : a.isQuantized = true) (ordinary : ∀ scale ∈ a.scales, scale.abs ≠ 0) :
    a.SameScaling b := by
  rw [isTypeSpaceMatch_eq_true_iff, compareTypeSpace, if_neg (not_not.mpr quantized)] at matching
  split at matching
  · cases matching
  · split at matching
    · rw [Except.pure_eq_ok_iff, Bool.and_eq_true, Bool.and_eq_true, beq_iff_eq,
        beq_iff_eq] at matching
      obtain ⟨⟨scales, axis⟩, offset⟩ := matching
      have scales : a.scales = b.scales := Quantization.scales_eq_of_sameScales scales ordinary
      exact ⟨by simp only [scale?, scales], offset, fun _ => ⟨scales, axis⟩⟩
    · simp only [Except.bind_eq_ok_iff, scale_eq_ok_iff, Except.pure_eq_ok_iff, Bool.and_eq_true,
        beq_iff_eq] at matching
      obtain ⟨x, first, y, second, equal, offset⟩ := matching
      obtain ⟨-, -, one | ⟨zero, -⟩⟩ := Single.numEq_iff.mp equal
      · refine ⟨by rw [first, second, one], offset, fun several => ?_⟩
        cases first.symm.trans several
      · exact absurd zero (scale_ne_zero ordinary first)

theorem elementType_eq_of_isTypeSpaceMatch (matching : a.isTypeSpaceMatch b = true) :
    a.elementType = b.elementType := by
  rw [isTypeSpaceMatch_eq_true_iff, compareTypeSpace] at matching
  split at matching
  · cases matching
  · rename_i same
    exact not_not.mp same

section Codecs

variable (shape : a.shape = b.shape) (type : a.elementType = b.elementType)

include shape type

theorem SameScaling.resolve_eq (same : a.SameScaling b) :
    Scaling.resolve a .unbounded = Scaling.resolve b .unbounded := by
  cases single : a.scale? with
  | some scale =>
    have single' : b.scale? = some scale := same.scale?_eq.symm.trans single
    rw [Scaling.resolve_of_single single, Scaling.resolve_of_single single', same.offset_eq]
  | none =>
    obtain ⟨scales, axis⟩ := same.several single
    have single' : b.scale? = none := same.scale?_eq.symm.trans single
    rw [Scaling.resolve_of_several single, Scaling.resolve_of_several single', same.offset_eq]
    simp only [perAxisParams, shape, type, scales, axis]

theorem codec_eq (scaling : a.elementType.isInteger = true → a.SameScaling b) :
    Codec.ofInfo a = Codec.ofInfo b := by
  have resolved (integer : a.elementType.isInteger = true) :
      Scaling.resolve a .unbounded = Scaling.resolve b .unbounded :=
    (scaling integer).resolve_eq shape type
  have codec : Codec.resolve a .unbounded = Codec.resolve b .unbounded := by
    unfold Codec.resolve
    rw [← type]
    cases held : a.elementType with
    | float16 | bfloat16 | float32 | boolean => rfl
    | qasymmU8 | qasymmS8 | qsymmS8 | qsymmS16 | signed32 | signed64 =>
      rw [held] at resolved
      rw [resolved rfl]
  unfold Codec.ofInfo
  simp only [codec]

theorem sameContents_of_codec (codec : Codec.ofInfo a = Codec.ofInfo b) : a.SameContents b := by
  have elements : a.numElements = b.numElements := congrArg Shape.numElements shape
  have bytes : a.numBytes = b.numBytes := by rw [numBytes, numBytes, elements, type]
  have resolved : Codec.resolve a .unbounded = Codec.resolve b .unbounded := by
    rw [Codec.resolve_unbounded, codec, Codec.resolve_unbounded]
  have checked (size : Nat) : a.checkLength size .unbounded = b.checkLength size .unbounded := by
    rw [checkLength_unbounded, checkLength_unbounded, checkSize, checkSize, bytes]
  constructor
  · intro data
    simp only [decode, checked, resolved]
  · intro values data
    simp only [encode, encodeInto, writer, checked, countElements_unbounded, elements, resolved]

end Codecs

/-- Matching descriptions of one shape, whose scales are no zeros, have the same contents: for a
quantized, floating-point or boolean type always, for the plain integer types if the scalings that
the match leaves out are the same. -/
theorem sameContents_of_isTypeSpaceMatch (shape : a.shape = b.shape)
    (ordinary : ∀ scale ∈ a.scales, scale.abs ≠ 0) (matching : a.isTypeSpaceMatch b = true)
    (plain : a.elementType = .signed32 ∨ a.elementType = .signed64 → a.SameScaling b) :
    a.SameContents b := by
  have type := elementType_eq_of_isTypeSpaceMatch matching
  refine sameContents_of_codec shape type (codec_eq shape type fun integer => ?_)
  by_cases quantized : a.isQuantized = true
  · exact sameScaling_of_isTypeSpaceMatch matching quantized ordinary
  · have bare : a.elementType.isQuantized = false := Bool.eq_false_iff.mpr quantized
    refine plain ?_
    simpa [ElementType.isInteger, bare] using integer

/-- Two bytes, and two plain integers, without scales and with the scale and the offset that this
stands for. -/
theorem sameContents_default :
    (plain ⟨[2], by decide⟩ .qasymmU8).SameContents (quantized ⟨[2], by decide⟩ .qasymmU8 1 0) ∧
      (plain ⟨[2], by decide⟩ .signed32).SameContents
        (quantized ⟨[2], by decide⟩ .signed32 1 0) := by
  constructor
  · exact sameContents_of_isTypeSpaceMatch rfl (List.forall_mem_nil _) (by decide +kernel)
      fun integer => integer.elim nofun nofun
  · exact sameContents_of_isTypeSpaceMatch rfl (List.forall_mem_nil _) (by decide +kernel)
      fun _ => ⟨rfl, rfl, nofun⟩

def scaledPair (first second : Single) : TensorInfo where
  shape := ⟨[2], by decide⟩
  elementType := .signed32
  quantization := { scales := [first, second], axis := some 0 }

/-- Plain integers match whatever their scales are, but their scales count when they are read. -/
theorem decode_scaledPair :
    let a := scaledPair (.ofInt 1) (.ofInt 2)
    let b := scaledPair (.ofInt 1) (.ofInt 4)
    a.Reachable ∧ b.Reachable ∧ a.shape = b.shape ∧
      (∀ scale ∈ a.scales ++ b.scales, scale.isFinite = true ∧ scale.abs ≠ 0) ∧
      a.isTypeSpaceMatch b = true ∧
      a.decode ⟨#[1, 0, 0, 0, 1, 0, 0, 0]⟩ = .ok #[.ofInt 1, .ofInt 2] ∧
      b.decode ⟨#[1, 0, 0, 0, 1, 0, 0, 0]⟩ = .ok #[.ofInt 1, .ofInt 4] := by
  have reachable (x y : Single) : (scaledPair x y).Reachable := by
    have made : perAxis ⟨[2], by decide⟩ .signed32 [x, y] 0 = .ok (scaledPair x y) := rfl
    exact .made (.perAxis made)
  intro a b
  exact ⟨reachable _ _, reachable _ _, rfl, by decide +kernel, rfl, by decide +kernel,
    by decide +kernel⟩

end TensorInfo

end LayerNet
